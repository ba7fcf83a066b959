import MzzPlork.Core.RequestReply

/-!
# Calls and Their Slots

A call of `RequestReply` takes whatever lies in the slot of the type it
expects. That is always a reply to some call that expected this type, so calls
of different types never get in each other's way.

The calls are only added to and only go on. An action other than the delivery
of a message fills no slot, and a call that begins finds its own empty.

## Main definitions

* `Has`: A call with a property.
* `Asked`, `Expects`, `Took`: A call that expected a type, is under way, or has
  taken a reply.
* `Turn`: What an action does that delivers no message.
* `Addressed`: A reply that was made for a call expecting the type.
* `Orderly`: What holds in every state.
* `Routed`: Replies are taken by calls of their type.

## Theorems

* `has_setProgress`, `has_append`: The calls after one has come further, or
  begun.
* `turn_act`: An action delivers a message, or it takes such a turn.
* `took_turn`, `expects_turn`: Which calls take a reply, and which begin.
* `orderly_act`, `routed_act`: Every action keeps what holds in every state.
-/

namespace MzzPlork

namespace RequestReply

section Calls

/-- The call with the number is there, and it has the property. -/
def Has (calls : List Call) (id : CallId) (p : Call → Prop) : Prop :=
  ∃ call, calls[id]? = some call ∧ p call

/-- A call that expected replies of the type. -/
def Asked (w : World) (id : CallId) (type : Bytes) : Prop :=
  Has w.calls id (fun call => call.expectedReplyType = type)

/-- One that has not returned. -/
def Expects (w : World) (id : CallId) (type : Bytes) : Prop :=
  Has w.calls id (fun call => call.expectedReplyType = type ∧ call.progress.live = true)

/-- One that has taken the reply. It has returned true if there is a payload. -/
def Took (w : World) (id : CallId) (type : Bytes) (reply : Reply)
    (outPayload : Option ClientObject) : Prop :=
  Has w.calls id (fun call =>
    call.expectedReplyType = type ∧ call.progress = .returned (some reply) outPayload)

theorem Has.imp {calls : List Call} {id : CallId} {p q : Call → Prop} (h : Has calls id p)
    (hpq : ∀ call, p call → q call) : Has calls id q := by
  rcases h with ⟨call, hcall, hp⟩
  exact ⟨call, hcall, hpq call hp⟩

theorem has_of_lookup {calls : List Call} {id : CallId} {call : Call} {p : Call → Prop}
    (hcall : calls[id]? = some call) (h : Has calls id p) : p call := by
  rcases h with ⟨call', hcall', hp⟩
  rw [hcall] at hcall'
  exact Option.some.inj hcall' ▸ hp

theorem has_setProgress (w : World) (id id' : CallId) (progress : Progress) (p : Call → Prop) :
    Has (w.setProgress id progress).calls id' p ↔
      Has w.calls id' (fun call =>
        p (if id = id' then { call with progress := progress } else call)) := by
  rw [Has, World.setProgress, List.getElem?_modify]
  constructor
  · rintro ⟨call, hcall, hp⟩
    rcases Option.map_eq_some_iff.mp hcall with ⟨call', hcall', rfl⟩
    exact ⟨call', hcall', hp⟩
  · rintro ⟨call, hcall, hp⟩
    exact ⟨_, Option.map_eq_some_iff.mpr ⟨call, hcall, rfl⟩, hp⟩

/-- What does not depend on the progress of a call is left as it was. -/
theorem has_setProgress_iff (w : World) (id id' : CallId) (progress : Progress)
    (p : Call → Prop) (hp : ∀ call, p { call with progress := progress } ↔ p call) :
    Has (w.setProgress id progress).calls id' p ↔ Has w.calls id' p := by
  rw [has_setProgress]
  by_cases hid : id = id'
  · simp only [if_pos hid, hp]
  · simp only [if_neg hid]

theorem asked_setProgress (w : World) (id id' : CallId) (progress : Progress) (type : Bytes) :
    Asked (w.setProgress id progress) id' type ↔ Asked w id' type :=
  has_setProgress_iff w id id' progress _ (fun _ => Iff.rfl)

/-- A call that goes on is one that was going on. -/
theorem expects_setProgress (w : World) (id id' : CallId) (progress : Progress) (type : Bytes)
    (hlive : progress.live = true → ∃ type', Expects w id type')
    (h : Expects (w.setProgress id progress) id' type) : Expects w id' type := by
  rcases (has_setProgress w id id' progress _).mp h with ⟨call, hcall, htype, hnow⟩
  by_cases hid : id = id'
  · rw [if_pos hid] at htype hnow
    rcases hlive hnow with ⟨type', hexp⟩
    rw [hid] at hexp
    exact ⟨call, hcall, htype, (has_of_lookup hcall hexp).2⟩
  · rw [if_neg hid] at htype hnow
    exact ⟨call, hcall, htype, hnow⟩

/-- The replies taken are those taken before, and the one taken now. -/
theorem took_setProgress (w : World) (id id' : CallId) (progress : Progress) (type : Bytes)
    (reply : Reply) (outPayload : Option ClientObject)
    (h : Took (w.setProgress id progress) id' type reply outPayload) :
    Took w id' type reply outPayload ∨
      (id = id' ∧ Asked w id' type ∧ progress = .returned (some reply) outPayload) := by
  rcases (has_setProgress w id id' progress _).mp h with ⟨call, hcall, htype, hnow⟩
  by_cases hid : id = id'
  · rw [if_pos hid] at htype hnow
    exact Or.inr ⟨hid, ⟨call, hcall, htype⟩, hnow⟩
  · rw [if_neg hid] at htype hnow
    exact Or.inl ⟨call, hcall, htype, hnow⟩

/-- The calls are those there were, and the one that begins. -/
theorem has_append (calls : List Call) (call : Call) (id : CallId) (p : Call → Prop) :
    Has (calls ++ [call]) id p ↔ Has calls id p ∨ (id = calls.length ∧ p call) := by
  unfold Has
  rcases Nat.lt_trichotomy id calls.length with hlt | heq | hgt
  · rw [List.getElem?_append_left hlt]
    constructor
    · exact Or.inl
    · rintro (hold | ⟨hnew, -⟩)
      · exact hold
      · exact absurd hnew (Nat.ne_of_lt hlt)
  · rw [heq, List.getElem?_concat_length, List.getElem?_eq_none (Nat.le_refl _)]
    constructor
    · rintro ⟨call', hcall, hp⟩
      exact Or.inr ⟨rfl, Option.some.inj hcall ▸ hp⟩
    · rintro (⟨call', hcall, -⟩ | ⟨-, hp⟩)
      · exact absurd hcall (by simp only [reduceCtorEq, not_false_eq_true])
      · exact ⟨call, rfl, hp⟩
  -- Nothing has a number as high as that.
  · have hlen : (calls ++ [call]).length ≤ id := by
      rw [List.length_append, List.length_singleton]
      omega
    rw [List.getElem?_eq_none hlen, List.getElem?_eq_none (by omega)]
    constructor
    · rintro ⟨call', hcall, -⟩
      exact absurd hcall (by simp only [reduceCtorEq, not_false_eq_true])
    · rintro (⟨call', hcall, -⟩ | ⟨hnew, -⟩)
      · exact absurd hcall (by simp only [reduceCtorEq, not_false_eq_true])
      · exact absurd hnew (Nat.ne_of_gt hgt)

theorem pendingReplies_erase (w : World) (type type' : Bytes) (reply : Reply)
    (h : (w.erase type).pendingReplies type' = some reply) :
    type' ≠ type ∧ w.pendingReplies type' = some reply := by
  simp only [World.erase, Function.update_apply] at h
  by_cases htype : type' = type
  · rw [if_pos htype] at h
    exact absurd h (by simp only [reduceCtorEq, not_false_eq_true])
  · rw [if_neg htype] at h
    exact ⟨htype, h⟩

theorem not_has_init (id : CallId) (p : Call → Prop) : ¬ Has World.init.calls id p := by
  rintro ⟨call, hcall, -⟩
  exact absurd hcall (by simp only [World.init, List.getElem?_nil, reduceCtorEq,
    not_false_eq_true])

theorem unexpected_iff (w : World) (type : Bytes) :
    w.unexpected type = true ↔ ∀ id, ¬ Expects w id type := by
  rw [World.unexpected, List.all_eq_true]
  constructor
  · rintro h id ⟨call, hcall, htype, hlive⟩
    have hnot := h call (List.mem_of_getElem? hcall)
    rw [htype, hlive, decide_eq_true (Eq.refl type)] at hnot
    exact absurd hnot (by
      simp only [Bool.and_self, Bool.not_true, Bool.false_eq_true, not_false_eq_true])
  · intro h call hmem
    rcases List.getElem?_of_mem hmem with ⟨id, hcall⟩
    by_cases htype : call.expectedReplyType = type
    · cases hlive : call.progress.live with
      | false => rfl
      | true => exact absurd ⟨call, hcall, htype, hlive⟩ (h id)
    · rw [decide_eq_false htype, Bool.and_false, Bool.not_false]

end Calls

section Turns

variable (replyType : Bytes → Bytes)

/-- What an action does that delivers no message. -/
inductive Turn (w : World) : Action → World → Prop
  | nothing (a : Action) : Turn w a w
  | begun (requestType payloadJson expectedReplyType : Bytes)
      (hpair : replyType requestType = expectedReplyType)
      (hfree : ∀ id, ¬ Expects w id expectedReplyType) :
      Turn w (.call requestType payloadJson expectedReplyType)
        (w.requestReply requestType payloadJson expectedReplyType)
  | sent (id : CallId) (call : Call) (hcall : w.calls[id]? = some call)
      (hprogress : call.progress = .erased) :
      Turn w (.send id true) { w.setProgress id .waiting with
        requests := w.requests ++ [⟨id, call.requestType, call.payloadJson⟩] }
  | gaveUp (a : Action) (id : CallId) : Turn w a (w.setProgress id (.returned none none))
  | took (a : Action) (id : CallId) (type : Bytes) (reply : Reply) (hexp : Expects w id type)
      (hslot : w.pendingReplies type = some reply) : Turn w a (w.takeReply id type reply)
  | answered (request : Request) (rest : List Request) (payload : Bytes)
      (hrequests : w.requests = request :: rest) :
      Turn w (.answer payload) { w with
        requests := rest
        incoming := w.incoming ++ [⟨⟨replyType request.type, payload⟩, some request.id⟩] }
  | pushed (message : Wire.ServerMessage) (h : unsolicited message.type = true) :
      Turn w (.push message) { w with incoming := w.incoming ++ [⟨message, none⟩] }

theorem turn_send (w : World) (id : CallId) (sent : Bool) :
    Turn replyType w (.send id sent) (w.send id sent) := by
  unfold World.send
  split
  · rename_i requestType payloadJson expectedReplyType hcall
    cases sent with
    | true => exact Turn.sent id _ hcall rfl
    | false => exact Turn.gaveUp _ id
  · exact Turn.nothing _

theorem turn_wake (w : World) (id : CallId) : Turn replyType w (.wake id) (w.wake id) := by
  unfold World.wake
  split
  · rename_i requestType payloadJson expectedReplyType hcall
    cases hslot : w.pendingReplies expectedReplyType with
    | none => exact Turn.nothing _
    | some reply => exact Turn.took _ id _ reply ⟨_, hcall, rfl, rfl⟩ hslot
  · exact Turn.nothing _

theorem turn_expire (w : World) (id : CallId) : Turn replyType w (.expire id) (w.expire id) := by
  unfold World.expire
  split
  · rename_i requestType payloadJson expectedReplyType hcall
    cases hslot : w.pendingReplies expectedReplyType with
    | none => exact Turn.gaveUp _ id
    | some reply => exact Turn.took _ id _ reply ⟨_, hcall, rfl, rfl⟩ hslot
  · exact Turn.nothing _

theorem turn_answer (w : World) (payload : Bytes) :
    Turn replyType w (.answer payload) (answer replyType w payload) := by
  rw [answer]
  cases hrequests : w.requests with
  | nil => exact Turn.nothing _
  | cons request rest => exact Turn.answered request rest payload hrequests

theorem turn_act (w : World) (a : Action) (ha : a ≠ .deliver) :
    Turn replyType w a (act replyType w a) := by
  cases a with
  | call requestType payloadJson expectedReplyType =>
      rw [act]
      split
      · rename_i h
        exact Turn.begun requestType payloadJson expectedReplyType h.1
          ((unexpected_iff w expectedReplyType).mp h.2)
      · exact Turn.nothing _
  | send id sent => exact turn_send replyType w id sent
  | wake id => exact turn_wake replyType w id
  | expire id => exact turn_expire replyType w id
  | answer payload => exact turn_answer replyType w payload
  | push message =>
      rw [act]
      split
      · rename_i h
        exact Turn.pushed message h
      · exact Turn.nothing _
  | deliver => exact absurd rfl ha

/-- A message is handed to one of the handlers, or it is kept. -/
theorem onMessage_cases (w : World) (arrival : Arrival) :
    (unsolicited arrival.message.type = true ∧ ∃ events kickReasons,
      w.onMessage arrival = { w with events := events, kickReasons := kickReasons }) ∨
    (unsolicited arrival.message.type = false ∧
      w.onMessage arrival = { w with
        pendingReplies :=
          Function.update w.pendingReplies arrival.message.type (some arrival.reply) }) := by
  unfold World.onMessage
  by_cases hevent : arrival.message.type = ascii "event"
  · rw [if_pos hevent, unsolicited, decide_eq_true hevent]
    cases Wire.eventOf arrival.message with
    | none => exact Or.inl ⟨rfl, _, _, rfl⟩
    | some event => exact Or.inl ⟨rfl, _, _, rfl⟩
  · rw [if_neg hevent, unsolicited, decide_eq_false hevent]
    by_cases hkick : arrival.message.type = ascii "kick"
    · rw [if_pos hkick, decide_eq_true hkick]
      exact Or.inl ⟨rfl, _, _, rfl⟩
    · rw [if_neg hkick, decide_eq_false hkick]
      exact Or.inr ⟨rfl, rfl⟩

/-- What the first message on its way does. -/
theorem deliver_cases (w : World) (arrival : Arrival) (rest : List Arrival)
    (hincoming : w.incoming = arrival :: rest) :
    (unsolicited arrival.message.type = true ∧ ∃ events kickReasons,
      w.deliver = { w with incoming := rest, events := events, kickReasons := kickReasons }) ∨
    (unsolicited arrival.message.type = false ∧
      w.deliver = { w with
        incoming := rest
        pendingReplies :=
          Function.update w.pendingReplies arrival.message.type (some arrival.reply) }) := by
  rw [World.deliver, hincoming]
  exact onMessage_cases { w with incoming := rest } arrival

/-- Delivering a message concerns no call. -/
theorem has_deliver (w : World) (id : CallId) (p : Call → Prop) :
    Has w.deliver.calls id p ↔ Has w.calls id p := by
  cases hincoming : w.incoming with
  | nil => rw [World.deliver, hincoming]
  | cons arrival rest =>
      rcases deliver_cases w arrival rest hincoming with ⟨-, _, _, hdeliver⟩ | ⟨-, hdeliver⟩
      · rw [hdeliver]
      · rw [hdeliver]

/-- A call that has taken a reply had taken it before, or found it in its
    slot. -/
theorem took_turn {w w' : World} {a : Action} (hturn : Turn replyType w a w') (id : CallId)
    (type : Bytes) (reply : Reply) (outPayload : Option ClientObject)
    (h : Took w' id type reply outPayload) :
    Took w id type reply outPayload ∨
      (Expects w id type ∧ w.pendingReplies type = some reply ∧ outPayload = reply.parsed) := by
  cases hturn with
  | nothing a => exact Or.inl h
  | begun requestType payloadJson expectedReplyType hpair hfree =>
      rcases (has_append w.calls _ id _).mp h with hold | ⟨-, -, hprogress⟩
      · exact Or.inl hold
      · exact Progress.noConfusion hprogress
  | sent id' call hcall hprogress =>
      rcases took_setProgress w id' id .waiting type reply outPayload h with hold | ⟨-, -, hnow⟩
      · exact Or.inl hold
      · exact Progress.noConfusion hnow
  | gaveUp a id' =>
      rcases took_setProgress w id' id _ type reply outPayload h with hold | ⟨-, -, hnow⟩
      · exact Or.inl hold
      · exact absurd hnow (by
          simp only [Progress.returned.injEq, reduceCtorEq, false_and, not_false_eq_true])
  | took a id' type' reply' hexp hslot =>
      rcases took_setProgress _ id' id _ type reply outPayload h with hold | ⟨rfl, hasked, hnow⟩
      · exact Or.inl hold
      -- A call expects one type only.
      · rcases hexp with ⟨call, hcall, htype, hlive⟩
        have heq : type' = type := htype.symm.trans (has_of_lookup hcall hasked)
        rw [Progress.returned.injEq, Option.some.injEq] at hnow
        rw [← heq, ← hnow.1, ← hnow.2]
        exact Or.inr ⟨⟨call, hcall, htype, hlive⟩, hslot, rfl⟩
  | answered request rest payload hrequests => exact Or.inl h
  | pushed message hpush => exact Or.inl h

/-- A call was under way before, or it begins with an empty slot. -/
theorem expects_turn {w w' : World} {a : Action} (hturn : Turn replyType w a w') (id : CallId)
    (type : Bytes) (h : Expects w' id type) :
    Expects w id type ∨ (w'.pendingReplies type = none ∧
      ∃ requestType payloadJson, a = .call requestType payloadJson type) := by
  cases hturn with
  | nothing a => exact Or.inl h
  | begun requestType payloadJson expectedReplyType hpair hfree =>
      rcases (has_append w.calls _ id _).mp h with hold | ⟨-, rfl, -⟩
      · exact Or.inl hold
      · exact Or.inr ⟨Function.update_self .., requestType, payloadJson, rfl⟩
  | sent id' call hcall hprogress =>
      refine Or.inl (expects_setProgress w id' id .waiting type (fun _ => ?_) h)
      refine ⟨_, call, hcall, rfl, ?_⟩
      rw [hprogress]
      rfl
  | gaveUp a id' =>
      exact Or.inl (expects_setProgress w id' id _ type (fun hlive => Bool.noConfusion hlive) h)
  | took a id' type' reply hexp hslot =>
      exact Or.inl (expects_setProgress _ id' id _ type (fun hlive => Bool.noConfusion hlive) h)
  | answered request rest payload hrequests => exact Or.inl h
  | pushed message hpush => exact Or.inl h

/-- A slot is not filled in a turn. -/
theorem pendingReplies_turn {w w' : World} {a : Action} (hturn : Turn replyType w a w')
    (type : Bytes) (reply : Reply) (h : w'.pendingReplies type = some reply) :
    w.pendingReplies type = some reply := by
  cases hturn with
  | nothing a => exact h
  | begun requestType payloadJson expectedReplyType hpair hfree =>
      exact (pendingReplies_erase w expectedReplyType type reply h).2
  | sent id call hcall hprogress => exact h
  | gaveUp a id => exact h
  | took a id type' reply' hexp hslot => exact (pendingReplies_erase w type' type reply h).2
  | answered request rest payload hrequests => exact h
  | pushed message hpush => exact h

/-- Calls stay, and so does what they expect. -/
theorem asked_turn {w w' : World} {a : Action} (hturn : Turn replyType w a w') (id : CallId)
    (type : Bytes) (h : Asked w id type) : Asked w' id type := by
  cases hturn with
  | nothing a => exact h
  | begun requestType payloadJson expectedReplyType hpair hfree =>
      exact (has_append w.calls _ id _).mpr (Or.inl h)
  | sent id' call hcall hprogress => exact (asked_setProgress w id' id _ type).mpr h
  | gaveUp a id' => exact (asked_setProgress w id' id _ type).mpr h
  | took a id' type' reply hexp hslot => exact (asked_setProgress _ id' id _ type).mpr h
  | answered request rest payload hrequests => exact h
  | pushed message hpush => exact h

end Turns

section Orderly

variable (replyType : Bytes → Bytes)

/-- A reply was made for a call that expected its type. -/
def Addressed (w : World) (forCall : Option CallId) (type : Bytes) : Prop :=
  ∃ id, forCall = some id ∧ Asked w id type

/-- Requests and replies belong to calls, and no two calls expect the same type
    at a time. -/
structure Orderly (w : World) : Prop where
  paired : ∀ id, ¬ Has w.calls id (fun call =>
    replyType call.requestType ≠ call.expectedReplyType)
  requested : ∀ request ∈ w.requests, Asked w request.id (replyType request.type)
  arriving : ∀ arrival ∈ w.incoming, unsolicited arrival.message.type = false →
    Addressed w arrival.forCall arrival.message.type
  stored : ∀ type reply, w.pendingReplies type = some reply → Addressed w reply.forCall type
  exclusive : ∀ id id' type, Expects w id type → Expects w id' type → id = id'

/-- No reply to one call was consumed by a call of another type. -/
def Routed (w : World) : Prop :=
  ∀ id type reply outPayload, Took w id type reply outPayload → Addressed w reply.forCall type

theorem orderly_init : Orderly replyType World.init where
  paired := fun id => not_has_init id _
  requested := fun _ h => absurd h List.not_mem_nil
  arriving := fun _ h => absurd h List.not_mem_nil
  stored := fun _ _ h => absurd h (by simp only [World.init, reduceCtorEq, not_false_eq_true])
  exclusive := fun id _ _ h => absurd h (not_has_init id _)

theorem routed_init : Routed World.init := by
  intro id type reply outPayload htook
  exact absurd htook (not_has_init id _)

/-- What was addressed stays so while calls are only added and go on. -/
theorem Addressed.imp {w w' : World} {forCall : Option CallId} {type : Bytes}
    (h : Addressed w forCall type) (hasked : ∀ id, Asked w id type → Asked w' id type) :
    Addressed w' forCall type := by
  rcases h with ⟨id, hid, hask⟩
  exact ⟨id, hid, hasked id hask⟩

section Parts

variable {replyType} {w : World} (h : Orderly replyType w)

include h

/-- The request of a call is answered with what it expects. -/
theorem Orderly.pair {id : CallId} {call : Call} (hcall : w.calls[id]? = some call) :
    call.expectedReplyType = replyType call.requestType := by
  by_contra hne
  exact h.paired id ⟨call, hcall, fun heq => hne heq.symm⟩

theorem orderly_erase (type : Bytes) : Orderly replyType (w.erase type) where
  paired := h.paired
  requested := h.requested
  arriving := h.arriving
  stored := fun type' reply hslot =>
    h.stored type' reply (pendingReplies_erase w type type' reply hslot).2
  exclusive := h.exclusive

theorem orderly_setProgress (id : CallId) (progress : Progress)
    (hlive : progress.live = true → ∃ type, Expects w id type) :
    Orderly replyType (w.setProgress id progress) where
  paired := fun id' hnot => h.paired id'
    ((has_setProgress_iff w id id' progress _ (fun _ => Iff.rfl)).mp hnot)
  requested := fun request hmem =>
    (asked_setProgress w id request.id progress _).mpr (h.requested request hmem)
  arriving := fun arrival hmem htype => (h.arriving arrival hmem htype).imp
    (fun id' => (asked_setProgress w id id' progress _).mpr)
  stored := fun type reply hslot => (h.stored type reply hslot).imp
    (fun id' => (asked_setProgress w id id' progress _).mpr)
  exclusive := fun id₁ id₂ type h₁ h₂ => h.exclusive id₁ id₂ type
    (expects_setProgress w id id₁ progress type hlive h₁)
    (expects_setProgress w id id₂ progress type hlive h₂)

theorem orderly_append (call : Call)
    (hpair : replyType call.requestType = call.expectedReplyType)
    (hfree : ∀ id, ¬ Expects w id call.expectedReplyType) :
    Orderly replyType { w with calls := w.calls ++ [call] } where
  paired := fun id hnot => by
    rcases (has_append w.calls call id _).mp hnot with hold | hnew
    · exact h.paired id hold
    · exact hnew.2 hpair
  requested := fun request hmem =>
    (has_append w.calls call request.id _).mpr (Or.inl (h.requested request hmem))
  arriving := fun arrival hmem htype => (h.arriving arrival hmem htype).imp
    (fun id hasked => (has_append w.calls call id _).mpr (Or.inl hasked))
  stored := fun type reply hslot => (h.stored type reply hslot).imp
    (fun id hasked => (has_append w.calls call id _).mpr (Or.inl hasked))
  exclusive := fun id₁ id₂ type h₁ h₂ => by
    -- The new call expects a type that no other one expects.
    rcases (has_append w.calls call id₁ _).mp h₁ with hold₁ | hnew₁
    · rcases (has_append w.calls call id₂ _).mp h₂ with hold₂ | hnew₂
      · exact h.exclusive id₁ id₂ type hold₁ hold₂
      · rw [← hnew₂.2.1] at hold₁
        exact absurd hold₁ (hfree id₁)
    · rcases (has_append w.calls call id₂ _).mp h₂ with hold₂ | hnew₂
      · rw [← hnew₁.2.1] at hold₂
        exact absurd hold₂ (hfree id₂)
      · rw [hnew₁.1, hnew₂.1]

/-- A request that is sent is one of a call. -/
theorem orderly_sent (id : CallId) (call : Call) (hcall : w.calls[id]? = some call) :
    Orderly replyType { w with
      requests := w.requests ++ [⟨id, call.requestType, call.payloadJson⟩] } where
  paired := h.paired
  requested := fun request hmem => by
    rcases List.mem_append.mp hmem with hold | hnew
    · exact h.requested request hold
    · rw [List.mem_singleton.mp hnew]
      exact ⟨call, hcall, h.pair hcall⟩
  arriving := h.arriving
  stored := h.stored
  exclusive := h.exclusive

theorem orderly_answered (request : Request) (rest : List Request) (payload : Bytes)
    (hrequests : w.requests = request :: rest) :
    Orderly replyType { w with
      requests := rest
      incoming := w.incoming ++ [⟨⟨replyType request.type, payload⟩, some request.id⟩] } where
  paired := h.paired
  requested := fun request' hmem => h.requested request' (hrequests ▸ List.mem_cons_of_mem _ hmem)
  arriving := fun arrival hmem htype => by
    rcases List.mem_append.mp hmem with hold | hnew
    · exact h.arriving arrival hold htype
    · rw [List.mem_singleton.mp hnew]
      exact ⟨request.id, rfl, h.requested request (hrequests ▸ List.mem_cons_self)⟩
  stored := h.stored
  exclusive := h.exclusive

theorem orderly_pushed (message : Wire.ServerMessage) (hpush : unsolicited message.type = true) :
    Orderly replyType { w with incoming := w.incoming ++ [⟨message, none⟩] } where
  paired := h.paired
  requested := h.requested
  arriving := fun arrival hmem htype => by
    rcases List.mem_append.mp hmem with hold | hnew
    · exact h.arriving arrival hold htype
    · rw [List.mem_singleton.mp hnew, hpush] at htype
      exact absurd htype (by simp only [Bool.true_eq_false, not_false_eq_true])
  stored := h.stored
  exclusive := h.exclusive

theorem orderly_turn {w' : World} {a : Action} (hturn : Turn replyType w a w') :
    Orderly replyType w' := by
  cases hturn with
  | nothing a => exact h
  | begun requestType payloadJson expectedReplyType hpair hfree =>
      exact orderly_append (orderly_erase h expectedReplyType)
        ⟨requestType, payloadJson, expectedReplyType, .erased⟩ hpair hfree
  | sent id call hcall hprogress =>
      have hlive : call.progress.live = true := by
        rw [hprogress]
        rfl
      have hsent := orderly_sent h id call hcall
      exact orderly_setProgress hsent id .waiting (fun _ => ⟨_, call, hcall, rfl, hlive⟩)
  | gaveUp a id => exact orderly_setProgress h id _ (fun hlive => Bool.noConfusion hlive)
  | took a id type reply hexp hslot =>
      exact orderly_setProgress (orderly_erase h type) id _ (fun hlive => Bool.noConfusion hlive)
  | answered request rest payload hrequests =>
      exact orderly_answered h request rest payload hrequests
  | pushed message hpush => exact orderly_pushed h message hpush

theorem orderly_deliver : Orderly replyType w.deliver := by
  cases hincoming : w.incoming with
  | nil =>
      rw [World.deliver, hincoming]
      exact h
  | cons arrival rest =>
      have hrest : ∀ arrival' ∈ rest, unsolicited arrival'.message.type = false →
          Addressed w arrival'.forCall arrival'.message.type := fun arrival' hmem =>
        h.arriving arrival' (hincoming ▸ List.mem_cons_of_mem _ hmem)
      rcases deliver_cases w arrival rest hincoming with
        ⟨-, events, kickReasons, hdeliver⟩ | ⟨htype, hdeliver⟩
      · rw [hdeliver]
        exact ⟨h.paired, h.requested, hrest, h.stored, h.exclusive⟩
      · rw [hdeliver]
        refine ⟨h.paired, h.requested, hrest, fun type reply hslot => ?_, h.exclusive⟩
        simp only [Function.update_apply] at hslot
        by_cases heq : type = arrival.message.type
        · rw [if_pos heq] at hslot
          rw [← Option.some.inj hslot, heq]
          exact h.arriving arrival (hincoming ▸ List.mem_cons_self) htype
        · rw [if_neg heq] at hslot
          exact h.stored type reply hslot

theorem routed_turn {w' : World} {a : Action} (hturn : Turn replyType w a w') (hrouted : Routed w) :
    Routed w' := by
  intro id type reply outPayload htook
  have haddressed : Addressed w reply.forCall type := by
    rcases took_turn replyType hturn id type reply outPayload htook with hold | ⟨-, hslot, -⟩
    · exact hrouted id type reply outPayload hold
    · exact h.stored type reply hslot
  exact haddressed.imp (fun id' => asked_turn replyType hturn id' type)

end Parts

theorem orderly_act (w : World) (a : Action) (h : Orderly replyType w) :
    Orderly replyType (act replyType w a) := by
  by_cases ha : a = .deliver
  · rw [ha]
    exact orderly_deliver h
  · exact orderly_turn h (turn_act replyType w a ha)

theorem routed_deliver (w : World) (hrouted : Routed w) : Routed w.deliver := by
  intro id type reply outPayload htook
  have haddressed := hrouted id type reply outPayload ((has_deliver w id _).mp htook)
  exact haddressed.imp (fun id' => (has_deliver w id' _).mpr)

theorem routed_act (w : World) (a : Action) (h : Orderly replyType w) (hrouted : Routed w) :
    Routed (act replyType w a) := by
  by_cases ha : a = .deliver
  · rw [ha]
    exact routed_deliver w hrouted
  · exact routed_turn h (turn_act replyType w a ha) hrouted

end Orderly

end RequestReply

end MzzPlork

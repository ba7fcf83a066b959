import MzzPlork.Base.Run
import MzzPlork.Theory.Slots

/-!
# Whose Reply a Call Takes

A call takes a reply to a call that expected the same type. It need not be the
reply to the call that takes it.

The slot is emptied before the request is sent, so a reply that was there
already does no harm. A reply whose call has been given up may still be on its
way then, and arrive while another call waits for the same type. That one takes
it. Nothing else can go wrong, so every call gets its own reply, whatever the
order of things, exactly as long as no such reply comes in.

## Main definitions

* `Own`: Replies are taken by the calls they were made for.
* `Settled`: Its own reply is also what a call gets that now goes on.
* `Prompt`: The step brings no reply too late.
* `Unhurried`: No call begins while it might be brought one.

## Theorems

* `settled_act_iff`: Which actions leave every call its own reply.
* `routed_and_own`: Which runs do.
* `prompt_of_unhurried`: Runs that do.
* `lateHeartbeat`: A heartbeat that is answered with the reply to another.
-/

namespace MzzPlork

namespace RequestReply

section Own

variable (replyType : Bytes → Bytes)

/-- A call that has returned true has returned the reply made for it. -/
def Own (w : World) : Prop :=
  ∀ id type reply fields, Took w id type reply (some fields) → reply.forCall = some id

/-- So it will be with the calls that are looking at a slot that is filled. -/
def Clean (w : World) : Prop :=
  ∀ id type reply fields, Expects w id type → w.pendingReplies type = some reply →
    reply.parsed = some fields → reply.forCall = some id

/-- The call that the reply was made for has returned. -/
def Overdue (w : World) (arrival : Arrival) : Prop :=
  unsolicited arrival.message.type = false ∧
    ∃ id, arrival.forCall = some id ∧ ¬ Expects w id arrival.message.type

/-- No reply comes in whose call has returned while another call is under way
    that expects the type, unless the reply is no object. -/
def Prompt (w : World) (a : Action) : Prop :=
  a = .deliver → ∀ arrival rest, w.incoming = arrival :: rest → Overdue w arrival →
    ∀ id, Expects w id arrival.message.type → arrival.reply.parsed = none

theorem own_turn {w w' : World} {a : Action} (hturn : Turn replyType w a w') (hown : Own w)
    (hclean : Clean w) : Own w' := by
  intro id type reply fields htook
  rcases took_turn replyType hturn id type reply _ htook with hold | ⟨hexp, hslot, hparsed⟩
  · exact hown id type reply fields hold
  · exact hclean id type reply fields hexp hslot hparsed.symm

theorem clean_turn {w w' : World} {a : Action} (hturn : Turn replyType w a w')
    (hclean : Clean w) : Clean w' := by
  intro id type reply fields hexp hslot
  rcases expects_turn replyType hturn id type hexp with hold | ⟨hnone, -⟩
  · exact hclean id type reply fields hold (pendingReplies_turn replyType hturn type reply hslot)
  · rw [hnone] at hslot
    exact absurd hslot (by simp only [reduceCtorEq, not_false_eq_true])

/-- A message leaves the slots clean exactly when it is prompt. -/
theorem clean_deliver_iff (w : World) (h : Orderly replyType w) (hclean : Clean w) :
    Clean w.deliver ↔ Prompt w .deliver := by
  cases hincoming : w.incoming with
  | nil =>
      rw [World.deliver, hincoming]
      refine iff_of_true hclean (fun _ arrival rest hcons => ?_)
      rw [hincoming] at hcons
      exact absurd hcons (List.cons_ne_nil arrival rest).symm
  | cons arrival rest =>
      rcases deliver_cases w arrival rest hincoming with
        ⟨htype, events, kickReasons, hdeliver⟩ | ⟨htype, hdeliver⟩
      -- An event or a kick is not kept.
      · rw [hdeliver]
        refine iff_of_true hclean (fun _ arrival' rest' hcons hover => ?_)
        rw [hincoming, List.cons.injEq] at hcons
        rw [hcons.1, hover.1] at htype
        exact Bool.noConfusion htype
      · rw [hdeliver]
        constructor
        · intro hclean' _ arrival' rest' hcons hover id hexp
          rw [hincoming, List.cons.injEq] at hcons
          rw [← hcons.1] at hover hexp ⊢
          -- Clean slots would make the call that waits the one that has returned.
          rcases hover with ⟨-, id', hfor, hreturned⟩
          cases hparsed : arrival.reply.parsed with
          | none => rfl
          | some fields =>
              have hslot := hclean' id arrival.message.type arrival.reply fields hexp
                (Function.update_self ..) hparsed
              rw [← Option.some.inj (hslot.symm.trans hfor)] at hreturned
              exact absurd hexp hreturned
        · intro hprompt id type reply fields hexp hslot hparsed
          simp only [Function.update_apply] at hslot
          by_cases heq : type = arrival.message.type
          · rw [if_pos heq] at hslot
            rw [← Option.some.inj hslot] at hparsed ⊢
            rw [heq] at hexp
            rcases h.arriving arrival (hincoming ▸ List.mem_cons_self) htype with ⟨id', hfor, -⟩
            -- Either its own call waits for it, and no other one does, or it is overdue.
            by_cases hexp' : Expects w id' arrival.message.type
            · rw [← h.exclusive id' id arrival.message.type hexp' hexp]
              exact hfor
            · have hnone := hprompt rfl arrival rest hincoming ⟨htype, id', hfor, hexp'⟩ id hexp
              exact absurd (hparsed.symm.trans hnone) (by
                simp only [reduceCtorEq, not_false_eq_true])
          · rw [if_neg heq] at hslot
            exact hclean id type reply fields hexp hslot hparsed

/-- A call that goes on, as one does where nothing goes wrong. -/
def goesOn : Action → Bool
  | .send _ sent => sent
  | .wake _ => true
  | _ => false

/-- However the calls now go on, every one gets its own reply. -/
def Settled (w : World) : Prop :=
  ∀ as : List Action, as.all goesOn = true → Own (as.foldl (act replyType) w)

theorem ne_deliver_of_goesOn (a : Action) (h : goesOn a = true) : a ≠ .deliver := by
  intro ha
  rw [ha] at h
  exact Bool.noConfusion h

theorem settled_of_clean (w : World) (hown : Own w) (hclean : Clean w) : Settled replyType w := by
  intro as
  induction as generalizing w with
  | nil => exact fun _ => hown
  | cons a as ih =>
      intro hall
      rw [List.all_cons, Bool.and_eq_true] at hall
      have hturn := turn_act replyType w a (ne_deliver_of_goesOn a hall.1)
      exact ih _ (own_turn replyType hturn hown hclean) (clean_turn replyType hturn hclean) hall.2

/-- A call that finds a reply in its slot takes it. -/
theorem took_wake (w : World) (id : CallId) (call : Call) (reply : Reply)
    (hcall : w.calls[id]? = some call) (hprogress : call.progress = .waiting)
    (hslot : w.pendingReplies call.expectedReplyType = some reply) :
    Took (w.wake id) id call.expectedReplyType reply reply.parsed := by
  obtain ⟨requestType, payloadJson, expectedReplyType, progress⟩ := call
  change progress = .waiting at hprogress
  change w.pendingReplies expectedReplyType = some reply at hslot
  subst hprogress
  have hwake : w.wake id = w.takeReply id expectedReplyType reply := by
    simp only [World.wake, hcall, hslot]
  rw [hwake, Took, World.takeReply, has_setProgress]
  exact ⟨_, hcall, by simp only [if_pos, and_self]⟩

/-- A call that has not sent its request yet can do so, and is found waiting. -/
theorem send_of_erased (w : World) (id : CallId) (call : Call) (hcall : w.calls[id]? = some call)
    (hprogress : call.progress = .erased) :
    (w.send id true).calls[id]? = some { call with progress := .waiting } ∧
      (w.send id true).pendingReplies = w.pendingReplies := by
  obtain ⟨requestType, payloadJson, expectedReplyType, progress⟩ := call
  change progress = .erased at hprogress
  subst hprogress
  have hsend : w.send id true = { w.setProgress id .waiting with
      requests := w.requests ++ [⟨id, requestType, payloadJson⟩] } := by
    simp only [World.send, hcall, if_true]
  rw [hsend]
  refine ⟨?_, rfl⟩
  change (w.calls.modify id _)[id]? = _
  rw [List.getElem?_modify_eq, hcall]
  rfl

theorem clean_of_settled (w : World) (h : Settled replyType w) : Clean w := by
  rintro id type reply fields ⟨call, hcall, rfl, hlive⟩ hslot hparsed
  cases hprogress : call.progress with
  -- It sends its request, and the reply is there already.
  | erased =>
      have hown := h [.send id true, .wake id] rfl
      rcases send_of_erased w id call hcall hprogress with ⟨hcall', hpending⟩
      rw [← hpending] at hslot
      have htook := took_wake (w.send id true) id _ reply hcall' rfl hslot
      rw [hparsed] at htook
      exact hown id call.expectedReplyType reply fields htook
  | waiting =>
      have hown := h [.wake id] rfl
      have htook := took_wake w id call reply hcall hprogress hslot
      rw [hparsed] at htook
      exact hown id call.expectedReplyType reply fields htook
  -- A call that has returned looks at no slot.
  | returned taken outPayload =>
      rw [hprogress] at hlive
      exact Bool.noConfusion hlive

theorem settled_iff (w : World) : Settled replyType w ↔ Own w ∧ Clean w := by
  constructor
  · exact fun h => ⟨h [] rfl, clean_of_settled replyType w h⟩
  · exact fun h => settled_of_clean replyType w h.1 h.2

theorem settled_act_iff (w : World) (a : Action) (h : Orderly replyType w)
    (hsettled : Settled replyType w) : Settled replyType (act replyType w a) ↔ Prompt w a := by
  rcases (settled_iff replyType w).mp hsettled with ⟨hown, hclean⟩
  rw [settled_iff]
  by_cases ha : a = .deliver
  · rw [ha]
    have hown' : Own w.deliver := by
      intro id type reply fields htook
      exact hown id type reply fields ((has_deliver w id _).mp htook)
    change Own w.deliver ∧ Clean w.deliver ↔ _
    rw [clean_deliver_iff replyType w h hclean]
    exact and_iff_right hown'
  · have hturn := turn_act replyType w a ha
    exact iff_of_true ⟨own_turn replyType hturn hown hclean, clean_turn replyType hturn hclean⟩
      (fun hdeliver => absurd hdeliver ha)

theorem own_init : Own World.init := by
  intro id type reply fields htook
  exact absurd htook (not_has_init id _)

theorem clean_init : Clean World.init := by
  intro id type reply fields hexp
  exact absurd hexp (not_has_init id _)

/-- The calls get their own replies, whatever happens next to them, exactly
    along the runs whose steps are all prompt. -/
theorem always_settled_iff (as : List Action) :
    Run.Always (act replyType) (Settled replyType) World.init as ↔
      Run.EachStep (act replyType) Prompt World.init as :=
  Run.always_iff_eachStep (act replyType) (Orderly replyType) (orderly_act replyType)
    (Settled replyType) Prompt (settled_act_iff replyType) as World.init
    (orderly_init replyType) (settled_of_clean replyType World.init own_init clean_init)

/-- In every run, calls only take replies to calls that expected the same type.
    Every call that returns true returns its own reply, if the steps of the run
    are prompt. If one of them is not, a call can go on to return the reply to
    another one. -/
theorem routed_and_own (as : List Action) :
    Run.Always (act replyType) Routed World.init as ∧
    (Run.EachStep (act replyType) Prompt World.init as →
      Run.Always (act replyType) Own World.init as) ∧
    (¬ Run.EachStep (act replyType) Prompt World.init as →
      ∃ pre rest, pre <+: as ∧ rest.all goesOn = true ∧
        ¬ Own ((pre ++ rest).foldl (act replyType) World.init)) := by
  refine ⟨fun pre _ => ?_, fun hprompt pre hpre => ?_, fun hnot => ?_⟩
  · have hboth : ∀ w a, (Orderly replyType w ∧ Routed w) →
        (Orderly replyType (act replyType w a) ∧ Routed (act replyType w a)) :=
      fun w a h => ⟨orderly_act replyType w a h.1, routed_act replyType w a h.1 h.2⟩
    exact (Run.foldl_inv (act replyType) _ hboth pre World.init
      ⟨orderly_init replyType, routed_init⟩).2
  · have hsettled := (always_settled_iff replyType as).mpr hprompt pre hpre
    exact ((settled_iff replyType _).mp hsettled).1
  -- Some prefix of the run is not settled, so its calls can go on to a wrong reply.
  · rw [← always_settled_iff, Run.Always] at hnot
    simp only [Settled, not_forall] at hnot
    rcases hnot with ⟨pre, hpre, rest, hrest, hown⟩
    refine ⟨pre, rest, hpre, hrest, ?_⟩
    rw [List.foldl_append]
    exact hown

end Own

section Unhurried

variable (replyType : Bytes → Bytes)

/-- A reply of the type has been asked for and has not come in. -/
def Outstanding (w : World) (type : Bytes) : Prop :=
  (∃ request ∈ w.requests, replyType request.type = type) ∨
    ∃ arrival ∈ w.incoming, unsolicited arrival.message.type = false ∧ arrival.message.type = type

/-- No call begins while a reply that it could take for its own is
    outstanding. -/
def Unhurried (w : World) (a : Action) : Prop :=
  ∀ requestType payloadJson expectedReplyType,
    a = .call requestType payloadJson expectedReplyType →
      ¬ Outstanding replyType w expectedReplyType

/-- What is outstanding belongs to the call under way. -/
structure Fresh (w : World) : Prop where
  requests : ∀ request ∈ w.requests, ∀ id, Expects w id (replyType request.type) →
    request.id = id
  incoming : ∀ arrival ∈ w.incoming, unsolicited arrival.message.type = false →
    ∀ id, Expects w id arrival.message.type → arrival.forCall = some id

theorem fresh_init : Fresh replyType World.init where
  requests := fun _ h => absurd h List.not_mem_nil
  incoming := fun _ h => absurd h List.not_mem_nil

variable {replyType} {w w' : World}

/-- Where a call begins, nothing of its type is outstanding. -/
theorem Fresh.of_same (h : Fresh replyType w)
    (hold : ∀ id type, Expects w' id type → Expects w id type ∨ ¬ Outstanding replyType w type)
    (hrequests : w'.requests = w.requests) (hincoming : w'.incoming = w.incoming) :
    Fresh replyType w' where
  requests := fun request hmem id hexp => by
    rw [hrequests] at hmem
    rcases hold id _ hexp with hexp' | hnot
    · exact h.requests request hmem id hexp'
    · exact absurd (Or.inl ⟨request, hmem, rfl⟩) hnot
  incoming := fun arrival hmem htype id hexp => by
    rw [hincoming] at hmem
    rcases hold id _ hexp with hexp' | hnot
    · exact h.incoming arrival hmem htype id hexp'
    · exact absurd (Or.inr ⟨arrival, hmem, htype, rfl⟩) hnot

theorem fresh_turn {a : Action} (horderly : Orderly replyType w) (hturn : Turn replyType w a w')
    (ha : Unhurried replyType w a) (h : Fresh replyType w) : Fresh replyType w' := by
  have hold : ∀ id type, Expects w' id type →
      Expects w id type ∨ ¬ Outstanding replyType w type := by
    intro id type hexp
    rcases expects_turn replyType hturn id type hexp with hexp' | ⟨-, requestType, payload, hcall⟩
    · exact Or.inl hexp'
    · exact Or.inr (ha requestType payload type hcall)
  cases hturn with
  | nothing a => exact h
  | begun requestType payloadJson expectedReplyType hpair hfree => exact h.of_same hold rfl rfl
  | sent id call hcall hprogress =>
      have hkept : Fresh replyType (w.setProgress id .waiting) := h.of_same hold rfl rfl
      have hcalling : Expects w id (replyType call.requestType) := by
        refine ⟨call, hcall, horderly.pair hcall, ?_⟩
        rw [hprogress]
        rfl
      refine ⟨fun request hmem id' hexp => ?_, hkept.incoming⟩
      rcases List.mem_append.mp hmem with hmem' | hnew
      · exact hkept.requests request hmem' id' hexp
      -- The call that has sent is the one that expects the reply.
      · rw [List.mem_singleton.mp hnew] at hexp ⊢
        exact horderly.exclusive id id' _ hcalling
          (expects_setProgress w id id' .waiting _ (fun _ => ⟨_, hcalling⟩) hexp)
  | gaveUp a id => exact h.of_same hold rfl rfl
  | took a id type reply hexp hslot => exact h.of_same hold rfl rfl
  | answered request rest payload hrequests =>
      refine ⟨fun request' hmem => h.requests request' (hrequests ▸ List.mem_cons_of_mem _ hmem),
        fun arrival hmem htype id hexp => ?_⟩
      rcases List.mem_append.mp hmem with hmem' | hnew
      · exact h.incoming arrival hmem' htype id hexp
      · rw [List.mem_singleton.mp hnew] at hexp ⊢
        have hid := h.requests request (hrequests ▸ List.mem_cons_self) id hexp
        rw [← hid]
  | pushed message hpush =>
      refine ⟨h.requests, fun arrival hmem htype id hexp => ?_⟩
      rcases List.mem_append.mp hmem with hmem' | hnew
      · exact h.incoming arrival hmem' htype id hexp
      · rw [List.mem_singleton.mp hnew, hpush] at htype
        exact absurd htype (by simp only [Bool.true_eq_false, not_false_eq_true])

theorem fresh_deliver (h : Fresh replyType w) : Fresh replyType w.deliver := by
  cases hincoming : w.incoming with
  | nil =>
      rw [World.deliver, hincoming]
      exact h
  | cons arrival rest =>
      have hrest : ∀ arrival' ∈ rest, unsolicited arrival'.message.type = false →
          ∀ id, Expects w id arrival'.message.type → arrival'.forCall = some id :=
        fun arrival' hmem => h.incoming arrival' (hincoming ▸ List.mem_cons_of_mem _ hmem)
      rcases deliver_cases w arrival rest hincoming with ⟨-, _, _, hdeliver⟩ | ⟨-, hdeliver⟩
      · rw [hdeliver]
        exact ⟨h.requests, hrest⟩
      · rw [hdeliver]
        exact ⟨h.requests, hrest⟩

theorem prompt_of_fresh (h : Fresh replyType w) (a : Action) : Prompt w a := by
  rintro - arrival rest hincoming ⟨htype, id', hfor, hreturned⟩ id hexp
  have hown := h.incoming arrival (hincoming ▸ List.mem_cons_self) htype id hexp
  rw [← Option.some.inj (hown.symm.trans hfor)] at hreturned
  exact absurd hexp hreturned

variable (replyType)

/-- If nobody calls again while the reply to a call given up may still come,
    the steps of the run are prompt. -/
theorem prompt_of_unhurried (as : List Action)
    (h : Run.EachStep (act replyType) (Unhurried replyType) World.init as) :
    Run.EachStep (act replyType) Prompt World.init as := by
  have hstep : ∀ w a, (Orderly replyType w ∧ Fresh replyType w) → Unhurried replyType w a →
      (Orderly replyType (act replyType w a) ∧ Fresh replyType (act replyType w a)) := by
    intro w a hw ha
    refine ⟨orderly_act replyType w a hw.1, ?_⟩
    by_cases hdeliver : a = .deliver
    · rw [hdeliver]
      exact fresh_deliver hw.2
    · exact fresh_turn hw.1 (turn_act replyType w a hdeliver) ha hw.2
  intro pre a hpre
  have hbefore : Run.EachStep (act replyType) (Unhurried replyType) World.init pre :=
    fun pre' a' hpre' => h pre' a' (hpre'.trans ((List.prefix_append pre [a]).trans hpre))
  exact prompt_of_fresh (Run.foldl_inv_of_eachStep (act replyType) _ _ hstep pre World.init
    ⟨orderly_init replyType, fresh_init replyType⟩ hbefore).2 a

end Unhurried

section Protocol

/-- The server answers every request of the client with what the call expects,
    so that is nothing that could keep a call from beginning. -/
theorem paired_calls (clientProtocolVersion clientId displayName : Bytes)
    (loadedCount failedCount : Int) :
    ∀ a ∈ [sendHello clientProtocolVersion, sendAuth clientId displayName, sendHeartbeat,
      requestResourceManifest, sendResourcesReady loadedCount failedCount],
      a.paired serverReplyType = true := by
  intro a ha
  simp only [List.mem_cons, List.not_mem_nil, or_false] at ha
  rcases ha with rfl | rfl | rfl | rfl | rfl
  · rfl
  · rfl
  · rfl
  · rfl
  · rfl

/-- The answer to the first request. -/
def lateReply : Reply := ⟨ascii "\x7b\"serverTimeMs\":1\x7d", some 0⟩

/-- A heartbeat is not answered in time, and the next one is under way when the
    answer comes. -/
def lateRun : List Action :=
  [sendHeartbeat, .send 0 true, .expire 0, sendHeartbeat, .send 1 true,
    .answer lateReply.payload, .deliver, .wake 1]

/-- It is taken for the answer to the second. -/
theorem lateHeartbeat : ¬ Run.Always (act serverReplyType) Own World.init lateRun := by
  intro h
  have hown := h lateRun (List.prefix_refl lateRun)
  have htook : Took (lateRun.foldl (act serverReplyType) World.init) 1 (ascii "heartbeat_ack")
      lateReply lateReply.parsed := ⟨_, rfl, rfl, rfl⟩
  have hok : lateReply.parsed.isSome = true := rfl
  rcases Option.isSome_iff_exists.mp hok with ⟨fields, hfields⟩
  rw [hfields] at htook
  exact absurd (hown 1 _ lateReply fields htook) (by decide)

end Protocol

end RequestReply

end MzzPlork

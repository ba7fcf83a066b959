import MzzPlork.Theory.Directory

/-!
# Nobody Hears of Itself

Whom the events are about that a session is sent.

What changes a session's directory is always about a player id that was issued
to another session (`foreign_run`). Where ids are not shared this means that a
session is never told anything of its own id, which is what its client takes
for granted: it keeps its own player among the others, and takes a
`player_left` at its word.

Ids are strings with something in them, if those are that the clients send and
the random ones (`texts_run`).

## Main definitions

* `ServerMessage.subject`: The player whose entry a message changes.
* `Foreign`: What everybody hears is about ids issued to others.
* `Event.Named`: An `auth` whose player id will be a text.
* `Texts`: The ids that were issued are texts.

## Theorems

* `foreign_run`, `texts_run`: Both hold along a run.
* `subject_ne`: Nobody is told of its own id.
-/

namespace MzzPlork

namespace Server

/-- The player whose entry a message changes. -/
def ServerMessage.subject (m : ServerMessage) : Option PlayerId := m.update.map (·.key)

/-- An `auth` whose player id will be a text, and not an empty one: the client id
    that is taken over, or else the random one. -/
def Event.Named (e : Event) : Prop :=
  match e with
  | .message _ .auth payload ambient => ∀ fmt p,
    choosePlayerId fmt ((JsValue.orElse payload (.obj [])).field (js "clientId"))
      ambient.playerUuid = some p → ∃ q, p = .str q ∧ q ≠ []
  | _ => True

namespace TcpServer

/-- An id that was issued to somebody else. -/
def Else (srv : TcpServer) (s : SessionId) (p : PlayerId) : Prop :=
  ∃ t, t ≠ s ∧ ∃ r, .authResult r ∈ srv.received t ∧ r.playerId = p

/-- What everybody hears is about ids issued to others. -/
def Foreign (srv : TcpServer) : Prop :=
  ∀ s m p, m ∈ srv.received s → m.subject = some p → srv.Else s p

/-- The ids that were issued are texts, and not empty. -/
def Texts (srv : TcpServer) : Prop :=
  ∀ t r, .authResult r ∈ srv.received t → ∃ q, r.playerId = .str q ∧ q ≠ []

section Kept

variable {srv srv' : TcpServer}

theorem Else.mono (hsent : ∀ s m, m ∈ srv.received s → m ∈ srv'.received s) {s : SessionId}
    {p : PlayerId} (h : srv.Else s p) : srv'.Else s p := by
  rcases h with ⟨t, hts, r, hr, hrp⟩
  exact ⟨t, hts, r, hsent t _ hr, hrp⟩

theorem Issued.else (h : srv.Issued) {s t : SessionId} (ht : srv.authenticated t = true)
    (hts : t ≠ s) : srv.Else s (srv.playerId t) := by
  rcases h t ht with ⟨r, hr, hrp⟩
  exact ⟨t, hts, r, hr, hrp⟩

/-- Sending what is about others. -/
theorem Foreign.emit (h : srv.Foreign) (calls : List (SessionId × ServerMessage))
    (hcalls : ∀ call ∈ calls, ∀ p, call.2.subject = some p → srv.Else call.1 p) :
    (srv.emit calls).Foreign := by
  intro s m p hm hp
  refine Else.mono (fun t m' hm' => srv.sent_emit calls hm') ?_
  rcases List.mem_append.mp ((mem_received _).mp hm) with hold | hnew
  · exact h s m p ((mem_received srv).mpr hold) hp
  · exact hcalls _ hnew p hp

theorem subject_of_update {m : ServerMessage} (h : m.update = none) (p : PlayerId) :
    m.subject ≠ some p := by
  unfold ServerMessage.subject
  rw [h, Option.map_none]
  exact (Option.some_ne_none p).symm

theorem foreign_act (hact : Act srv srv') (h : srv.Foreign) (hi : srv.Issued) :
    srv'.Foreign := by
  have hf := act_frame hact
  rcases hf.log with ⟨calls, hlog, hcalls⟩
  intro s m p hm hp
  refine Else.mono (fun t m' hm' => hf.sent hm') ?_
  rw [mem_received, hlog] at hm
  rcases List.mem_append.mp hm with hold | hnew
  · exact h s m p ((mem_received srv).mpr hold) hp
  · cases hcalls _ hnew with
    | greeting s m hm => exact absurd hp (subject_of_update (update_of_isGreeting hm) p)
    | service s m hm hs => exact absurd hp (subject_of_update (update_of_isService hm) p)
    | left s u hs hu hne =>
        rw [← Option.some.inj hp]
        exact hi.else hu.2 (Ne.symm hne)

/-- A backfill introduces the others. -/
theorem subject_introduction (srv : TcpServer) (u t : SessionId)
    (call : SessionId × ServerMessage) (hcall : call ∈ srv.introduction u t) (p : PlayerId)
    (hp : call.2.subject = some p) : call.1 = u ∧ p = srv.playerId t := by
  unfold introduction at hcall
  cases ho : srv.objs t with
  | none =>
      rw [ho] at hcall
      exact absurd hcall List.not_mem_nil
  | some o =>
      rw [ho] at hcall
      rw [srv.playerId_eq t o ho]
      rcases List.mem_cons.mp hcall with rfl | hcall
      · exact ⟨rfl, (Option.some.inj hp).symm⟩
      · cases hst : o.lastPlayerState with
        | none =>
            rw [hst] at hcall
            exact absurd hcall List.not_mem_nil
        | some st =>
            rw [hst] at hcall
            rw [List.mem_singleton.mp hcall] at hp ⊢
            exact ⟨rfl, (Option.some.inj hp).symm⟩

theorem foreign_welcome (u : SessionId) (clientId : JsValue) (result : AuthResult)
    (hok : result.ok = true) (h : srv.Foreign) (hi : srv.Issued) :
    (srv.welcome u clientId result).Foreign := by
  have hresult : (srv.admitted u clientId result).Foreign :=
    h.emit [(u, .authResult result)] (fun call hcall p hp => by
      rw [List.mem_singleton.mp hcall] at hp
      exact absurd hp (Option.some_ne_none p).symm)
  rw [srv.welcome_eq u clientId result hok]
  refine (hresult.emit _ (fun call hcall p hp => ?_)).emit _ (fun call hcall p hp => ?_)
  · rcases List.mem_flatMap.mp hcall with ⟨t, ht, hcall⟩
    rcases List.mem_filter.mp ht with ⟨_, hcond⟩
    rw [Bool.and_eq_true, decide_eq_true_eq] at hcond
    rcases subject_introduction _ u t call hcall p hp with ⟨hto, rfl⟩
    rw [hto, srv.playerId_admitted u clientId result t hcond.1]
    exact Else.mono (fun _ _ hm => srv.sent_emit [(u, .authResult result)] hm) (hi.else
      ((srv.authenticated_admitted u clientId result t hcond.1).symm.trans hcond.2) hcond.1)
  · rcases recipients_broadcastExcept _ u _ call hcall with ⟨_, hne, heq⟩
    rw [heq] at hp
    rw [← Option.some.inj hp]
    exact ⟨u, Ne.symm hne, result, sent_emit _ _ (srv.mem_received_admitted u clientId result),
      rfl⟩

theorem foreign_report (u : SessionId) (st : PlayerState) (hu : srv.authenticated u = true)
    (h : srv.Foreign) (hi : srv.Issued) :
    ((srv.modify u (fun o => { o with lastPlayerState := some st })).broadcastExcept u
      (.playerState (srv.playerId u) st)).Foreign := by
  have hset : (srv.modify u (fun o => { o with lastPlayerState := some st })).Foreign := h
  refine hset.emit _ (fun call hcall p hp => ?_)
  rcases recipients_broadcastExcept _ u _ call hcall with ⟨_, hne, heq⟩
  rw [heq] at hp
  rw [← Option.some.inj hp]
  exact hi.else hu (Ne.symm hne)

theorem foreign_announce (u : SessionId) (p name : JsValue) (h : srv.Foreign) :
    (((srv.modify u (fun o => { o with resourcesReady := true })).send u
      .resourcesReadyAck).broadcast (.playerReady p name)).Foreign := by
  have hset : (srv.modify u (fun o => { o with resourcesReady := true })).Foreign := h
  have hack := hset.emit [(u, .resourcesReadyAck)] (fun call hcall q hq => by
    rw [List.mem_singleton.mp hcall] at hq
    exact absurd hq (Option.some_ne_none q).symm)
  refine hack.emit _ (fun call hcall q hq => ?_)
  rw [(recipients_broadcast _ _ call hcall).2] at hq
  exact absurd hq (Option.some_ne_none q).symm

end Kept

end TcpServer

/-- What everybody hears is about ids issued to others, in every run. -/
theorem foreign_run (host : Host) (es : List Event) :
    (es.foldl (step host) TcpServer.init).Foreign := by
  refine (Run.foldl_inv (step host) (fun srv => srv.Foreign ∧ srv.Opening)
    (fun srv e hI => ⟨?_, opening_step host srv e hI.2⟩) es TcpServer.init
    ⟨fun _ _ _ hm => absurd hm List.not_mem_nil, fun _ => Log.justified_nil Opened,
      issued_init⟩).1
  rcases step_acts host srv e with hacts | ⟨u, payload, ambient, o, result, rfl, ho, _, hres, heq⟩ |
    ⟨u, payload, ambient, rfl, hu, heq⟩ | ⟨u, payload, ambient, rfl, hu, heq⟩
  · exact (inv_acts (fun srv => srv.Foreign ∧ srv.Issued) (fun a b hact h =>
      ⟨TcpServer.foreign_act hact h.1 h.2, (TcpServer.act_frame hact).issued h.2⟩) hacts
      ⟨hI.1, hI.2.issued⟩).1
  · rw [heq]
    exact TcpServer.foreign_welcome u _ result (ok_of_authenticate host.fmt _ _ _ _ result hres)
      hI.1 hI.2.issued
  · rw [heq]
    exact TcpServer.foreign_report u _ hu hI.1 hI.2.issued
  · rw [heq]
    exact TcpServer.foreign_announce u _ _ hI.1

/-- The player id of a result is the one that was chosen. -/
theorem chosen_of_authenticate (fmt : NumberFormat) (clientId displayName : Option JsValue)
    (playerUuid sessionUuid : JsString) (result : AuthResult)
    (h : authenticate fmt clientId displayName playerUuid sessionUuid = some result) :
    choosePlayerId fmt clientId playerUuid = some result.playerId := by
  unfold authenticate at h
  rcases Option.bind_eq_some_iff.mp h with ⟨playerId, hchoose, h⟩
  rcases Option.bind_eq_some_iff.mp h with ⟨name, _, h⟩
  rw [← Option.some.inj h]
  exact hchoose

theorem texts_step (host : Host) (srv : TcpServer) (e : Event) (h : srv.Texts) (hn : e.Named) :
    (step host srv e).Texts := by
  -- Only an admission sends a result.
  have hmore : ∀ srv' : TcpServer, (∀ t r, (t, ServerMessage.authResult r) ∈ srv'.log →
      (t, .authResult r) ∈ srv.log) → srv'.Texts :=
    fun srv' hlog t r hr => h t r ((TcpServer.mem_received srv).mpr (hlog t r
      ((TcpServer.mem_received srv').mp hr)))
  rcases step_acts host srv e with hacts | ⟨u, payload, ambient, o, result, rfl, ho, _, hres, heq⟩ |
    ⟨u, payload, ambient, rfl, hu, heq⟩ | ⟨u, payload, ambient, rfl, hu, heq⟩
  · refine hmore _ (fun t r hr => ?_)
    rcases (TcpServer.acts_frame hacts).log with ⟨calls, hlog, hcalls⟩
    rw [hlog] at hr
    refine (List.mem_append.mp hr).resolve_right (fun hnew => ?_)
    cases hcalls _ hnew with
    | greeting s m hm => exact Bool.noConfusion hm
    | service s m hm hs => exact Bool.noConfusion hm
  · have hok := ok_of_authenticate host.fmt _ _ _ _ result hres
    rw [heq, srv.welcome_eq u _ result hok]
    intro t r hr
    rcases List.mem_append.mp ((TcpServer.mem_received _).mp hr) with hr | hr
    · rcases List.mem_append.mp hr with hr | hr
      · rcases List.mem_append.mp hr with hr | hr
        · exact h t r ((TcpServer.mem_received srv).mpr hr)
        · rw [ServerMessage.authResult.inj (Prod.mk.inj (List.mem_singleton.mp hr)).2]
          exact hn host.fmt _ (chosen_of_authenticate host.fmt _ _ _ _ result hres)
      · rcases List.mem_flatMap.mp hr with ⟨s, _, hs⟩
        unfold TcpServer.introduction at hs
        split at hs
        · exact absurd hs List.not_mem_nil
        · rcases List.mem_cons.mp hs with hs | hs
          · exact ServerMessage.noConfusion (Prod.mk.inj hs).2
          · split at hs
            · exact absurd hs List.not_mem_nil
            · exact ServerMessage.noConfusion (Prod.mk.inj (List.mem_singleton.mp hs)).2
    · have hevent := (TcpServer.recipients_broadcastExcept _ u _ _ hr).2.2
      exact ServerMessage.noConfusion hevent
  · rw [heq]
    refine hmore _ (fun t r hr => (List.mem_append.mp hr).resolve_right (fun hnew => ?_))
    have hevent := (TcpServer.recipients_broadcastExcept _ u _ _ hnew).2.2
    exact ServerMessage.noConfusion hevent
  · rw [heq]
    refine hmore _ (fun t r hr => ?_)
    rcases List.mem_append.mp hr with hr | hnew
    · refine (List.mem_append.mp hr).resolve_right (fun hnew => ?_)
      exact ServerMessage.noConfusion (Prod.mk.inj (List.mem_singleton.mp hnew)).2
    · have hevent := (TcpServer.recipients_broadcast _ _ _ hnew).2
      exact ServerMessage.noConfusion hevent

/-- Ids are texts, if every `auth` is given one. -/
theorem texts_run (host : Host) (es : List Event) (hn : ∀ e ∈ es, e.Named) :
    (es.foldl (step host) TcpServer.init).Texts := by
  refine Run.foldl_inv_of_eachStep (step host) TcpServer.Texts (fun _ e => e.Named)
    (fun srv e => texts_step host srv e) es TcpServer.init
    (fun _ _ hr => absurd hr List.not_mem_nil) ?_
  rintro pre e ⟨post, rfl⟩
  exact hn e (List.mem_append_left post (List.mem_append_right pre List.mem_cons_self))

/-- Where ids are not shared, nobody is told of its own. -/
theorem subject_ne (srv : TcpServer) (hf : srv.Foreign) (hi : srv.Issued) (hd : srv.Distinct)
    (s : SessionId) (hs : srv.authenticated s = true) (m : ServerMessage)
    (hm : m ∈ srv.received s) : m.subject ≠ some (srv.playerId s) := by
  intro hp
  rcases hf s m _ hm hp with ⟨t, hts, r, hr, hrp⟩
  rcases hi s hs with ⟨r', hr', hrp'⟩
  exact hts (hd t s r r' ((TcpServer.mem_received srv).mp hr) ((TcpServer.mem_received srv).mp hr')
    (hrp.trans hrp'.symm))

end Server

end MzzPlork

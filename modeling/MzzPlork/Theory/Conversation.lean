import MzzPlork.Base.Justified
import MzzPlork.Base.Run
import MzzPlork.Theory.Acts

/-!
# The Order of a Conversation

What a session can rely on having been told before.

Two things hold of the messages a session is sent, in every run. Whatever is
more than a greeting comes behind an `auth_result` (`opened_run`), so a client
that waits for its result before it listens misses nothing it was not going to
get anyway. And a player is introduced before anything is said of it
(`prepared_run`), as long as only sessions of the map make themselves heard.
The condition is needed: a session keeps its player id when it leaves the map,
and whoever arrives afterwards is not told of it.

## Main definitions

* `Opened`: A message is a greeting, a result, or has a result before it.
* `Prepared`: The player a message is about has been introduced.
* `Introduced`: Any two sessions that are present know of each other.

## Theorems

* `justified_emit`: What justifies the messages of a log when some are sent.
* `opened_run`: Nothing but greetings before the result.
* `prepared_run`: Introductions come first.
-/

namespace MzzPlork

namespace Server

open Log

/-- A message is a greeting, an `auth_result`, or behind an `auth_result`. -/
def Opened (before : List ServerMessage) (m : ServerMessage) : Prop :=
  m.isGreeting = true ∨ (∃ r, m = .authResult r) ∨ ∃ r, .authResult r ∈ before

/-- A message about a player is behind its introduction. Its own readiness a
    session hears of behind its result. -/
def Prepared (before : List ServerMessage) (m : ServerMessage) : Prop :=
  match m with
  | .event (.playerLeft p) | .event (.playerState p _) => ToldJoined before p
  | .event (.playerReady p _) => ToldJoined before p ∨
      ∃ r, .authResult r ∈ before ∧ r.playerId = p
  | _ => True

theorem lasting_opened : Lasting Opened := by
  intro l l' m h
  rcases h with hm | hm | ⟨r, hr⟩
  · exact Or.inl hm
  · exact Or.inr (Or.inl hm)
  · exact Or.inr (Or.inr ⟨r, List.mem_append_left l' hr⟩)

theorem ToldJoined.mono {ms : List ServerMessage} {p : PlayerId} (h : ToldJoined ms p)
    (ms' : List ServerMessage) (hms : ∀ m, m ∈ ms → m ∈ ms') : ToldJoined ms' p := by
  rcases h with ⟨name, hname⟩
  exact ⟨name, hms _ hname⟩

theorem lasting_prepared : Lasting Prepared := by
  intro l l' m h
  have hmore : ∀ p, ToldJoined l p → ToldJoined (l ++ l') p :=
    fun p hp => hp.mono _ (fun _ hm => List.mem_append_left l' hm)
  cases m with
  | event e =>
      cases e with
      | playerJoined p name => exact trivial
      | playerLeft p => exact hmore p h
      | playerState p st => exact hmore p h
      | playerReady p name =>
          rcases h with h | ⟨r, hr, hp⟩
          · exact Or.inl (hmore p h)
          · exact Or.inr ⟨r, List.mem_append_left l' hr, hp⟩
  | _ => exact trivial

namespace TcpServer

variable (srv : TcpServer)

theorem mem_received {s : SessionId} {m : ServerMessage} :
    m ∈ srv.received s ↔ (s, m) ∈ srv.log := by
  unfold received
  constructor
  · intro h
    rcases List.mem_map.mp h with ⟨⟨t, m'⟩, hcall, rfl⟩
    rcases List.mem_filter.mp hcall with ⟨hlog, hs⟩
    rwa [← of_decide_eq_true hs]
  · exact fun h => List.mem_map.mpr ⟨_, List.mem_filter.mpr ⟨h, decide_eq_true rfl⟩, rfl⟩

/-- Sending what is justified already keeps all conversations justified. -/
theorem justified_emit {P : List ServerMessage → ServerMessage → Prop} (hP : Lasting P)
    (calls : List (SessionId × ServerMessage)) (h : ∀ s, Justified P (srv.received s))
    (hcalls : ∀ call ∈ calls, P (srv.received call.1) call.2) (s : SessionId) :
    Justified P ((srv.emit calls).received s) := by
  rw [received_emit]
  refine justified_append_of_forall hP (h s) (fun m hm => ?_)
  rcases List.mem_map.mp hm with ⟨call, hcall, rfl⟩
  rcases List.mem_filter.mp hcall with ⟨hmem, hs⟩
  have hjust := hcalls call hmem
  rwa [of_decide_eq_true hs] at hjust

/-- The introductions of a backfill: a state is behind the introduction it
    comes with. -/
theorem justified_introductions (u : SessionId) (ids : List SessionId) (l : List ServerMessage)
    (h : Justified Prepared l) :
    Justified Prepared (l ++ (ids.flatMap (srv.introduction u)).map Prod.snd) := by
  induction ids generalizing l with
  | nil =>
      rw [List.flatMap_nil, List.map_nil, List.append_nil]
      exact h
  | cons t ids ih =>
      rw [List.flatMap_cons, List.map_append, ← List.append_assoc]
      refine ih _ ?_
      unfold introduction
      cases srv.objs t with
      | none => rwa [List.map_nil, List.append_nil]
      | some o =>
          have hjoined : Justified Prepared (l ++ [.event (.playerJoined o.playerId
              o.displayName)]) :=
            justified_append_of_forall lasting_prepared h (fun m hm => by
              rw [List.mem_singleton.mp hm]
              exact trivial)
          cases hst : o.lastPlayerState with
          | none =>
              simp only [hst]
              exact hjoined
          | some st =>
              have hstate : Justified Prepared (l ++ [.event (.playerJoined o.playerId
                  o.displayName)] ++ [.event (.playerState o.playerId st)]) :=
                justified_append_of_forall lasting_prepared hjoined (fun m hm => by
                  rw [List.mem_singleton.mp hm]
                  exact ⟨o.displayName, List.mem_append_right l List.mem_cons_self⟩)
              rw [List.append_assoc] at hstate
              simp only [hst]
              exact hstate

/-- Every authenticated session has been sent the id it has. -/
def Issued (srv : TcpServer) : Prop :=
  ∀ u, srv.authenticated u = true →
    ∃ r, .authResult r ∈ srv.received u ∧ r.playerId = srv.playerId u

/-- Any two sessions that are present know of each other. -/
def Introduced (srv : TcpServer) : Prop :=
  ∀ s t, srv.Present s → srv.Present t → s ≠ t → ToldJoined (srv.received s) (srv.playerId t)

section More

variable {srv} {srv' : TcpServer}

theorem Issued.mono (hi : srv.Issued) (hsent : ∀ s m, m ∈ srv.received s → m ∈ srv'.received s)
    (hauth : ∀ s, srv'.authenticated s = srv.authenticated s)
    (hpid : ∀ s, srv'.playerId s = srv.playerId s) : srv'.Issued := by
  intro u hu
  rcases hi u ((hauth u).symm.trans hu) with ⟨r, hr, hrp⟩
  exact ⟨r, hsent u _ hr, hrp.trans (hpid u).symm⟩

theorem Introduced.mono (hi : srv.Introduced)
    (hsent : ∀ s m, m ∈ srv.received s → m ∈ srv'.received s)
    (hpres : ∀ s, srv'.Present s → srv.Present s)
    (hpid : ∀ s, srv'.playerId s = srv.playerId s) : srv'.Introduced := by
  intro s t hs ht hne
  rcases hi s t (hpres s hs) (hpres t ht) hne with ⟨name, hname⟩
  rw [hpid]
  exact ⟨name, hsent s _ hname⟩

end More

section Frame

variable {srv} {srv' : TcpServer} (h : Frame srv srv')

include h

/-- What was sent before acts still was sent. -/
theorem Frame.sent {s : SessionId} {m : ServerMessage} (hm : m ∈ srv.received s) :
    m ∈ srv'.received s := by
  rcases h.log with ⟨calls, hlog, _⟩
  rw [mem_received] at hm ⊢
  rw [hlog]
  exact List.mem_append_left calls hm

theorem Frame.issued (hi : srv.Issued) : srv'.Issued :=
  hi.mono (fun _ _ hm => h.sent hm) h.auth h.pid

theorem Frame.introduced (hi : srv.Introduced) : srv'.Introduced :=
  hi.mono (fun _ _ hm => h.sent hm) h.present h.pid

/-- What acts send is justified if greetings, services and departures are. -/
theorem Frame.justified {P : List ServerMessage → ServerMessage → Prop} (hP : Lasting P)
    (hsaid : ∀ call, Said srv call → P (srv.received call.1) call.2)
    (hj : ∀ s, Justified P (srv.received s)) (s : SessionId) : Justified P (srv'.received s) := by
  rcases h.log with ⟨calls, hlog, hcalls⟩
  have heq : srv'.received s = (srv.emit calls).received s := by
    rw [received, received, hlog]
    rfl
  rw [heq]
  exact srv.justified_emit hP calls hj (fun call hcall => hsaid call (hcalls call hcall)) s

end Frame

section Welcome

variable (u : SessionId) (clientId : JsValue) (result : AuthResult)

theorem mem_received_admitted : .authResult result ∈ (srv.admitted u clientId result).received u :=
  (mem_received _).mpr (List.mem_append_right srv.log (List.mem_singleton.mpr rfl))

theorem sent_welcome (hok : result.ok = true) {s : SessionId} {m : ServerMessage}
    (hm : m ∈ (srv.admitted u clientId result).received s) :
    m ∈ (srv.welcome u clientId result).received s := by
  rw [srv.welcome_eq u clientId result hok, mem_received] at *
  exact List.mem_append_left _ (List.mem_append_left _ hm)

/-- The newcomer has its new id, and the others keep theirs. -/
theorem issued_welcome (o : Session) (ho : srv.objs u = some o) (hok : result.ok = true)
    (hi : srv.Issued) : (srv.welcome u clientId result).Issued := by
  have hj := srv.joined_welcome u clientId result o ho hok
  intro s hs
  by_cases hsu : s = u
  · rw [hsu]
    exact ⟨result, srv.sent_welcome u clientId result hok
      (srv.mem_received_admitted u clientId result), hj.pid_self.symm⟩
  · rcases hi s ((hj.auth s hsu).symm.trans hs) with ⟨r, hr, hrp⟩
    refine ⟨r, srv.sent_welcome u clientId result hok ?_, hrp.trans (hj.pid s hsu).symm⟩
    rwa [srv.received_admitted_of_ne u clientId result s hsu]

/-- What a newcomer is sent of the others is sent behind its result. -/
theorem opened_welcome (hok : result.ok = true) (hj : ∀ s, Justified Opened (srv.received s))
    (hi : srv.Issued) (s : SessionId) :
    Justified Opened ((srv.welcome u clientId result).received s) := by
  have hresult : ∀ s, Justified Opened ((srv.admitted u clientId result).received s) :=
    srv.justified_emit lasting_opened [(u, .authResult result)] hj (fun call hcall => by
      rw [List.mem_singleton.mp hcall]
      exact Or.inr (Or.inl ⟨result, rfl⟩))
  rw [srv.welcome_eq u clientId result hok]
  refine justified_emit _ lasting_opened _ (fun s => justified_emit _ lasting_opened _ hresult
    (fun call hcall => ?_) s) (fun call hcall => ?_) s
  · rw [(srv.admitted u clientId result).fst_of_mem_backfill u call hcall]
    exact Or.inr (Or.inr ⟨result, srv.mem_received_admitted u clientId result⟩)
  -- Those who hear of the newcomer have had their results.
  · rcases List.mem_map.mp hcall with ⟨t, ht, rfl⟩
    have hcond := (List.mem_filter.mp ht).2
    rw [Bool.and_eq_true, decide_eq_true_eq] at hcond
    have hauth := (srv.authenticated_admitted u clientId result t hcond.2).symm.trans hcond.1
    rcases hi t hauth with ⟨r, hr, _⟩
    refine Or.inr (Or.inr ⟨r, (mem_received _).mpr (List.mem_append_left _ ?_)⟩)
    rw [← mem_received, srv.received_admitted_of_ne u clientId result t hcond.2]
    exact hr

theorem prepared_welcome (hok : result.ok = true)
    (hj : ∀ s, Justified Prepared (srv.received s)) (s : SessionId) :
    Justified Prepared ((srv.welcome u clientId result).received s) := by
  have hresult : ∀ s, Justified Prepared ((srv.admitted u clientId result).received s) :=
    srv.justified_emit lasting_prepared [(u, .authResult result)] hj (fun call hcall => by
      rw [List.mem_singleton.mp hcall]
      exact trivial)
  rw [srv.welcome_eq u clientId result hok]
  refine justified_emit _ lasting_prepared _ (fun s => ?_) (fun call hcall => ?_) s
  · rw [received_backfill]
    split
    · exact justified_introductions _ u _ _ (hresult s)
    · rw [List.append_nil]
      exact hresult s
  · rcases List.mem_map.mp hcall with ⟨t, _, rfl⟩
    exact trivial

/-- An admission introduces the newcomer and the others to each other. -/
theorem introduced_welcome (o : Session) (ho : srv.objs u = some o) (hok : result.ok = true)
    (hi : srv.Introduced) : (srv.welcome u clientId result).Introduced := by
  have hj := srv.joined_welcome u clientId result o ho hok
  intro s t hs ht hne
  by_cases htu : t = u
  · rcases received_broadcastExcept ((srv.admitted u clientId result).emit
      ((srv.admitted u clientId result).backfill u)) u s
      (.playerJoined result.playerId result.displayName) with ⟨ms, hms, heach, hsome⟩
    have hsu : s ≠ u := fun h => hne (h.trans htu.symm)
    rw [htu, hj.pid_self]
    rw [srv.welcome_eq u clientId result hok] at hs ⊢
    rcases List.exists_mem_of_ne_nil ms (hsome hs hsu) with ⟨m, hm⟩
    refine ⟨result.displayName, ?_⟩
    rw [hms, ← heach m hm]
    exact List.mem_append_right _ hm
  · rw [hj.pid t htu]
    by_cases hsu : s = u
    -- The newcomer hears of everybody who is there.
    · have hpres := (hj.present t htu).mp ht
      rcases srv.objs_of_authenticated t hpres.2 with ⟨o', ho', _⟩
      have hobj : (srv.admitted u clientId result).objs t = some o' := by
        rw [admitted, objs_modify, if_neg htu]
        exact (srv.objs_modify u t _).trans ((if_neg htu).trans ho')
      have hmem : (u, ServerMessage.event (.playerJoined o'.playerId o'.displayName))
          ∈ (srv.admitted u clientId result).backfill u := by
        refine List.mem_flatMap.mpr ⟨t, List.mem_filter.mpr ⟨hpres.1, ?_⟩, ?_⟩
        · rw [decide_eq_true htu, srv.authenticated_admitted u clientId result t htu, hpres.2]
          rfl
        · rw [introduction, hobj]
          exact List.mem_cons_self
      refine ⟨o'.displayName, (mem_received _).mpr ?_⟩
      rw [hsu, srv.playerId_eq t o' ho', srv.welcome_eq u clientId result hok]
      exact List.mem_append_left _ (List.mem_append_right _ hmem)
    · rcases hi s t ((hj.present s hsu).mp hs) ((hj.present t htu).mp ht) hne with ⟨name, hname⟩
      refine ⟨name, srv.sent_welcome u clientId result hok ?_⟩
      rwa [srv.received_admitted_of_ne u clientId result s hsu]

end Welcome

section Emit

variable (calls : List (SessionId × ServerMessage))

theorem sent_emit {s : SessionId} {m : ServerMessage} (hm : m ∈ srv.received s) :
    m ∈ (srv.emit calls).received s := by
  rw [mem_received] at hm ⊢
  exact List.mem_append_left calls hm

theorem recipients_broadcastExcept (u : SessionId) (e : ServerEvent)
    (call : SessionId × ServerMessage)
    (hcall : call ∈ (srv.sessions.filter (fun s => srv.authenticated s && s ≠ u)).map
      (fun s => (s, ServerMessage.event e))) :
    srv.Present call.1 ∧ call.1 ≠ u ∧ call.2 = .event e := by
  rcases List.mem_map.mp hcall with ⟨t, ht, rfl⟩
  rcases List.mem_filter.mp ht with ⟨hmem, hcond⟩
  rw [Bool.and_eq_true, decide_eq_true_eq] at hcond
  exact ⟨⟨hmem, hcond.1⟩, hcond.2, rfl⟩

theorem recipients_broadcast (e : ServerEvent) (call : SessionId × ServerMessage)
    (hcall : call ∈ (srv.sessions.filter srv.authenticated).map
      (fun s => (s, ServerMessage.event e))) : srv.Present call.1 ∧ call.2 = .event e := by
  rcases List.mem_map.mp hcall with ⟨t, ht, rfl⟩
  exact ⟨List.mem_filter.mp ht, rfl⟩

end Emit

/-- Everything but greetings comes behind a result. -/
structure Opening (srv : TcpServer) : Prop where
  opened : ∀ s, Justified Opened (srv.received s)
  issued : srv.Issued

/-- Introductions come first. -/
structure Preparing (srv : TcpServer) : Prop where
  prepared : ∀ s, Justified Prepared (srv.received s)
  issued : srv.Issued
  introduced : srv.Introduced

section Kept

variable {srv} {srv' : TcpServer}

theorem Issued.opened (h : srv.Issued) {s : SessionId} (hs : srv.authenticated s = true)
    (m : ServerMessage) : Opened (srv.received s) m := by
  rcases h s hs with ⟨r, hr, _⟩
  exact Or.inr (Or.inr ⟨r, hr⟩)

theorem opening_act (hact : Act srv srv') (h : srv.Opening) : srv'.Opening := by
  have hframe := act_frame hact
  refine ⟨hframe.justified lasting_opened (fun call hsaid => ?_) h.opened,
    hframe.issued h.issued⟩
  cases hsaid with
  | greeting s m hm => exact Or.inl hm
  | service s m hm hs => exact h.issued.opened hs m
  | left s u hs hu hne => exact h.issued.opened hs.2 _

/-- Anything can be sent to those who are authenticated. -/
theorem Opening.emit (h : srv.Opening) (calls : List (SessionId × ServerMessage))
    (hcalls : ∀ call ∈ calls, srv.authenticated call.1 = true) : (srv.emit calls).Opening where
  opened := srv.justified_emit lasting_opened calls h.opened
    (fun call hcall => h.issued.opened (hcalls call hcall) call.2)
  issued := h.issued.mono (fun _ _ hm => srv.sent_emit calls hm) (fun _ => rfl) (fun _ => rfl)

theorem Opening.modify (h : srv.Opening) (u : SessionId) (f : Session → Session)
    (ha : ∀ o, (f o).authenticated = o.authenticated) (hp : ∀ o, (f o).playerId = o.playerId) :
    (srv.modify u f).Opening where
  opened := h.opened
  issued := h.issued.mono (fun _ _ hm => hm) (fun s => authenticated_modify srv u s f ha)
    (fun s => playerId_modify srv u s f hp)

theorem prepared_of_isGreeting {m : ServerMessage} (hm : m.isGreeting = true)
    (before : List ServerMessage) : Prepared before m := by
  cases m with
  | event e => exact Bool.noConfusion hm
  | _ => trivial

theorem prepared_of_isService {m : ServerMessage} (hm : m.isService = true)
    (before : List ServerMessage) : Prepared before m := by
  cases m with
  | event e => exact Bool.noConfusion hm
  | _ => trivial

/-- Somebody who leaves has been introduced to everybody who is told. -/
theorem preparing_act (hact : Act srv srv') (h : srv.Preparing) : srv'.Preparing := by
  have hframe := act_frame hact
  refine ⟨hframe.justified lasting_prepared (fun call hsaid => ?_) h.prepared,
    hframe.issued h.issued, hframe.introduced h.introduced⟩
  cases hsaid with
  | greeting s m hm => exact prepared_of_isGreeting hm _
  | service s m hm hs => exact prepared_of_isService hm _
  | left s u hs hu hne => exact h.introduced s u hs hu hne

theorem Preparing.emit (h : srv.Preparing) (calls : List (SessionId × ServerMessage))
    (hcalls : ∀ call ∈ calls, Prepared (srv.received call.1) call.2) :
    (srv.emit calls).Preparing where
  prepared := srv.justified_emit lasting_prepared calls h.prepared hcalls
  issued := h.issued.mono (fun _ _ hm => srv.sent_emit calls hm) (fun _ => rfl) (fun _ => rfl)
  introduced := h.introduced.mono (fun _ _ hm => srv.sent_emit calls hm) (fun _ h => h)
    (fun _ => rfl)

theorem Preparing.modify (h : srv.Preparing) (u : SessionId) (f : Session → Session)
    (ha : ∀ o, (f o).authenticated = o.authenticated) (hp : ∀ o, (f o).playerId = o.playerId) :
    (srv.modify u f).Preparing where
  prepared := h.prepared
  issued := h.issued.mono (fun _ _ hm => hm) (fun s => authenticated_modify srv u s f ha)
    (fun s => playerId_modify srv u s f hp)
  introduced := h.introduced.mono (fun _ _ hm => hm)
    (fun s hs => ⟨hs.1, (authenticated_modify srv u s f ha).symm.trans hs.2⟩)
    (fun s => playerId_modify srv u s f hp)

end Kept

section Heard

variable (u : SessionId)

/-- A session's state is relayed. -/
theorem opening_report (st : PlayerState) (p : PlayerId) (h : srv.Opening) :
    ((srv.modify u (fun o => { o with lastPlayerState := some st })).broadcastExcept u
      (.playerState p st)).Opening := by
  have hset := h.modify u (fun o => { o with lastPlayerState := some st }) (fun _ => rfl)
    (fun _ => rfl)
  exact hset.emit _ (fun call hcall => (recipients_broadcastExcept _ u _ call hcall).1.2)

/-- Whoever is present knows of the others that are in the map. -/
theorem preparing_report (st : PlayerState) (hu : srv.Present u) (h : srv.Preparing) :
    ((srv.modify u (fun o => { o with lastPlayerState := some st })).broadcastExcept u
      (.playerState (srv.playerId u) st)).Preparing := by
  have hset := h.modify u (fun o => { o with lastPlayerState := some st }) (fun _ => rfl)
    (fun _ => rfl)
  refine hset.emit _ (fun call hcall => ?_)
  rcases recipients_broadcastExcept _ u _ call hcall with ⟨hpres, hne, heq⟩
  have hpres' : srv.Present call.1 := (srv.present_modify u call.1
    (fun o => { o with lastPlayerState := some st }) (fun _ => rfl)).mp hpres
  rw [heq]
  exact h.introduced call.1 u hpres' hu hne

/-- Readiness is acknowledged and announced. -/
theorem opening_announce (p name : JsValue) (hu : srv.authenticated u = true) (h : srv.Opening) :
    (((srv.modify u (fun o => { o with resourcesReady := true })).send u
      .resourcesReadyAck).broadcast (.playerReady p name)).Opening := by
  have hset := h.modify u (fun o => { o with resourcesReady := true }) (fun _ => rfl)
    (fun _ => rfl)
  have hack := hset.emit [(u, .resourcesReadyAck)] (fun call hcall => by
    rw [List.mem_singleton.mp hcall]
    exact (authenticated_modify srv u u (fun o => { o with resourcesReady := true })
      (fun _ => rfl)).trans hu)
  exact hack.emit _ (fun call hcall => (recipients_broadcast _ _ call hcall).1.2)

theorem preparing_announce (name : JsValue) (hu : srv.Present u) (h : srv.Preparing) :
    (((srv.modify u (fun o => { o with resourcesReady := true })).send u
      .resourcesReadyAck).broadcast (.playerReady (srv.playerId u) name)).Preparing := by
  have hset := h.modify u (fun o => { o with resourcesReady := true }) (fun _ => rfl)
    (fun _ => rfl)
  have hack := hset.emit [(u, .resourcesReadyAck)] (fun call hcall => by
    rw [List.mem_singleton.mp hcall]
    exact trivial)
  refine hack.emit _ (fun call hcall => ?_)
  rcases recipients_broadcast _ _ call hcall with ⟨hpres, heq⟩
  have hpres' : srv.Present call.1 := (srv.present_modify u call.1
    (fun o => { o with resourcesReady := true }) (fun _ => rfl)).mp hpres
  rw [heq]
  -- It is told of itself as well.
  by_cases hs : call.1 = u
  · rcases h.issued u hu.2 with ⟨r, hr, hrp⟩
    rw [hs]
    exact Or.inr ⟨r, sent_emit _ _ hr, hrp⟩
  · exact Or.inl ((h.introduced call.1 u hpres' hu hs).mono _ (fun _ hm => sent_emit _ _ hm))

end Heard

end TcpServer

theorem opening_step (host : Host) (srv : TcpServer) (e : Event) (h : srv.Opening) :
    (step host srv e).Opening := by
  refine inv_step host TcpServer.Opening (fun a b => TcpServer.opening_act) srv e ?_ ?_ ?_ h
  · rintro ⟨u, payload, ambient, o, result, rfl, ho, _, hres, heq⟩ hI
    have hok := ok_of_authenticate host.fmt _ _ _ _ result hres
    rw [heq]
    exact ⟨srv.opened_welcome u _ result hok hI.opened hI.issued,
      srv.issued_welcome u _ result o ho hok hI.issued⟩
  · rintro ⟨u, payload, ambient, rfl, hu, heq⟩ hI
    rw [heq]
    exact srv.opening_report u _ _ hI
  · rintro ⟨u, payload, ambient, rfl, hu, heq⟩ hI
    rw [heq]
    exact srv.opening_announce u _ _ hu hI

theorem preparing_step (host : Host) (srv : TcpServer) (e : Event) (h : srv.Preparing)
    (hin : Inside srv e) : (step host srv e).Preparing := by
  refine inv_step host TcpServer.Preparing (fun a b => TcpServer.preparing_act) srv e ?_ ?_ ?_ h
  · rintro ⟨u, payload, ambient, o, result, rfl, ho, _, hres, heq⟩ hI
    have hok := ok_of_authenticate host.fmt _ _ _ _ result hres
    rw [heq]
    exact ⟨srv.prepared_welcome u _ result hok hI.prepared,
      srv.issued_welcome u _ result o ho hok hI.issued,
      srv.introduced_welcome u _ result o ho hok hI.introduced⟩
  · rintro ⟨u, payload, ambient, rfl, hu, heq⟩ hI
    rw [heq]
    exact srv.preparing_report u _ ⟨hin u rfl, hu⟩ hI
  · rintro ⟨u, payload, ambient, rfl, hu, heq⟩ hI
    rw [heq]
    exact srv.preparing_announce u _ ⟨hin u rfl, hu⟩ hI

theorem issued_init : TcpServer.init.Issued := fun _ h => Bool.noConfusion h

/-- In every run, a session is sent nothing but greetings before its result. -/
theorem opened_run (host : Host) (es : List Event) (s : SessionId) :
    Justified Opened ((es.foldl (step host) TcpServer.init).received s) :=
  (Run.foldl_inv (step host) TcpServer.Opening (opening_step host) es TcpServer.init
    ⟨fun _ => justified_nil Opened, issued_init⟩).opened s

/-- As long as only sessions of the map make themselves heard, nothing is said
    of a player before it has been introduced. -/
theorem prepared_run (host : Host) (es : List Event)
    (hin : Run.EachStep (step host) Inside TcpServer.init es) (s : SessionId) :
    Justified Prepared ((es.foldl (step host) TcpServer.init).received s) :=
  (Run.foldl_inv_of_eachStep (step host) TcpServer.Preparing Inside
    (fun srv e => preparing_step host srv e) es TcpServer.init
    ⟨fun _ => justified_nil Prepared, issued_init, fun _ _ hs => absurd hs.1 List.not_mem_nil⟩
    hin).prepared s

/-- The second client of a run hears of the first, then where it is. -/
theorem prepared_run_latecomer : Justified Prepared (afterLatecomer.received (js "s2")) :=
  prepared_run (Host.shipped (fun _ => [])) latecomerRun (by decide) (js "s2")

end Server

end MzzPlork

import MzzPlork.Base.Run
import MzzPlork.Core.HeartbeatRun
import MzzPlork.Theory.SessionClock

/-!
# The Heartbeat Watchdog

Whom the watchdog disconnects.

A session counts as silent from its last heartbeat on, or from the connection
if it has not sent any, whatever else it sends. A client that is ready sends a
heartbeat every ten seconds, which the watchdog never finds too old. But it
sends none before it is ready, and it is only ready when all has been
downloaded and loaded. So a client is timed out exactly if the watchdog ticks
later than the timeout after the connection, and before the first heartbeat.

## Main definitions

* `TimedOut`: The session was disconnected by the watchdog.
* `Clocked`: What the server's clock for the client says.
* `Timely`: The watchdog does not tick too late.

## Theorems

* `always_heard_iff`: Which clients are never timed out.
* `heard_of_quick`: A client that is quick enough is not.
-/

namespace MzzPlork

namespace Heartbeat

open Server TcpServer

section Clock

variable (u : SessionId)

/-- The watchdog has disconnected the session. -/
def TimedOut (w : World) : Prop := (u, timeoutKick) ∈ w.srv.log

/-- The session has not timed out, or the client has said farewell. -/
def Heard (w : World) : Prop := w.phase ≠ .left → ¬ TimedOut u w

/-- What the server's clock for the client says. -/
structure Clocked (w : World) : Prop where
  absent : w.phase = .connecting → w.srv.lastBeat u = none
  unbeaten : w.phase.unbeaten = true → w.srv.lastBeat u = some w.connectedAt
  beaten : ∀ waited, w.phase = .ready waited true →
    w.srv.lastBeat u = some (w.now - waited) ∧ waited ≤ heartbeatIntervalMs

/-- Unless it has been removed for another reason, a session without a
    heartbeat is not looked at by the watchdog when the timeout has passed. -/
def Timely (w : World) (a : Action) : Prop :=
  a = .watchdog → w.now = w.due → w.phase.unbeaten = true → u ∈ w.srv.sessions →
    w.now ≤ w.connectedAt + 45000

theorem clocked_init : Clocked u World.init where
  absent := fun _ => rfl
  unbeaten := fun h => Bool.noConfusion h
  beaten := fun _ h => Phase.noConfusion h

/-- Nothing happened that the session's clock depends on. -/
theorem Clocked.of_beat {w w' : World} (h : Clocked u w)
    (hbeat : w'.srv.lastBeat u = w.srv.lastBeat u) (hphase : w'.phase = w.phase)
    (hnow : w'.now = w.now) (hconnected : w'.connectedAt = w.connectedAt) : Clocked u w' where
  absent := fun hp => hbeat.trans (h.absent (hphase.symm.trans hp))
  unbeaten := fun hp => by rw [hbeat, hconnected, h.unbeaten (hphase ▸ hp)]
  beaten := fun waited hp => by
    rw [hbeat, hnow]
    exact h.beaten waited (hphase.symm.trans hp)

/-- From one phase before the first heartbeat to another. -/
theorem Clocked.of_unbeaten {w w' : World} (h : Clocked u w)
    (hbeat : w'.srv.lastBeat u = w.srv.lastBeat u) (hphase : w.phase.unbeaten = true)
    (hphase' : w'.phase.unbeaten = true) (hconnected : w'.connectedAt = w.connectedAt) :
    Clocked u w' where
  absent := fun hp => by
    rw [hp] at hphase'
    exact Bool.noConfusion hphase'
  unbeaten := fun _ => by rw [hbeat, hconnected, h.unbeaten hphase]
  beaten := fun waited hp => by
    rw [hp] at hphase'
    exact Bool.noConfusion hphase'

/-- A step in which the server's clock for the client is right afterwards, and
    in which nobody times out. -/
structure Quiet (w w' : World) : Prop where
  clocked : Clocked u w'
  heard : w'.phase ≠ .left → w.phase ≠ .left ∧ (TimedOut u w' ↔ TimedOut u w)

theorem Quiet.refl {w : World} (h : Clocked u w) : Quiet u w w := ⟨h, fun hp => ⟨hp, Iff.rfl⟩⟩

theorem Quiet.heard_of {w w' : World} (h : Quiet u w w') (hw : Heard u w) : Heard u w' := by
  intro hp htimed
  rcases h.heard hp with ⟨hleft, hlog⟩
  exact hw hleft (hlog.mp htimed)

end Clock

section Steps

variable (host : Host) (u : SessionId) (script : Script)

/-- Time goes by in the same phase, or towards the next heartbeat. -/
theorem pass_cases (phase phase' : Phase) (ms : Nat) (h : phase.pass ms = some phase') :
    (phase' = phase ∧ ∀ waited beaten, phase ≠ .ready waited beaten) ∨
      ∃ waited beaten, phase = .ready waited beaten ∧ phase' = .ready (waited + ms) beaten ∧
        waited + ms ≤ heartbeatIntervalMs := by
  cases phase with
  | ready waited beaten =>
      rw [Phase.pass] at h
      by_cases hwait : waited + ms ≤ heartbeatIntervalMs
      · rw [if_pos hwait] at h
        exact Or.inr ⟨waited, beaten, rfl, (Option.some.inj h).symm, hwait⟩
      · rw [if_neg hwait] at h
        exact absurd h (by simp only [reduceCtorEq, not_false_eq_true])
  | hello => exact absurd h (by simp only [Phase.pass, reduceCtorEq, not_false_eq_true])
  | auth => exact absurd h (by simp only [Phase.pass, reduceCtorEq, not_false_eq_true])
  | manifestRequest => exact absurd h (by simp only [Phase.pass, reduceCtorEq, not_false_eq_true])
  | connecting => exact Or.inl ⟨(Option.some.inj h).symm, fun _ _ hp => Phase.noConfusion hp⟩
  | downloading => exact Or.inl ⟨(Option.some.inj h).symm, fun _ _ hp => Phase.noConfusion hp⟩
  | loading => exact Or.inl ⟨(Option.some.inj h).symm, fun _ _ hp => Phase.noConfusion hp⟩
  | left => exact Or.inl ⟨(Option.some.inj h).symm, fun _ _ hp => Phase.noConfusion hp⟩

theorem quiet_pass (w : World) (ms : Nat) (h : Clocked u w) : Quiet u w (pass ms w) := by
  unfold pass
  cases hpass : w.phase.pass ms with
  | none => exact Quiet.refl u h
  | some phase =>
      dsimp only
      by_cases hdue : w.now + ms ≤ w.due
      · rw [if_pos hdue]
        rcases pass_cases w.phase phase ms hpass with
          ⟨rfl, hready⟩ | ⟨waited, beaten, hp, rfl, hwait⟩
        · exact ⟨⟨h.absent, h.unbeaten, fun waited hp => absurd hp (hready waited true)⟩,
            fun hp => ⟨hp, Iff.rfl⟩⟩
        -- The interval and the time since the last heartbeat grow together.
        · refine ⟨⟨fun hp' => Phase.noConfusion hp', fun hp' => h.unbeaten (hp ▸ hp'), ?_⟩,
            fun _ => ⟨fun hl => Phase.noConfusion (hp.symm.trans hl), Iff.rfl⟩⟩
          rintro waited' hp'
          rcases Phase.ready.inj hp' with ⟨rfl, rfl⟩
          refine ⟨?_, hwait⟩
          rw [(h.beaten waited hp).1, Nat.cast_add, add_sub_add_right_eq_sub]
      · rw [if_neg hdue]
        exact Quiet.refl u h

/-- What a client says that neither is a heartbeat nor a farewell. -/
theorem unclocked_say (w : World) (type : MessageType) (payload : JsValue) (ambient : Ambient)
    (phase : Phase)
    (h : (Event.message u type (some payload) { ambient with now := w.now }).clocks u = false) :
    w.srv.Unclocked u (say host u w type payload ambient phase).srv :=
  unclocked_step host w.srv u _ h

theorem quiet_say (w : World) (type : MessageType) (payload : JsValue) (ambient : Ambient)
    (phase : Phase) (h : Clocked u w)
    (hclocks : (Event.message u type (some payload) { ambient with now := w.now }).clocks u = false)
    (hp : w.phase.unbeaten = true) (hp' : phase.unbeaten = true) :
    Quiet u w (say host u w type payload ambient phase) := by
  have hsaid := unclocked_say host u w type payload ambient phase hclocks
  refine ⟨h.of_unbeaten u hsaid.beat hp hp' rfl, fun _ => ⟨fun hl => ?_, hsaid.mem_log⟩⟩
  rw [hl] at hp
  exact Bool.noConfusion hp

/-- A heartbeat is sent. -/
theorem quiet_beat (w : World) (waited : Nat) (beaten : Bool) (ambient : Ambient)
    (h : Clocked u w) (hp : w.phase = .ready waited beaten) :
    Quiet u w (say host u w .heartbeat (.obj []) ambient (.ready 0 true)) := by
  have hbeat : ∃ beat, w.srv.lastBeat u = some beat := by
    cases beaten with
    | false => exact ⟨_, h.unbeaten (hp ▸ rfl)⟩
    | true => exact ⟨_, (h.beaten waited hp).1⟩
  rcases hbeat with ⟨beat, hbeat⟩
  rcases step_heartbeat host w.srv u (some (.obj [])) { ambient with now := w.now } beat hbeat with
    ⟨hnow, hlog⟩
  refine ⟨⟨fun hp' => Phase.noConfusion hp', fun hp' => Bool.noConfusion hp', ?_⟩,
    fun _ => ⟨fun hl => Phase.noConfusion (hp.symm.trans hl), hlog⟩⟩
  intro waited' hp'
  rcases Phase.ready.inj hp' with ⟨rfl, -⟩
  exact ⟨hnow.trans (congrArg some (sub_zero w.now).symm), Nat.zero_le _⟩

theorem quiet_client (w : World) (ambient : Ambient) (h : Clocked u w) :
    Quiet u w (clientStep host u script ambient w) := by
  unfold clientStep
  cases hp : w.phase with
  | connecting =>
      rcases step_connect host w.srv u w.now (h.absent hp) with ⟨hbeat, hlog⟩
      refine ⟨⟨fun hp' => Phase.noConfusion hp', fun _ => hbeat,
        fun _ hp' => Phase.noConfusion hp'⟩,
        fun _ => ⟨fun hl => Phase.noConfusion (hp.symm.trans hl), ?_⟩⟩
      rw [TimedOut, hlog, TimedOut]
  | hello => exact quiet_say host u w _ _ ambient _ h rfl (hp ▸ rfl) rfl
  | auth => exact quiet_say host u w _ _ ambient _ h rfl (hp ▸ rfl) rfl
  | manifestRequest => exact quiet_say host u w _ _ ambient _ h rfl (hp ▸ rfl) rfl
  | downloading =>
      exact ⟨h.of_unbeaten u rfl (hp ▸ rfl) rfl rfl,
        fun _ => ⟨fun hl => Phase.noConfusion (hp.symm.trans hl), Iff.rfl⟩⟩
  | loading => exact quiet_say host u w _ _ ambient _ h rfl (hp ▸ rfl) rfl
  | ready waited beaten =>
      by_cases hwait : waited = heartbeatIntervalMs
      · dsimp only
        rw [if_pos hwait]
        exact quiet_beat host u w waited beaten ambient h hp
      · dsimp only
        rw [if_neg hwait]
        exact Quiet.refl u h
  | left => exact Quiet.refl u h

/-- A reported state is no sign of life either. -/
theorem quiet_report (w : World) (payload : JsValue) (ambient : Ambient) (h : Clocked u w) :
    Quiet u w (report host u payload ambient w) := by
  unfold report
  split
  · have hsaid := unclocked_say host u w .playerState payload ambient w.phase rfl
    exact ⟨h.of_beat u hsaid.beat rfl rfl rfl, fun hp => ⟨hp, hsaid.mem_log⟩⟩
  · exact Quiet.refl u h

theorem quiet_leave (w : World) (ambient : Ambient) (h : Clocked u w) :
    Quiet u w (leave host u ambient w) := by
  unfold leave
  split
  · exact ⟨⟨fun hp => Phase.noConfusion hp, fun hp => Bool.noConfusion hp,
      fun _ hp => Phase.noConfusion hp⟩, fun hp => absurd rfl hp⟩
  · exact Quiet.refl u h

theorem clocks_of_elsewhere (e : Event) (h : elsewhere u e = true) : e.clocks u = false := by
  cases e with
  | connect s now => exact decide_eq_false (of_decide_eq_true h)
  | message s type payload ambient =>
      have hs : s ≠ u := of_decide_eq_true h
      cases type <;> first | exact decide_eq_false hs | rfl
  | protocolError s => rfl
  | close s => rfl
  | watchdog now => exact Bool.noConfusion h
  | shutdown => rfl

theorem quiet_other (w : World) (e : Event) (h : Clocked u w) :
    Quiet u w (if elsewhere u e then { w with srv := step host w.srv e } else w) := by
  by_cases he : elsewhere u e = true
  · rw [if_pos he]
    have hstep := unclocked_step host w.srv u e (clocks_of_elsewhere u e he)
    exact ⟨h.of_beat u hstep.beat rfl rfl rfl, fun hp => ⟨hp, hstep.mem_log⟩⟩
  · rw [if_neg he]
    exact Quiet.refl u h

end Steps

section Runs

variable (fmt : NumberFormat) (u : SessionId) (script : Script)

/-- Only a session without a heartbeat can have expired. -/
theorem expired_iff (w : World) (h : Clocked u w) (hleft : w.phase ≠ .left) :
    expired (Host.shipped fmt) w.now w.srv u = true ↔
      w.phase.unbeaten = true ∧ w.connectedAt + 45000 < w.now := by
  rw [expired_eq]
  cases hunbeaten : w.phase.unbeaten with
  | true =>
      rw [h.unbeaten hunbeaten, Option.any_some, decide_eq_true_eq, and_iff_right rfl]
      change w.now - w.connectedAt > 45000 ↔ w.connectedAt + 45000 < w.now
      omega
  | false =>
      refine iff_of_false ?_ (fun hc => Bool.noConfusion hc.1)
      cases hp : w.phase with
      | connecting =>
          rw [h.absent hp]
          exact Bool.false_ne_true
      | ready waited beaten =>
          rw [hp] at hunbeaten
          rcases h.beaten waited (hp.trans (by rw [(Bool.not_eq_false' _).mp hunbeaten])) with
            ⟨hbeat, hwait⟩
          -- The next heartbeat is due long before the timeout.
          rw [hbeat, Option.any_some, decide_eq_true_eq, sub_sub_cancel]
          change ¬ ((waited : Int) > 45000)
          unfold heartbeatIntervalMs at hwait
          omega
      | left => exact absurd hp hleft
      | _ =>
          rw [hp] at hunbeaten
          exact Bool.noConfusion hunbeaten

theorem clocked_watchdog (host : Host) (w : World) (h : Clocked u w) :
    Clocked u (watchdog host w) := by
  unfold watchdog
  by_cases hdue : w.now = w.due
  · rw [if_pos hdue]
    exact h.of_beat u (lastBeat_watchdog u w.srv host w.now w.srv.sessions) rfl rfl rfl
  · rwa [if_neg hdue]

/-- A tick times the client out exactly if it comes too late. -/
theorem heard_watchdog_iff (w : World) (h : Clocked u w) (hw : Heard u w) :
    Heard u (watchdog (Host.shipped fmt) w) ↔ Timely u w .watchdog := by
  by_cases hdue : w.now = w.due
  · have htimed : TimedOut u (watchdog (Host.shipped fmt) w) ↔ TimedOut u w ∨
        (u ∈ w.srv.sessions ∧ u ∈ w.srv.sessions ∧
          expired (Host.shipped fmt) w.now w.srv u = true) := by
      rw [watchdog, if_pos hdue]
      exact mem_log_watchdog u w.srv (Host.shipped fmt) w.now w.srv.sessions
    have hphase : (watchdog (Host.shipped fmt) w).phase = w.phase := by
      rw [watchdog, if_pos hdue]
    rw [Heard, hphase, htimed]
    by_cases hleft : w.phase = .left
    · refine iff_of_true (fun hp => absurd hleft hp) (fun _ _ hunbeaten => ?_)
      rw [hleft] at hunbeaten
      exact Bool.noConfusion hunbeaten
    · rw [or_iff_right (hw hleft), expired_iff fmt u w h hleft]
      constructor
      · intro hnot _ _ hunbeaten hu
        exact Int.not_lt.mp (fun hlt => hnot hleft ⟨hu, hu, hunbeaten, hlt⟩)
      · rintro htimely - ⟨hu, -, hunbeaten, hlt⟩
        exact absurd (htimely rfl hdue hunbeaten hu) (Int.not_le.mpr hlt)
  · rw [watchdog, if_neg hdue]
    exact iff_of_true hw (fun _ h => absurd h hdue)

/-- All other actions are quiet. -/
theorem quiet_act (host : Host) (w : World) (a : Action) (h : Clocked u w) (ha : a ≠ .watchdog) :
    Quiet u w (act host u script w a) := by
  cases a with
  | pass ms => exact quiet_pass u w ms h
  | client ambient => exact quiet_client host u script w ambient h
  | watchdog => exact absurd rfl ha
  | report payload ambient => exact quiet_report host u w payload ambient h
  | leave ambient => exact quiet_leave host u w ambient h
  | other e => exact quiet_other host u w e h

theorem clocked_act (host : Host) (w : World) (a : Action) (h : Clocked u w) :
    Clocked u (act host u script w a) := by
  cases a with
  | watchdog => exact clocked_watchdog u host w h
  | _ => exact (quiet_act u script host w _ h (fun ha => Action.noConfusion ha)).clocked

theorem heard_act_iff (w : World) (a : Action) (h : Clocked u w) (hw : Heard u w) :
    Heard u (act (Host.shipped fmt) u script w a) ↔ Timely u w a := by
  cases a with
  | watchdog => exact heard_watchdog_iff fmt u w h hw
  | _ =>
      refine iff_of_true ?_ (fun ha => Action.noConfusion ha)
      exact (quiet_act u script _ w _ h (fun ha => Action.noConfusion ha)).heard_of u hw

theorem heard_init : Heard u World.init := fun _ h => absurd h List.not_mem_nil

/-- A client is never timed out, up to its farewell, exactly in the runs in
    which the watchdog does not tick too late. -/
theorem always_heard_iff (as : List Action) :
    Run.Always (act (Host.shipped fmt) u script) (Heard u) World.init as ↔
      Run.EachStep (act (Host.shipped fmt) u script) (Timely u) World.init as :=
  Run.always_iff_eachStep _ (Clocked u)
    (fun w a h => clocked_act u script (Host.shipped fmt) w a h) (Heard u) (Timely u)
    (fun w a h hw => heard_act_iff fmt u script w a h hw) as World.init
    (clocked_init u) (heard_init u)

end Runs

section Durations

variable (fmt : NumberFormat) (u : SessionId) (script : Script)

/-- Downloading and loading are over in time for the first heartbeat. -/
def Quick (w : World) (_ : Action) : Prop :=
  w.phase = .downloading ∨ w.phase = .loading → w.now ≤ w.connectedAt + 35000

/-- The client asks the server for something next. -/
def Phase.asking : Phase → Bool
  | .hello => true
  | .auth => true
  | .manifestRequest => true
  | _ => false

/-- No time goes by before the client has asked for all it needs. -/
theorem asking_of_pass (phase phase' : Phase) (ms : Nat) (h : phase.pass ms = some phase') :
    phase.asking = false := by
  cases phase with
  | hello => exact absurd h (by simp only [Phase.pass, reduceCtorEq, not_false_eq_true])
  | auth => exact absurd h (by simp only [Phase.pass, reduceCtorEq, not_false_eq_true])
  | manifestRequest => exact absurd h (by simp only [Phase.pass, reduceCtorEq, not_false_eq_true])
  | _ => rfl

/-- How much time a quick client has taken. -/
structure Early (w : World) : Prop where
  asked : w.phase.asking = true → w.now = w.connectedAt
  waited : ∀ waited, w.phase = .ready waited false →
    w.now ≤ w.connectedAt + 35000 + waited ∧ waited ≤ heartbeatIntervalMs

theorem early_init : Early World.init where
  asked := fun h => Bool.noConfusion h
  waited := fun _ h => Phase.noConfusion h

/-- Neither the clock nor the client has moved. -/
theorem Early.of_same {w w' : World} (h : Early w) (hphase : w'.phase = w.phase)
    (hnow : w'.now = w.now) (hconnected : w'.connectedAt = w.connectedAt) : Early w' := by
  refine ⟨?_, ?_⟩
  · rw [hphase, hnow, hconnected]
    exact h.asked
  · rw [hphase, hnow, hconnected]
    exact h.waited

/-- The client is in a phase in which it may take its time. -/
theorem early_of_phase {w : World} (hasked : w.phase.asking = false)
    (hwaited : ∀ waited, w.phase ≠ .ready waited false) : Early w where
  asked := fun h => Bool.noConfusion (hasked.symm.trans h)
  waited := fun waited h => absurd h (hwaited waited)

theorem early_pass (w : World) (ms : Nat) (h : Early w) : Early (pass ms w) := by
  unfold pass
  cases hpass : w.phase.pass ms with
  | none => exact h
  | some phase =>
      dsimp only
      by_cases hdue : w.now + ms ≤ w.due
      · rw [if_pos hdue]
        rcases pass_cases w.phase phase ms hpass with
          ⟨rfl, hready⟩ | ⟨waited, beaten, hp, rfl, hwait⟩
        · exact early_of_phase (asking_of_pass _ _ ms hpass) (fun waited => hready waited false)
        · refine ⟨fun hp' => Bool.noConfusion hp', fun waited' hp' => ?_⟩
          rcases Phase.ready.inj hp' with ⟨rfl, rfl⟩
          refine ⟨?_, hwait⟩
          have hle := (h.waited waited hp).1
          rw [Nat.cast_add]
          change w.now + ms ≤ w.connectedAt + 35000 + (waited + ms)
          omega
      · rwa [if_neg hdue]

theorem early_client (host : Host) (w : World) (ambient : Ambient) (h : Early w)
    (hq : Quick w (.client ambient)) : Early (clientStep host u script ambient w) := by
  have hasked : ∀ (type : MessageType) (payload : JsValue) (phase : Phase), w.now = w.connectedAt →
      (∀ waited, phase ≠ .ready waited false) → Early (say host u w type payload ambient phase) :=
    fun type payload phase hnow hready =>
      ⟨fun _ => hnow, fun waited hp => absurd hp (hready waited)⟩
  unfold clientStep
  cases hp : w.phase with
  | connecting => exact ⟨fun _ => rfl, fun _ hp' => Phase.noConfusion hp'⟩
  | hello =>
      exact hasked _ _ _ (h.asked (hp ▸ rfl)) (fun _ hp' => Phase.noConfusion hp')
  | auth =>
      exact hasked _ _ _ (h.asked (hp ▸ rfl)) (fun _ hp' => Phase.noConfusion hp')
  | manifestRequest =>
      exact hasked _ _ _ (h.asked (hp ▸ rfl)) (fun _ hp' => Phase.noConfusion hp')
  | downloading =>
      exact early_of_phase rfl (fun _ hp' => Phase.noConfusion hp')
  | loading =>
      refine ⟨fun hp' => Bool.noConfusion hp', fun waited hp' => ?_⟩
      rcases Phase.ready.inj hp' with ⟨rfl, -⟩
      exact ⟨(hq (Or.inr hp)).trans (le_of_eq (add_zero _).symm), Nat.zero_le _⟩
  | ready waited beaten =>
      by_cases hwait : waited = heartbeatIntervalMs
      · dsimp only
        rw [if_pos hwait]
        -- It has sent a heartbeat now.
        refine early_of_phase rfl (fun _ hp' => ?_)
        exact Bool.noConfusion (Phase.ready.inj hp').2
      · dsimp only
        rwa [if_neg hwait]
  | left => exact h

theorem early_act (host : Host) (w : World) (a : Action) (h : Early w) (hq : Quick w a) :
    Early (act host u script w a) := by
  cases a with
  | pass ms => exact early_pass w ms h
  | client ambient => exact early_client u script host w ambient h hq
  | watchdog =>
      rw [act, watchdog]
      split <;> exact h.of_same rfl rfl rfl
  | report payload ambient =>
      rw [act, report]
      split <;> exact h.of_same rfl rfl rfl
  | leave ambient =>
      rw [act, leave]
      split
      · exact early_of_phase rfl (fun _ hp => Phase.noConfusion hp)
      · exact h
  | other e =>
      rw [act]
      split <;> exact h.of_same rfl rfl rfl

/-- The first heartbeat of a quick client is in time, whenever the watchdog
    ticks. -/
theorem timely_of_early (w : World) (a : Action) (h : Early w) (hq : Quick w a) :
    Timely u w a := by
  intro _ _ hunbeaten _
  cases hp : w.phase with
  | connecting =>
      rw [hp] at hunbeaten
      exact Bool.noConfusion hunbeaten
  | hello => exact h.asked (hp ▸ rfl) ▸ Int.le_add_of_nonneg_right (by decide)
  | auth => exact h.asked (hp ▸ rfl) ▸ Int.le_add_of_nonneg_right (by decide)
  | manifestRequest => exact h.asked (hp ▸ rfl) ▸ Int.le_add_of_nonneg_right (by decide)
  | downloading => exact (hq (Or.inl hp)).trans (by omega)
  | loading => exact (hq (Or.inr hp)).trans (by omega)
  | ready waited beaten =>
      rw [hp] at hunbeaten
      rcases h.waited waited (hp.trans (by rw [(Bool.not_eq_true' _).mp hunbeaten])) with
        ⟨hle, hwait⟩
      unfold heartbeatIntervalMs at hwait
      omega
  | left =>
      rw [hp] at hunbeaten
      exact Bool.noConfusion hunbeaten

/-- A client that is ready within 35 seconds is never timed out. -/
theorem heard_of_quick (as : List Action)
    (h : Run.EachStep (act (Host.shipped fmt) u script) Quick World.init as) :
    Heard u (as.foldl (act (Host.shipped fmt) u script) World.init) := by
  refine (Run.foldl_inv_of_eachStep (act (Host.shipped fmt) u script)
    (fun w => Clocked u w ∧ Early w ∧ Heard u w) Quick ?_ as World.init
    ⟨clocked_init u, early_init, heard_init u⟩ h).2.2
  rintro w a ⟨hclocked, hearly, hheard⟩ hq
  exact ⟨clocked_act u script _ w a hclocked, early_act u script _ w a hearly hq,
    (heard_act_iff fmt u script w a hclocked hheard).mpr (timely_of_early u w a hearly hq)⟩

end Durations

section Late

/-- A client downloads for a minute. -/
def slowDownload : List Action :=
  let ambient : Ambient := ⟨0, js "p1", js "s1", []⟩
  [.client ambient, .client ambient, .client ambient, .client ambient, .pass 15000, .watchdog,
    .pass 15000, .watchdog, .pass 15000, .watchdog, .pass 15000]

def slowClient : World :=
  slowDownload.foldl (act (Host.shipped (fun _ => [])) (js "u1") ⟨js "c1", 0, 0⟩) World.init

/-- The tick a minute after the connection times it out. -/
theorem not_heard_slowDownload : ¬ ∀ (fmt : NumberFormat) (u : SessionId) (script : Script)
    (as : List Action), Run.Always (act (Host.shipped fmt) u script) (Heard u) World.init as := by
  intro h
  have hrun := h (fun _ => []) (js "u1") ⟨js "c1", 0, 0⟩ (slowDownload ++ [.watchdog])
  have hbefore : Heard (js "u1") slowClient := hrun _ (List.prefix_append _ _)
  have hafter : Heard (js "u1") (act (Host.shipped (fun _ => [])) (js "u1") ⟨js "c1", 0, 0⟩
      slowClient .watchdog) := by
    have hlast := hrun _ (List.prefix_refl _)
    rwa [List.foldl_append] at hlast
  have hclocked : Clocked (js "u1") slowClient := Run.foldl_inv _ _
    (fun w a hw => clocked_act (js "u1") ⟨js "c1", 0, 0⟩ (Host.shipped (fun _ => [])) w a hw) _ _
    (clocked_init _)
  have htimely := (heard_act_iff (fun _ => []) (js "u1") ⟨js "c1", 0, 0⟩ slowClient .watchdog
    hclocked hbefore).mp hafter rfl (by decide) (by decide) (by decide)
  exact absurd htimely (by decide)

end Late

end Heartbeat

end MzzPlork

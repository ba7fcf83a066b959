import MzzPlork.Base.Run
import MzzPlork.Core.ReplicationThreads

/-!
# The Dirty Flag

When an update of the local player can go unsent.

A setter writes a field and then sets the flag. `Tick` looks at the flag,
reads the fields, sends them, and only then clears it. A setter that comes and
goes between the reading and the clearing has its flag cleared with the rest,
and what it wrote is sent by nobody. A setter that is still under way when the
flag is cleared sets it again afterwards, so nothing is lost.

`always_flushed_iff` says that this is all that can happen.

## Main definitions

* `Flushed`: Nothing is in progress, so what is there was sent.
* `Stale`: The clearing that loses an update.

## Theorems

* `settled_turn`: What the flag means while calls are in progress.
* `flushed_turn_iff`: When a turn keeps everything sent.
* `always_flushed_iff`: When a schedule does.
-/

namespace MzzPlork

namespace Sync

namespace Threads

/-- The last state sent is where the player is. -/
def UpToDate (c : Threads) : Prop :=
  ∃ state, c.sent.getLast? = some state ∧ state.position = c.player.position ∧
    state.rotation = c.player.rotation

/-- Where no call is in progress and the flag is clear, the last state sent is
    where the player is. -/
def Flushed (c : Threads) : Prop :=
  c.control = .idle → c.tick = .idle → c.localStateDirty = false → c.UpToDate

/-- The state `Tick` has sent and not yet cleared the flag for. -/
def pending (c : Threads) : Option NetworkState :=
  match c.tick with
  | .sent state => some state
  | .stamped state => some state
  | _ => none

/-- The flag is clear between two ticks only, and a pending state is the last
    one sent. -/
structure Settled (c : Threads) : Prop where
  clear : c.localStateDirty = false → c.tick = .idle
  last : ∀ state, c.pending = some state → c.sent.getLast? = some state

/-- The flag is about to be cleared, no setter is under way, and the player is
    not where `Tick` has seen it. -/
def Stale (c : Threads) (t : Turn) : Prop :=
  match t with
  | .tick => c.control = .idle ∧ ∃ state, c.tick = .stamped state ∧
      ¬ (state.position = c.player.position ∧ state.rotation = c.player.rotation)
  | _ => False

/-- The flag is up while `Tick` is under way. -/
theorem Settled.dirty {c : Threads} (h : c.Settled) (htick : c.tick ≠ .idle) :
    c.localStateDirty = true := by
  by_cases hflag : c.localStateDirty = true
  · exact hflag
  · exact absurd (h.clear (Bool.eq_false_iff.mpr hflag)) htick

/-- Outside of `Tick` there is no step. -/
theorem tickStep_idle (c : Threads) (htick : c.tick = .idle) : c.tickStep = c := by
  simp only [tickStep, htick]

/-- The last step clears the flag and ends the call. -/
theorem tickStep_stamped (c : Threads) (state : NetworkState) (htick : c.tick = .stamped state) :
    c.tickStep = { c with localStateDirty := false, tick := .idle } := by
  simp only [tickStep, htick]

/-- No other step touches the flag. -/
theorem localStateDirty_tickStep (c : Threads) (hne : ∀ state, c.tick ≠ .stamped state) :
    c.tickStep.localStateDirty = c.localStateDirty := by
  rw [tickStep]
  cases htick : c.tick with
  | sawDirty nowMs =>
      simp only []
      split <;> rfl
  | stamped state => exact absurd htick (hne state)
  | _ => rfl

/-- A pending state is the last one sent: it is sent before it is pending, and
    nothing else is sent while it is. -/
theorem Settled.last_tickStep {c : Threads} (h : c.Settled) (state : NetworkState)
    (hstate : c.tickStep.pending = some state) : c.tickStep.sent.getLast? = some state := by
  cases htick : c.tick with
  | idle =>
      rw [c.tickStep_idle htick] at hstate ⊢
      exact h.last state hstate
  | sawDirty nowMs =>
      simp only [tickStep, htick] at hstate
      split at hstate <;> exact absurd hstate (by simp only [pending, reduceCtorEq,
        not_false_eq_true])
  | gotState seen =>
      simp only [tickStep, htick, pending] at hstate ⊢
      rw [← Option.some.inj hstate]
      exact List.getLast?_concat
  | sent seen =>
      simp only [tickStep, htick, pending] at hstate ⊢
      exact h.last state (by rw [pending, htick, ← hstate])
  | _ =>
      simp only [tickStep, htick, pending, reduceCtorEq] at hstate

theorem settled_tickStep (c : Threads) (h : c.Settled) : c.tickStep.Settled := by
  refine ⟨fun hflag => ?_, fun state hstate => h.last_tickStep state hstate⟩
  by_cases hidle : c.tick = .idle
  · rw [c.tickStep_idle hidle]
    exact hidle
  · cases htick : c.tick with
    | stamped state => rw [c.tickStep_stamped state htick]
    -- The flag was up before the step, and still is.
    | _ =>
        rw [c.localStateDirty_tickStep (fun state => by
          simp only [htick, ne_eq, reduceCtorEq, not_false_eq_true]), h.dirty hidle] at hflag
        exact Bool.noConfusion hflag

/-- What the flag means while calls are in progress. -/
theorem settled_turn (c : Threads) (t : Turn) (h : c.Settled) : (turn c t).Settled := by
  cases t with
  | callSetter s =>
      rw [turn, callSetter]
      split
      · exact ⟨h.clear, h.last⟩
      · exact h
  | control =>
      rw [turn, controlStep]
      split
      · exact h
      · exact ⟨h.clear, h.last⟩
      · exact ⟨fun hflag => Bool.noConfusion hflag, h.last⟩
  | callTick nowMs =>
      rw [turn, callTick]
      split
      · split
        · rename_i hdirty
          refine ⟨fun hflag => ?_, fun state hstate => absurd hstate (by
            simp only [pending, reduceCtorEq, not_false_eq_true])⟩
          rw [show c.localStateDirty = false from hflag] at hdirty
          exact Bool.noConfusion hdirty
        · exact h
      · exact h
  | tick => exact c.settled_tickStep h

/-- A step of `Tick` before the last leaves the flag up. -/
theorem Settled.flushed_unstamped {c : Threads} (h : c.Settled) (hf : c.Flushed)
    (hne : ∀ state, c.tick ≠ .stamped state) : c.tickStep.Flushed := by
  by_cases hidle : c.tick = .idle
  · rw [c.tickStep_idle hidle]
    exact hf
  · intro _ _ hclear
    rw [c.localStateDirty_tickStep hne, h.dirty hidle] at hclear
    exact Bool.noConfusion hclear

/-- The last step may only clear the flag of what `Tick` has seen, unless a
    setter is under way and will set it again. -/
theorem Settled.flushed_stamped {c : Threads} (h : c.Settled) (state : NetworkState)
    (htick : c.tick = .stamped state) : c.tickStep.Flushed ↔ ¬ Stale c .tick := by
  have hlast : c.sent.getLast? = some state := h.last state (by rw [pending, htick])
  rw [c.tickStep_stamped state htick]
  constructor
  · rintro hflushed ⟨hcontrol, state', hstate', hnot⟩
    rcases hflushed hcontrol rfl rfl with ⟨last, hgot, hpos, hrot⟩
    have hsame : last = state := Option.some.inj (hgot.symm.trans hlast)
    have hsame' : state' = state := TickPc.stamped.inj (hstate'.symm.trans htick)
    rw [hsame] at hpos hrot
    rw [hsame'] at hnot
    exact hnot ⟨hpos, hrot⟩
  · intro hfresh hcontrol _ _
    by_cases hseen : state.position = c.player.position ∧ state.rotation = c.player.rotation
    · exact ⟨state, hlast, hseen.1, hseen.2⟩
    · exact absurd ⟨hcontrol, state, htick, hseen⟩ hfresh

/-- The tick thread loses an update exactly when it clears the flag of one it
    has not seen. -/
theorem flushed_tickStep_iff (c : Threads) (h : c.Settled) (hf : c.Flushed) :
    c.tickStep.Flushed ↔ ¬ Stale c .tick := by
  by_cases hstamped : ∃ state, c.tick = .stamped state
  · rcases hstamped with ⟨state, htick⟩
    exact h.flushed_stamped state htick
  · have hne : ∀ state, c.tick ≠ .stamped state := fun state htick => hstamped ⟨state, htick⟩
    refine iff_of_true (h.flushed_unstamped hf hne) ?_
    rintro ⟨_, state, htick, _⟩
    exact hne state htick

/-- A turn keeps everything sent unless it loses an update. -/
theorem flushed_turn_iff (c : Threads) (t : Turn) (h : c.Settled) (hf : c.Flushed) :
    (turn c t).Flushed ↔ ¬ Stale c t := by
  cases t with
  | callSetter s =>
      refine iff_of_true ?_ not_false
      rw [turn, callSetter]
      split
      · exact fun hcontrol => absurd hcontrol (by
          simp only [reduceCtorEq, not_false_eq_true])
      · exact hf
  | control =>
      refine iff_of_true ?_ not_false
      rw [turn, controlStep]
      split
      · exact hf
      -- The flag is set before the call is over.
      · exact fun hcontrol => absurd hcontrol (by
          simp only [reduceCtorEq, not_false_eq_true])
      · exact fun _ _ hflag => Bool.noConfusion hflag
  | callTick nowMs =>
      refine iff_of_true ?_ not_false
      rw [turn, callTick]
      split
      · split
        · exact fun _ htick => absurd htick (by
            simp only [reduceCtorEq, not_false_eq_true])
        · exact hf
      · exact hf
  | tick => exact c.flushed_tickStep_iff h hf

end Threads

/-- No update is lost in a schedule exactly when the flag is never cleared,
    outside of setter calls, over a position or rotation that `Tick` has not
    seen. -/
theorem always_flushed_iff (player : Entity) (syncIntervalMs : Int) (ts : List Turn) :
    Run.Always turn Threads.Flushed (Threads.start player syncIntervalMs) ts ↔
      Run.EachStep turn (fun c t => ¬ Threads.Stale c t)
        (Threads.start player syncIntervalMs) ts := by
  refine Run.always_iff_eachStep turn Threads.Settled Threads.settled_turn Threads.Flushed _
    Threads.flushed_turn_iff ts _ ⟨fun hflag => Bool.noConfusion hflag, fun state hstate => ?_⟩
    (fun _ _ hflag => Bool.noConfusion hflag)
  exact absurd hstate (by simp only [Threads.pending, Threads.start, reduceCtorEq,
    not_false_eq_true])

section LostUpdate

/-- A position is set after `Tick` has read it and before it clears the flag. -/
def lostUpdate : List Turn :=
  [.callTick 1000, .tick, .tick, .tick, .callSetter (.position ⟨9, 9, 9⟩), .control, .control,
    .tick, .tick, .tick, .tick, .tick]

/-- The new position is there, the flag is clear, and nothing is under way. -/
theorem not_flushed_lostUpdate : ¬ (lostUpdate.foldl turn
    (Threads.start (Entity.newPlayer (ascii "p") [] true) 100)).Flushed := by
  intro h
  rcases h rfl rfl rfl with ⟨state, hlast, hposition, _⟩
  rw [← Option.some.inj hlast] at hposition
  exact absurd hposition (by decide)

end LostUpdate

end Sync

end MzzPlork

import Mathlib.Data.List.Chain
import MzzPlork.Base.Run
import MzzPlork.Core.ReplicationThreads

/-!
# What Is Sent of the Local Player

However the setters and `Tick` come in between each other, two states that are
sent one after the other are at least the interval apart, and nothing is sent
that the player has not been: a position that is sent was the first one or has
been set, a rotation likewise, and the time is that of a `Tick`.

A state can mix two updates, because its parts are read one after the other.
That is why the parts are spoken of separately.

## Main definitions

* `TickPc.clock`: The time of a `Tick` that will send.
* `Paced`: The states are an interval apart.
* `Sources`: What there is to be sent.
* `Known`: Nothing else is.
* `Measured`: What is sent of the local player.

## Theorems

* `paced_turn`, `known_turn`: Every turn keeps to it.
* `spaced_run`, `known_run`: How often something is sent, and what.
* `measured_run`: Both.
-/

namespace MzzPlork

namespace Sync

/-- The time of a `Tick` that is past its check. -/
def TickPc.clock (tick : TickPc) : Option Int :=
  match tick with
  | .due nowMs | .gotPlayer nowMs | .gotPosition nowMs _ | .gotRotation nowMs _ _ => some nowMs
  | .gotState state => some state.timestampMs
  | .idle | .sawDirty _ | .sent _ | .stamped _ => none

/-- What `lastSentMs_` will be once a `Tick` that has sent has noted it. -/
def Threads.lastMs (c : Threads) : Int :=
  match c.tick with
  | .sent state => state.timestampMs
  | _ => c.lastSentMs

/-- When something was sent, with the time that `lastSentMs_` starts from. -/
def Threads.times (c : Threads) : List Int := 0 :: c.sent.map NetworkState.timestampMs

/-- One state comes at least the interval after another. -/
def Spaced (syncIntervalMs : Int) (times : List Int) : Prop :=
  List.IsChain (fun t t' => t + syncIntervalMs ≤ t') times

/-- The states are the interval apart. -/
structure Paced (syncIntervalMs : Int) (c : Threads) : Prop where
  interval : c.syncIntervalMs = syncIntervalMs
  spaced : Spaced syncIntervalMs c.times
  last : c.times.getLast? = some c.lastMs
  due : ∀ nowMs ∈ c.tick.clock, c.lastSentMs + syncIntervalMs ≤ nowMs

section Pace

variable {c : Threads} {syncIntervalMs : Int}

/-- One more state. -/
theorem Spaced.concat {times : List Int} {t t' : Int} (h : Spaced syncIntervalMs times)
    (hlast : times.getLast? = some t) (hle : t + syncIntervalMs ≤ t') :
    Spaced syncIntervalMs (times ++ [t']) := by
  refine List.isChain_append.mpr ⟨h, List.isChain_singleton t', fun a ha b hb => ?_⟩
  rw [hlast] at ha
  cases ha
  cases hb
  exact hle

/-- A turn of the control thread sends nothing. -/
theorem paced_congr {c' : Threads} (h : Paced syncIntervalMs c)
    (hinterval : c'.syncIntervalMs = c.syncIntervalMs) (hsent : c'.sent = c.sent)
    (hlast : c'.lastSentMs = c.lastSentMs) (htick : c'.tick = c.tick) :
    Paced syncIntervalMs c' := by
  have htimes : c'.times = c.times := by rw [Threads.times, hsent, Threads.times]
  have hlastMs : c'.lastMs = c.lastMs := by rw [Threads.lastMs, htick, hlast, Threads.lastMs]
  refine ⟨hinterval.trans h.interval, ?_, ?_, ?_⟩
  · rw [htimes]
    exact h.spaced
  · rw [htimes, hlastMs]
    exact h.last
  · rw [htick, hlast]
    exact h.due

/-- A turn of the tick thread. The check comes before the reading, and nobody
    else sends in between. -/
theorem paced_tickStep (h : Paced syncIntervalMs c) : Paced syncIntervalMs c.tickStep := by
  rcases h with ⟨hinterval, hspaced, hlast, hdue⟩
  unfold Threads.lastMs at hlast
  unfold Threads.tickStep
  cases htick : c.tick with
  | idle =>
      rw [htick] at hlast
      exact ⟨hinterval, hspaced, by rw [Threads.lastMs, htick]; exact hlast, hdue⟩
  | sawDirty nowMs =>
      rw [htick] at hlast
      dsimp only
      split
      · exact ⟨hinterval, hspaced, hlast, fun _ ht => absurd ht (Option.not_mem_none _)⟩
      -- What the check has found stays so, as nobody else notes a time.
      · refine ⟨hinterval, hspaced, hlast, fun t ht => ?_⟩
        cases ht
        dsimp only
        omega
  | due nowMs | gotPlayer nowMs | gotPosition nowMs position
  | gotRotation nowMs position rotation =>
      rw [htick] at hlast hdue
      exact ⟨hinterval, hspaced, hlast, hdue⟩
  | gotState state =>
      rw [htick] at hlast hdue
      -- The state goes out, and its time is the last one before it is noted.
      refine ⟨hinterval, ?_, ?_, fun _ ht => absurd ht (Option.not_mem_none _)⟩
      · have hmore := hspaced.concat hlast (hdue _ rfl)
        unfold Threads.times at hmore ⊢
        rw [List.map_append]
        exact hmore
      · unfold Threads.times
        rw [List.map_append, ← List.cons_append]
        exact List.getLast?_concat
  | sent state =>
      rw [htick] at hlast
      exact ⟨hinterval, hspaced, hlast, fun _ ht => absurd ht (Option.not_mem_none _)⟩
  | stamped state =>
      rw [htick] at hlast
      exact ⟨hinterval, hspaced, hlast, fun _ ht => absurd ht (Option.not_mem_none _)⟩

/-- One turn. -/
theorem paced_turn (t : Turn) (h : Paced syncIntervalMs c) : Paced syncIntervalMs (turn c t) := by
  cases t with
  | callSetter s =>
      unfold turn Threads.callSetter
      dsimp only
      split
      · exact paced_congr h rfl rfl rfl rfl
      · exact h
  | control =>
      unfold turn Threads.controlStep
      dsimp only
      split
      · exact h
      · exact paced_congr h rfl rfl rfl rfl
      · exact paced_congr h rfl rfl rfl rfl
  | callTick nowMs =>
      unfold turn Threads.callTick
      dsimp only
      split
      · rename_i htick
        split
        · have hlast := h.last
          unfold Threads.lastMs at hlast
          rw [htick] at hlast
          exact ⟨h.interval, h.spaced, hlast, fun _ ht => absurd ht (Option.not_mem_none _)⟩
        · exact h
      · exact h
  | tick => exact paced_tickStep h

theorem paced_start (player : Entity) (syncIntervalMs : Int) :
    Paced syncIntervalMs (Threads.start player syncIntervalMs) :=
  ⟨rfl, List.isChain_singleton 0, rfl, fun _ ht => absurd ht (Option.not_mem_none _)⟩

/-- As many intervals have gone by as there are steps between the times. -/
theorem Spaced.length_mul_le {times : List Int} {first last : Int}
    (h : Spaced syncIntervalMs (first :: times))
    (hlast : (first :: times).getLast? = some last) :
    first + times.length * syncIntervalMs ≤ last := by
  induction times generalizing first with
  | nil =>
      have heq : first = last := Option.some.inj hlast
      rw [List.length_nil, Nat.cast_zero, Int.zero_mul, Int.add_zero, heq]
  | cons t times ih =>
      rcases List.isChain_cons_cons.mp h with ⟨hstep, hrest⟩
      have hle := ih hrest (by rwa [List.getLast?_cons_cons] at hlast)
      rw [List.length_cons, Nat.cast_succ, Int.add_mul, Int.one_mul]
      omega

end Pace

/-- Two states that are sent one after the other are an interval apart, however
    the two threads come in between each other, and the first one is an interval
    away from time zero. -/
theorem spaced_run (player : Entity) (syncIntervalMs : Int) (ts : List Turn) :
    Spaced syncIntervalMs (ts.foldl turn (Threads.start player syncIntervalMs)).times :=
  (Run.foldl_inv turn (Paced syncIntervalMs) (fun _ t h => paced_turn t h) ts _
    (paced_start player syncIntervalMs)).spaced

/-- What there is to be sent: positions, rotations and the times of ticks. -/
structure Sources where
  position : Vector3 → Prop
  rotation : Rotation3 → Prop
  time : Int → Prop

/-- What the player starts with and what the calls of a schedule bring in. -/
def sourcesOf (player : Entity) (ts : List Turn) : Sources where
  position := fun v => v = player.position ∨ .callSetter (.position v) ∈ ts
  rotation := fun v => v = player.rotation ∨ .callSetter (.rotation v) ∈ ts
  time := fun nowMs => .callTick nowMs ∈ ts

/-- A setting of the schedule's. -/
def Sources.setting (sources : Sources) (s : Setting) : Prop :=
  match s with
  | .position v => sources.position v
  | .rotation v => sources.rotation v

/-- A state whose parts are all from somewhere. -/
structure Sources.State (sources : Sources) (player : Entity) (state : NetworkState) : Prop where
  position : sources.position state.position
  rotation : sources.rotation state.rotation
  basicState : state.basicState = player.basicState
  time : sources.time state.timestampMs

/-- What a `Tick` under way has read is from somewhere. -/
def Sources.tick (sources : Sources) (player : Entity) (tick : TickPc) : Prop :=
  match tick with
  | .idle => True
  | .sawDirty nowMs | .due nowMs | .gotPlayer nowMs => sources.time nowMs
  | .gotPosition nowMs position => sources.time nowMs ∧ sources.position position
  | .gotRotation nowMs position rotation =>
    sources.time nowMs ∧ sources.position position ∧ sources.rotation rotation
  | .gotState state | .sent state | .stamped state => sources.State player state

/-- Nothing is there that is not from somewhere. -/
structure Known (sources : Sources) (player : Entity) (c : Threads) : Prop where
  position : sources.position c.player.position
  rotation : sources.rotation c.player.rotation
  basicState : c.player.basicState = player.basicState
  control : ∀ s, c.control = .gotPlayer s → sources.setting s
  tick : sources.tick player c.tick
  sent : ∀ state ∈ c.sent, sources.State player state

section Known

variable {sources : Sources} {player : Entity} {c : Threads}

/-- A setter writes what it was called with. -/
theorem known_controlStep (h : Known sources player c) : Known sources player c.controlStep := by
  unfold Threads.controlStep
  cases hcontrol : c.control with
  | idle => exact h
  | gotPlayer s =>
      have hs := h.control s hcontrol
      cases s with
      | position v =>
          exact ⟨hs, h.rotation, h.basicState, fun _ heq => ControlPc.noConfusion heq, h.tick,
            h.sent⟩
      | rotation v =>
          exact ⟨h.position, hs, h.basicState, fun _ heq => ControlPc.noConfusion heq, h.tick,
            h.sent⟩
  | written =>
      exact ⟨h.position, h.rotation, h.basicState, fun _ heq => ControlPc.noConfusion heq, h.tick,
        h.sent⟩

/-- A `Tick` reads what the player is by then. -/
theorem known_tickStep (h : Known sources player c) : Known sources player c.tickStep := by
  have hmove : ∀ tick : TickPc, sources.tick player tick →
      Known sources player { c with tick := tick } := fun _ ht =>
    ⟨h.position, h.rotation, h.basicState, h.control, ht, h.sent⟩
  have htick := h.tick
  unfold Threads.tickStep
  cases hat : c.tick with
  | idle => exact h
  | sawDirty nowMs =>
      rw [hat] at htick
      dsimp only
      split
      · exact hmove .idle trivial
      · exact hmove (.due nowMs) htick
  | due nowMs =>
      rw [hat] at htick
      exact hmove (.gotPlayer nowMs) htick
  | gotPlayer nowMs =>
      rw [hat] at htick
      exact hmove (.gotPosition nowMs c.player.position) ⟨htick, h.position⟩
  | gotPosition nowMs position =>
      rw [hat] at htick
      exact hmove (.gotRotation nowMs position c.player.rotation) ⟨htick.1, htick.2, h.rotation⟩
  | gotRotation nowMs position rotation =>
      rw [hat] at htick
      exact hmove (.gotState _) ⟨htick.2.1, htick.2.2, h.basicState, htick.1⟩
  | gotState state =>
      rw [hat] at htick
      refine ⟨h.position, h.rotation, h.basicState, h.control, htick, fun seen hseen => ?_⟩
      rcases List.mem_append.mp hseen with hseen | hseen
      · exact h.sent seen hseen
      · rw [List.mem_singleton.mp hseen]
        exact htick
  | sent state =>
      rw [hat] at htick
      exact ⟨h.position, h.rotation, h.basicState, h.control, htick, h.sent⟩
  | stamped state =>
      exact ⟨h.position, h.rotation, h.basicState, h.control, trivial, h.sent⟩

/-- What a turn brings in. -/
def Sources.turn (sources : Sources) (t : Turn) : Prop :=
  match t with
  | .callSetter s => sources.setting s
  | .callTick nowMs => sources.time nowMs
  | .control | .tick => True

/-- One turn, whose own values are from somewhere. -/
theorem known_turn (t : Turn) (ht : sources.turn t) (h : Known sources player c) :
    Known sources player (turn c t) := by
  cases t with
  | callSetter s =>
      unfold turn Threads.callSetter
      dsimp only
      split
      · exact ⟨h.position, h.rotation, h.basicState,
          fun _ heq => (ControlPc.gotPlayer.inj heq) ▸ ht, h.tick, h.sent⟩
      · exact h
  | control => exact known_controlStep h
  | callTick nowMs =>
      unfold turn Threads.callTick
      dsimp only
      split
      · split
        · exact ⟨h.position, h.rotation, h.basicState, h.control, ht, h.sent⟩
        · exact h
      · exact h
  | tick => exact known_tickStep h

end Known

/-- What is sent has been the player's, part by part, at the time of a tick. -/
theorem known_run (player : Entity) (syncIntervalMs : Int) (ts : List Turn) :
    Known (sourcesOf player ts) player (ts.foldl turn (Threads.start player syncIntervalMs)) := by
  refine Run.foldl_inv_of_eachStep turn (Known (sourcesOf player ts) player)
    (fun _ t => t ∈ ts) (fun c t h ht => known_turn t ?_ h) ts _ ?_ ?_
  · cases t with
    | callSetter s => cases s <;> exact Or.inr ht
    | callTick nowMs => exact ht
    | _ => exact trivial
  · exact ⟨Or.inl rfl, Or.inl rfl, rfl, fun _ heq => ControlPc.noConfusion heq, trivial,
      fun _ hsent => absurd hsent List.not_mem_nil⟩
  · rintro pre t ⟨post, hpost⟩
    rw [← hpost]
    exact List.mem_append_left post (List.mem_append_right pre List.mem_cons_self)

/-- What is sent of the local player. -/
structure Measured (player : Entity) (syncIntervalMs : Int) (ts : List Turn)
    (sent : List NetworkState) : Prop where
  spaced : Spaced syncIntervalMs (0 :: sent.map NetworkState.timestampMs)
  rate : ∀ state ∈ sent.getLast?, sent.length * syncIntervalMs ≤ state.timestampMs
  known : ∀ state ∈ sent, (sourcesOf player ts).State player state

/-- However the setters and `Tick` come in between each other, states are sent
    an interval apart, so no more of them than there have been intervals, and
    every part of a state has been the player's. -/
theorem measured_run (player : Entity) (syncIntervalMs : Int) (ts : List Turn) :
    Measured player syncIntervalMs ts
      (ts.foldl turn (Threads.start player syncIntervalMs)).sent := by
  have hspaced := spaced_run player syncIntervalMs ts
  refine ⟨hspaced, fun state hstate => ?_, (known_run player syncIntervalMs ts).sent⟩
  have hlast : (0 :: ((ts.foldl turn (Threads.start player syncIntervalMs)).sent.map
      NetworkState.timestampMs)).getLast? = some state.timestampMs := by
    rw [List.getLast?_cons, List.getLast?_map, hstate]
    rfl
  have hle := Spaced.length_mul_le hspaced hlast
  rw [List.length_map, Int.zero_add] at hle
  exact hle

end Sync

end MzzPlork

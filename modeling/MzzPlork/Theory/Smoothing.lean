import Mathlib.Data.Int.ConditionallyCompleteOrder
import Mathlib.Data.Rat.Cast.Order
import Mathlib.Tactic.Linarith
import Mathlib.Tactic.NormNum
import Mathlib.Tactic.Ring
import MzzPlork.Core.NetworkState

/-!
# Smooth Movement

What a remote player is seen to do between two states.

A new target takes the visible state for its start, so a movement is a chain of
blends, each from wherever the one before it had got to. Along the chain
`within_received` keeps a position between the states received: a blend of two
positions between them is between them.

An angle has no such bound, since a blend goes the short way around and the
angles are not brought back into one turn. What a blend does is bounded by the
`arc` it follows, which is half a turn at most and ends at the target up to
whole turns, whatever the angles are.

## Main definitions

* `progress`: How much of a transition is done.
* `received`: An interpolator after a sequence of states.
* `axes`, `angles`: The coordinates of a position and of a rotation.
* `Within`: Between the states received.
* `arc`: What a transition adds to an angle.

## Theorems

* `within_received`: Positions stay between the states received.
* `position_smooth`: They neither overshoot nor jump.
* `arc_bounds`, `arc_congruent`: An arc is short and ends at the target.
* `rotation_shortest`: Angles go the short way and do not jump.
-/

namespace MzzPlork

namespace Sync

section Blends

variable (a b t : Rat)

theorem lerp_zero : lerp a b 0 = a := by
  rw [lerp, mul_zero, add_zero]

theorem lerp_one : lerp a b 1 = b := by
  rw [lerp, mul_one, add_sub_cancel]

/-- A blend of two numbers above a bound is above it. -/
theorem le_lerp (lo : Rat) (h0 : 0 ≤ t) (h1 : t ≤ 1) (ha : lo ≤ a) (hb : lo ≤ b) :
    lo ≤ lerp a b t := by
  have hstart : 0 ≤ (a - lo) * (1 - t) := mul_nonneg (sub_nonneg.mpr ha) (sub_nonneg.mpr h1)
  have hend : 0 ≤ (b - lo) * t := mul_nonneg (sub_nonneg.mpr hb) h0
  -- The distance from the bound is a blend itself.
  have hsum : lerp a b t - lo = (a - lo) * (1 - t) + (b - lo) * t := by
    rw [lerp]
    ring
  linarith

/-- A blend of two numbers below a bound is below it. -/
theorem lerp_le (hi : Rat) (h0 : 0 ≤ t) (h1 : t ≤ 1) (ha : a ≤ hi) (hb : b ≤ hi) :
    lerp a b t ≤ hi := by
  have hstart : 0 ≤ (hi - a) * (1 - t) := mul_nonneg (sub_nonneg.mpr ha) (sub_nonneg.mpr h1)
  have hend : 0 ≤ (hi - b) * t := mul_nonneg (sub_nonneg.mpr hb) h0
  have hsum : hi - lerp a b t = (hi - a) * (1 - t) + (hi - b) * t := by
    rw [lerp]
    ring
  linarith

/-- What a transition adds to an angle. -/
def arc : Rat :=
  let delta := fmod (b - a + 180) 360
  (if delta < 0 then delta + 360 else delta) - 180

/-- Rounding towards zero is off by less than one. -/
theorem abs_sub_truncate_lt (q : Rat) : |q - truncate q| < 1 := by
  rw [truncate, abs_lt]
  -- Rounded down above zero, and up below it.
  by_cases hq : 0 ≤ q
  · rw [if_pos hq]
    have hle := Int.floor_le q
    have hlt := Int.lt_floor_add_one q
    exact ⟨by linarith, by linarith⟩
  · rw [if_neg hq]
    have hle := Int.le_ceil q
    have hlt := Int.ceil_lt_add_one q
    exact ⟨by linarith, by linarith⟩

/-- A remainder is less than one turn. -/
theorem abs_fmod_lt (x : Rat) : |fmod x 360| < 360 := by
  have hx : x / 360 * 360 = x := by ring
  -- In turns, the remainder is what rounding takes off.
  have heq : fmod x 360 = (x / 360 - truncate (x / 360)) * 360 := by
    rw [fmod, sub_mul, hx]
  rw [heq, abs_mul, abs_of_pos (by norm_num : (0 : Rat) < 360)]
  have hlt := abs_sub_truncate_lt (x / 360)
  linarith

/-- An arc is half a turn at most. -/
theorem arc_bounds : -180 ≤ arc a b ∧ arc a b < 180 := by
  rcases abs_lt.mp (abs_fmod_lt (b - a + 180)) with ⟨hlow, hhigh⟩
  rw [arc]
  -- A negative remainder gets another turn, so it is between none and one.
  split
  · rename_i hneg
    exact ⟨by linarith, by linarith⟩
  · rename_i hpos
    exact ⟨by linarith, by linarith⟩

/-- An arc ends at the target, up to whole turns. -/
theorem arc_congruent : ∃ k : ℤ, a + arc a b = b + 360 * k := by
  rw [arc]
  split
  · refine ⟨1 - truncate ((b - a + 180) / 360), ?_⟩
    rw [fmod]
    push_cast
    ring
  · refine ⟨-truncate ((b - a + 180) / 360), ?_⟩
    rw [fmod]
    push_cast
    ring

end Blends

/-- The coordinates of a position. -/
def axes : List (Vector3 → Rat) := [Vector3.x, Vector3.y, Vector3.z]

/-- The angles of a rotation. -/
def angles : List (Rotation3 → Rat) := [Rotation3.pitch, Rotation3.yaw, Rotation3.roll]

namespace InterpolatedEntity

/-- How much of a transition is done. -/
def progress (i : InterpolatedEntity) (nowMs : Int) : Rat :=
  max 0 (min (if i.durationMs > 0 then ((nowMs - i.transitionStartMs : Int) : Rat) / i.durationMs
    else 1) 1)

section Transition

variable (i : InterpolatedEntity) (nowMs : Int)

/-- What is seen of a position. -/
theorem axis_current (htarget : i.hasTarget = true) (axis : Vector3 → Rat) (haxis : axis ∈ axes) :
    axis (i.current nowMs).position
      = lerp (axis i.previous.position) (axis i.target.position) (i.progress nowMs) := by
  rw [current, htarget]
  simp only [axes, List.mem_cons, List.not_mem_nil, or_false] at haxis
  rcases haxis with rfl | rfl | rfl <;> rfl

/-- What is seen of a rotation. -/
theorem angle_current (htarget : i.hasTarget = true) (angle : Rotation3 → Rat)
    (hangle : angle ∈ angles) :
    angle (i.current nowMs).rotation = angle i.previous.rotation
      + arc (angle i.previous.rotation) (angle i.target.rotation) * i.progress nowMs := by
  rw [current, htarget]
  simp only [angles, List.mem_cons, List.not_mem_nil, or_false] at hangle
  rcases hangle with rfl | rfl | rfl <;> rfl

theorem progress_nonneg : 0 ≤ i.progress nowMs := le_max_left _ _

theorem progress_le_one : i.progress nowMs ≤ 1 := max_le zero_le_one (min_le_right _ _)

/-- A transition starts where it starts. -/
theorem progress_start (hduration : 0 < i.durationMs) : i.progress i.transitionStartMs = 0 := by
  rw [progress, if_pos hduration, sub_self, Int.cast_zero, zero_div, min_eq_left zero_le_one,
    max_self]

/-- It is done when its time is over. -/
theorem progress_done (hduration : 0 < i.durationMs)
    (hdone : i.transitionStartMs + i.durationMs ≤ nowMs) : i.progress nowMs = 1 := by
  have hpos : (0 : Rat) < i.durationMs := Int.cast_pos.mpr hduration
  have helapsed : (i.durationMs : Rat) ≤ ((nowMs - i.transitionStartMs : Int) : Rat) :=
    Int.cast_le.mpr (by omega)
  have hquotient : 1 ≤ ((nowMs - i.transitionStartMs : Int) : Rat) / i.durationMs :=
    (one_le_div hpos).mpr helapsed
  rw [progress, if_pos hduration, min_eq_right hquotient, max_eq_right zero_le_one]

/-- It never goes back. -/
theorem progress_mono : Monotone i.progress := by
  intro now later hle
  rw [progress, progress]
  refine max_le_max_left 0 (min_le_min_right 1 ?_)
  split
  · rename_i hduration
    have hpos : (0 : Rat) ≤ i.durationMs := le_of_lt (Int.cast_pos.mpr hduration)
    exact div_le_div_of_nonneg_right (Int.cast_le.mpr (Int.sub_le_sub_right hle _)) hpos
  · exact le_refl 1

end Transition

section Retarget

variable (i : InterpolatedEntity) (newState : NetworkState) (nowMs : Int)

theorem durationMs_setTarget : (i.setTarget newState nowMs).durationMs = i.durationMs := by
  rw [setTarget]
  split <;> rfl

theorem transitionStartMs_setTarget : (i.setTarget newState nowMs).transitionStartMs = nowMs := by
  rw [setTarget]
  split <;> rfl

theorem hasTarget_setTarget : (i.setTarget newState nowMs).hasTarget = true := by
  rw [setTarget]
  cases i.hasTarget <;> rfl

theorem target_setTarget : (i.setTarget newState nowMs).target = newState := by
  rw [setTarget]
  split <;> rfl

/-- The visible state is where the next transition starts, except for the first
    state, which there is nothing to blend with. -/
theorem previous_setTarget : (i.setTarget newState nowMs).previous
    = if i.hasTarget then i.current nowMs else newState := by
  rw [setTarget]
  cases i.hasTarget <;> rfl

end Retarget

/-- An interpolator after a sequence of states and the times they came at. -/
def received (durationMs : Int) (calls : List (NetworkState × Int)) : InterpolatedEntity :=
  calls.foldl (fun i call => i.setTarget call.1 call.2)
    (new.setInterpolationDurationMs durationMs)

section History

variable (durationMs : Int) (calls : List (NetworkState × Int)) (state : NetworkState)
  (startMs : Int)

theorem received_append : received durationMs (calls ++ [(state, startMs)])
    = (received durationMs calls).setTarget state startMs := by
  rw [received, List.foldl_append]
  rfl

theorem durationMs_received : (received durationMs calls).durationMs = durationMs := by
  induction calls using List.reverseRecOn with
  | nil => rfl
  | append_singleton calls call ih =>
      rw [received_append, durationMs_setTarget, ih]

theorem hasTarget_received : (received durationMs calls).hasTarget = true ↔ calls ≠ [] := by
  induction calls using List.reverseRecOn with
  | nil => exact ⟨fun h => Bool.noConfusion h, fun h => absurd rfl h⟩
  | append_singleton calls call ih =>
      rw [received_append]
      exact ⟨fun _ => List.concat_ne_nil _ _, fun _ => hasTarget_setTarget _ _ _⟩

/-- A coordinate is no lower than one of the states received has it and no
    higher than another has it. -/
def Within (calls : List (NetworkState × Int)) (axis : Vector3 → Rat) (x : Rat) : Prop :=
  (∃ call ∈ calls, axis call.1.position ≤ x) ∧ ∃ call ∈ calls, x ≤ axis call.1.position

theorem Within.append {calls : List (NetworkState × Int)} {axis : Vector3 → Rat} {x : Rat}
    (h : Within calls axis x) (call : NetworkState × Int) : Within (calls ++ [call]) axis x := by
  rcases h with ⟨⟨low, hlow, hle⟩, high, hhigh, hge⟩
  exact ⟨⟨low, List.mem_append_left _ hlow, hle⟩, high, List.mem_append_left _ hhigh, hge⟩

theorem within_last (axis : Vector3 → Rat) :
    Within (calls ++ [(state, startMs)]) axis (axis state.position) :=
  ⟨⟨(state, startMs), List.mem_concat_self, le_refl _⟩,
    (state, startMs), List.mem_concat_self, le_refl _⟩

/-- A blend of two coordinates between the states received is between them. -/
theorem Within.lerp {calls : List (NetworkState × Int)} {axis : Vector3 → Rat} {a b : Rat}
    (ha : Within calls axis a) (hb : Within calls axis b) (t : Rat) (h0 : 0 ≤ t) (h1 : t ≤ 1) :
    Within calls axis (Sync.lerp a b t) := by
  rcases ha with ⟨⟨lowA, hlowA, hleA⟩, highA, hhighA, hgeA⟩
  rcases hb with ⟨⟨lowB, hlowB, hleB⟩, highB, hhighB, hgeB⟩
  constructor
  · rcases le_total a b with hle | hle
    · exact ⟨lowA, hlowA, le_lerp a b t _ h0 h1 hleA (le_trans hleA hle)⟩
    · exact ⟨lowB, hlowB, le_lerp a b t _ h0 h1 (le_trans hleB hle) hleB⟩
  · rcases le_total a b with hle | hle
    · exact ⟨highB, hhighB, lerp_le a b t _ h0 h1 (le_trans hle hgeB) hgeB⟩
    · exact ⟨highA, hhighA, lerp_le a b t _ h0 h1 hgeA (le_trans hle hgeA)⟩

/-- Where a transition starts and where it ends is between the states received.
    The start is a blend itself, of the transition before. -/
theorem within_received (axis : Vector3 → Rat) (haxis : axis ∈ axes) :
    Within (calls ++ [(state, startMs)]) axis
        (axis (received durationMs (calls ++ [(state, startMs)])).previous.position) ∧
      Within (calls ++ [(state, startMs)]) axis
        (axis (received durationMs (calls ++ [(state, startMs)])).target.position) := by
  induction calls using List.reverseRecOn generalizing state startMs with
  | nil => exact ⟨within_last [] state startMs axis, within_last [] state startMs axis⟩
  | append_singleton calls call ih =>
      rw [received_append, previous_setTarget, target_setTarget]
      refine ⟨?_, within_last _ state startMs axis⟩
      have htarget := (hasTarget_received durationMs (calls ++ [call])).mpr (List.concat_ne_nil _ _)
      rw [if_pos htarget, axis_current _ startMs htarget axis haxis]
      rcases ih call.1 call.2 with ⟨hprevious, hlast⟩
      -- What is seen when the target changes is the new start.
      exact (hprevious.lerp hlast _ (progress_nonneg _ _) (progress_le_one _ _)).append _

/-- What a transition starts from and goes to, after a last state. -/
theorem received_last :
    (received durationMs (calls ++ [(state, startMs)])).durationMs = durationMs ∧
      (received durationMs (calls ++ [(state, startMs)])).transitionStartMs = startMs ∧
      (received durationMs (calls ++ [(state, startMs)])).hasTarget = true ∧
      (received durationMs (calls ++ [(state, startMs)])).target = state := by
  refine ⟨durationMs_received durationMs _, ?_⟩
  rw [received_append]
  exact ⟨transitionStartMs_setTarget _ _ _, hasTarget_setTarget _ _ _, target_setTarget _ _ _⟩

end History

section Seen

variable (i : InterpolatedEntity) (hduration : 0 < i.durationMs) (htarget : i.hasTarget = true)

section Position

variable (axis : Vector3 → Rat) (haxis : axis ∈ axes)

include hduration htarget haxis

/-- A position gets to the target. -/
theorem axis_done (nowMs : Int) (hdone : i.transitionStartMs + i.durationMs ≤ nowMs) :
    axis (i.current nowMs).position = axis i.target.position := by
  rw [i.axis_current nowMs htarget axis haxis, i.progress_done nowMs hduration hdone, lerp_one]

/-- A new target does not move what is seen. -/
theorem axis_setTarget (newState : NetworkState) (nowMs : Int) :
    axis ((i.setTarget newState nowMs).current nowMs).position
      = axis (i.current nowMs).position := by
  have hprogress := progress_start (i.setTarget newState nowMs)
    ((i.durationMs_setTarget newState nowMs).symm ▸ hduration)
  rw [transitionStartMs_setTarget] at hprogress
  rw [axis_current _ nowMs (i.hasTarget_setTarget newState nowMs) axis haxis, hprogress, lerp_zero,
    previous_setTarget, if_pos htarget]

end Position

section Rotation

variable (angle : Rotation3 → Rat) (hangle : angle ∈ angles)

/-- What a transition adds to an angle. -/
def turn : Rat := arc (angle i.previous.rotation) (angle i.target.rotation)

include htarget hangle

/-- An angle goes one way: that of the arc. -/
theorem angle_oneWay : Monotone (fun nowMs => angle (i.current nowMs).rotation) ∨
    Antitone (fun nowMs => angle (i.current nowMs).rotation) := by
  simp only [fun nowMs => i.angle_current nowMs htarget angle hangle]
  -- The arc is fixed while a transition lasts, and only its part grows.
  rcases le_total 0 (i.turn angle) with hpos | hneg
  · exact Or.inl (fun now later hle =>
      add_le_add_right (mul_le_mul_of_nonneg_left (i.progress_mono hle) hpos) _)
  · exact Or.inr (fun now later hle =>
      add_le_add_right (mul_le_mul_of_nonpos_left (i.progress_mono hle) hneg) _)

include hduration

/-- It is part of the arc away from where it started. -/
theorem angle_turned (nowMs : Int) :
    |angle (i.current nowMs).rotation - angle (i.current i.transitionStartMs).rotation| ≤ 180 := by
  have harc : |i.turn angle| ≤ 180 := by
    rcases arc_bounds (angle i.previous.rotation) (angle i.target.rotation) with ⟨hlow, hhigh⟩
    exact abs_le.mpr ⟨hlow, le_of_lt hhigh⟩
  have hpart : angle (i.current nowMs).rotation - angle (i.current i.transitionStartMs).rotation
      = i.turn angle * i.progress nowMs := by
    rw [i.angle_current nowMs htarget angle hangle,
      i.angle_current i.transitionStartMs htarget angle hangle, i.progress_start hduration,
      mul_zero, add_zero, add_sub_cancel_left, turn]
  rw [hpart, abs_mul, abs_of_nonneg (i.progress_nonneg nowMs)]
  calc |i.turn angle| * i.progress nowMs ≤ 180 * 1 :=
        mul_le_mul harc (i.progress_le_one nowMs) (i.progress_nonneg nowMs) (by norm_num)
    _ = 180 := mul_one 180

/-- An angle gets to the target, up to whole turns. -/
theorem angle_done (nowMs : Int) (hdone : i.transitionStartMs + i.durationMs ≤ nowMs) :
    ∃ k : ℤ, angle (i.current nowMs).rotation = angle i.target.rotation + 360 * k := by
  rw [i.angle_current nowMs htarget angle hangle, i.progress_done nowMs hduration hdone, mul_one]
  exact arc_congruent _ _

/-- A new target does not turn what is seen. -/
theorem angle_setTarget (newState : NetworkState) (nowMs : Int) :
    angle ((i.setTarget newState nowMs).current nowMs).rotation
      = angle (i.current nowMs).rotation := by
  have hprogress := progress_start (i.setTarget newState nowMs)
    ((i.durationMs_setTarget newState nowMs).symm ▸ hduration)
  rw [transitionStartMs_setTarget] at hprogress
  rw [angle_current _ nowMs (i.hasTarget_setTarget newState nowMs) angle hangle, hprogress,
    mul_zero, add_zero, previous_setTarget, if_pos htarget]

end Rotation

end Seen

section Smooth

variable (durationMs : Int) (hduration : 0 < durationMs) (calls : List (NetworkState × Int))
  (state : NetworkState) (startMs : Int)

include hduration

/-- After any sequence of states a position is between the states received, it
    is the last one's when the transition is over, and a new target leaves it
    where it is. -/
theorem position_smooth (axis : Vector3 → Rat) (haxis : axis ∈ axes) :
    (∀ nowMs, Within (calls ++ [(state, startMs)]) axis
        (axis ((received durationMs (calls ++ [(state, startMs)])).current nowMs).position)) ∧
      (∀ nowMs, startMs + durationMs ≤ nowMs →
        axis ((received durationMs (calls ++ [(state, startMs)])).current nowMs).position
          = axis state.position) ∧
      ∀ newState nowMs,
        axis (((received durationMs (calls ++ [(state, startMs)])).setTarget newState
            nowMs).current nowMs).position
          = axis ((received durationMs (calls ++ [(state, startMs)])).current nowMs).position := by
  rcases within_received durationMs calls state startMs axis haxis with ⟨hprevious, hend⟩
  rcases received_last durationMs calls state startMs with ⟨hdur, hstart, htarget, hlast⟩
  generalize received durationMs (calls ++ [(state, startMs)]) = i at *
  subst hdur hstart hlast
  refine ⟨fun nowMs => ?_, i.axis_done hduration htarget axis haxis,
    i.axis_setTarget hduration htarget axis haxis⟩
  rw [i.axis_current nowMs htarget axis haxis]
  exact hprevious.lerp hend _ (i.progress_nonneg nowMs) (i.progress_le_one nowMs)

/-- After any sequence of states an angle goes one way through at most half a
    turn from where the transition started, it is the last state's up to whole
    turns when the transition is over, and a new target leaves it where it is. -/
theorem rotation_shortest (angle : Rotation3 → Rat) (hangle : angle ∈ angles) :
    (Monotone (fun nowMs =>
          angle ((received durationMs (calls ++ [(state, startMs)])).current nowMs).rotation) ∨
        Antitone (fun nowMs =>
          angle ((received durationMs (calls ++ [(state, startMs)])).current nowMs).rotation)) ∧
      (∀ nowMs,
        |angle ((received durationMs (calls ++ [(state, startMs)])).current nowMs).rotation
            - angle ((received durationMs (calls ++ [(state, startMs)])).current startMs).rotation|
          ≤ 180) ∧
      (∀ nowMs, startMs + durationMs ≤ nowMs → ∃ k : ℤ,
        angle ((received durationMs (calls ++ [(state, startMs)])).current nowMs).rotation
          = angle state.rotation + 360 * k) ∧
      ∀ newState nowMs,
        angle (((received durationMs (calls ++ [(state, startMs)])).setTarget newState
            nowMs).current nowMs).rotation
          = angle ((received durationMs (calls ++ [(state, startMs)])).current nowMs).rotation := by
  rcases received_last durationMs calls state startMs with ⟨hdur, hstart, htarget, hlast⟩
  generalize received durationMs (calls ++ [(state, startMs)]) = i at *
  subst hdur hstart hlast
  exact ⟨i.angle_oneWay htarget angle hangle, i.angle_turned hduration htarget angle hangle,
    i.angle_done hduration htarget angle hangle, i.angle_setTarget hduration htarget angle hangle⟩

end Smooth

section Blended

/-- At the origin, unturned. -/
def atOrigin : NetworkState := ⟨Vector3.zero, Rotation3.zero, [], 0⟩

/-- Ten to the side, and turned almost all the way around. -/
def aside : NetworkState := ⟨⟨10, 0, 0⟩, ⟨0, 350, 0⟩, [], 0⟩

/-- A transition after the second state, the position is that state's. -/
theorem position_smooth_aside :
    ((received 100 ([(atOrigin, 0)] ++ [(aside, 50)])).current 150).position.x = 10 :=
  (position_smooth 100 (by decide) [(atOrigin, 0)] aside 50 Vector3.x
    List.mem_cons_self).2.1 150 (by decide)

/-- The turn to it is a short one. -/
theorem rotation_shortest_aside :
    |((received 100 ([(atOrigin, 0)] ++ [(aside, 50)])).current 150).rotation.yaw
        - ((received 100 ([(atOrigin, 0)] ++ [(aside, 50)])).current 50).rotation.yaw| ≤ 180 :=
  (rotation_shortest 100 (by decide) [(atOrigin, 0)] aside 50 Rotation3.yaw
    (List.mem_cons_of_mem _ List.mem_cons_self)).2.1 150

end Blended

end InterpolatedEntity

end Sync

end MzzPlork

import Mathlib.Data.Rat.Floor
import MzzPlork.Core.ClientJson

/-!
# Network States

`runtime/src/NetworkState.cpp` and `runtime/src/Interpolation.cpp`: what goes
over the wire for an entity, and how a remote entity is moved from one
received state to the next.

Numbers are exact where the source has doubles. The conversion of a number to
an integer drops the fraction; a number outside the integer's range has no
defined conversion in the source and is kept as it is here.

## Main definitions

* `Vector3`, `Rotation3`, `NetworkState`: The snapshot.
* `toJson`, `fromJson`: Its form on the wire.
* `InterpolatedEntity`: The smoothing, `setTarget` and `current`.
-/

namespace MzzPlork

namespace Sync

/-- `Vector3`. -/
structure Vector3 where
  x : Rat
  y : Rat
  z : Rat
  deriving DecidableEq

/-- `Rotation3`, in degrees. -/
structure Rotation3 where
  pitch : Rat
  yaw : Rat
  roll : Rat
  deriving DecidableEq

/-- A default-constructed position. -/
def Vector3.zero : Vector3 := ⟨0, 0, 0⟩

/-- A default-constructed rotation. -/
def Rotation3.zero : Rotation3 := ⟨0, 0, 0⟩

/-- `NetworkState`. -/
structure NetworkState where
  position : Vector3
  rotation : Rotation3
  basicState : ClientObject
  timestampMs : Int

/-- `NetworkState{}`. -/
def NetworkState.default : NetworkState := ⟨Vector3.zero, Rotation3.zero, [], 0⟩

/-- `VectorToJson`. -/
def vectorToJson (v : Vector3) : ClientObject :=
  ((ClientObject.set [] (ascii "x") (.num v.x)).set (ascii "y") (.num v.y)).set (ascii "z")
    (.num v.z)

/-- `VectorFromJson`. A coordinate that is missing or no number is zero. -/
def vectorFromJson (o : ClientObject) : Vector3 where
  x := o.numberAt (ascii "x")
  y := o.numberAt (ascii "y")
  z := o.numberAt (ascii "z")

/-- `RotationToJson`. -/
def rotationToJson (r : Rotation3) : ClientObject :=
  ((ClientObject.set [] (ascii "pitch") (.num r.pitch)).set (ascii "yaw") (.num r.yaw)).set
    (ascii "roll") (.num r.roll)

/-- `RotationFromJson`. -/
def rotationFromJson (o : ClientObject) : Rotation3 where
  pitch := o.numberAt (ascii "pitch")
  yaw := o.numberAt (ascii "yaw")
  roll := o.numberAt (ascii "roll")

/-- `ToJson`. -/
def toJson (state : NetworkState) : ClientObject :=
  (((ClientObject.set [] (ascii "position") (.obj (vectorToJson state.position))).set
    (ascii "rotation") (.obj (rotationToJson state.rotation))).set
    (ascii "basicState") (.obj state.basicState)).set (ascii "timestamp") (.num state.timestampMs)

/-- `static_cast<int64_t>(d)`. -/
def truncate (d : Rat) : Int := if 0 ≤ d then ⌊d⌋ else ⌈d⌉

/-- The fields of a property that is an object. -/
def objectAt (o : ClientObject) (k : Bytes) : Option ClientObject :=
  match o.lookup k with
  | some (.obj fields) => some fields
  | _ => none

/-- `FromJson`. A part that is missing or not an object keeps its default. -/
def fromJson (o : ClientObject) : NetworkState where
  position := match objectAt o (ascii "position") with
    | some fields => vectorFromJson fields
    | none => Vector3.zero
  rotation := match objectAt o (ascii "rotation") with
    | some fields => rotationFromJson fields
    | none => Rotation3.zero
  basicState := (objectAt o (ascii "basicState")).getD []
  timestampMs := truncate (o.numberAt (ascii "timestamp"))

/-- `Lerp`. -/
def lerp (source target t : Rat) : Rat := source + (target - source) * t

/-- `std::fmod`, which takes the sign of its first argument. -/
def fmod (x y : Rat) : Rat := x - truncate (x / y) * y

/-- `LerpAngle`. -/
def lerpAngle (source target t : Rat) : Rat :=
  let delta := fmod (target - source + 180) 360
  let delta := if delta < 0 then delta + 360 else delta
  source + (delta - 180) * t

/-- `InterpolatedEntity`. -/
structure InterpolatedEntity where
  previous : NetworkState
  target : NetworkState
  transitionStartMs : Int
  durationMs : Int
  hasTarget : Bool

namespace InterpolatedEntity

/-- A default-constructed interpolator. -/
def new : InterpolatedEntity := ⟨NetworkState.default, NetworkState.default, 0, 100, false⟩

/-- `Current`. -/
def current (i : InterpolatedEntity) (nowMs : Int) : NetworkState :=
  if !i.hasTarget then NetworkState.default
  else
    let elapsed := nowMs - i.transitionStartMs
    let t : Rat := if i.durationMs > 0 then (elapsed : Rat) / i.durationMs else 1
    let t := max 0 (min t 1)
    { position := {
        x := lerp i.previous.position.x i.target.position.x t
        y := lerp i.previous.position.y i.target.position.y t
        z := lerp i.previous.position.z i.target.position.z t }
      rotation := {
        pitch := lerpAngle i.previous.rotation.pitch i.target.rotation.pitch t
        yaw := lerpAngle i.previous.rotation.yaw i.target.rotation.yaw t
        roll := lerpAngle i.previous.rotation.roll i.target.rotation.roll t }
      basicState := i.target.basicState
      timestampMs := nowMs }

/-- `SetTarget`. The first state is taken over as it is. -/
def setTarget (i : InterpolatedEntity) (newState : NetworkState) (nowMs : Int) :
    InterpolatedEntity :=
  if !i.hasTarget then
    { i with previous := newState, target := newState, transitionStartMs := nowMs,
             hasTarget := true }
  else
    { i with previous := i.current nowMs, target := newState, transitionStartMs := nowMs }

/-- `SetInterpolationDurationMs`. -/
def setInterpolationDurationMs (i : InterpolatedEntity) (ms : Int) : InterpolatedEntity :=
  { i with durationMs := ms }

end InterpolatedEntity

end Sync

end MzzPlork

import MzzPlork.Core.Replication

/-!
# The Threads of Replication

`Replication::SetLocalPosition`, `SetLocalRotation` and `Tick`
(`runtime/src/Replication.cpp`), taken apart into what each thread does between
two points where the other can come in: one locked access of the entity, one
access of an atomic, or one send.

The control thread makes one setter call after the other and the tick thread
one `Tick` after the other. Nothing in these calls removes the local player, so
the pointer `GetPlayer` returns is always the same one.

A turn that does not fit a thread's place in its call changes nothing, so any
list of turns is a schedule.

## Main definitions

* `ControlPc`, `TickPc`: How far the threads are in their calls.
* `Threads`: Both threads and what they share.
* `Turn`, `turn`: One step of one thread.
-/

namespace MzzPlork

namespace Sync

/-- What a setter call sets. -/
inductive Setting where
  | position (v : Vector3)
  | rotation (v : Rotation3)

/-- The control thread: outside of a call, with the player at hand, or with the
    field written and the flag not yet set. -/
inductive ControlPc where
  | idle
  | gotPlayer (s : Setting)
  | written

/-- The tick thread, by what it has read so far. -/
inductive TickPc where
  | idle
  | sawDirty (nowMs : Int)
  | due (nowMs : Int)
  | gotPlayer (nowMs : Int)
  | gotPosition (nowMs : Int) (position : Vector3)
  | gotRotation (nowMs : Int) (position : Vector3) (rotation : Rotation3)
  | gotState (state : NetworkState)
  | sent (state : NetworkState)
  | stamped (state : NetworkState)

/-- Both threads, the local player, the two atomics, and the states that were
    sent. -/
structure Threads where
  player : Entity
  localStateDirty : Bool
  lastSentMs : Int
  syncIntervalMs : Int
  control : ControlPc
  tick : TickPc
  sent : List NetworkState

/-- After `Start`. -/
def Threads.start (player : Entity) (syncIntervalMs : Int) : Threads where
  player := player
  localStateDirty := true
  lastSentMs := 0
  syncIntervalMs := syncIntervalMs
  control := .idle
  tick := .idle
  sent := []

namespace Threads

/-- `SetPosition` or `SetRotation`, under the entity's lock. -/
def applySetting (player : Entity) (s : Setting) : Entity :=
  match s with
  | .position v => { player with position := v }
  | .rotation v => { player with rotation := v }

/-- A setter is called, and gets the player. -/
def callSetter (c : Threads) (s : Setting) : Threads :=
  match c.control with
  | .idle => { c with control := .gotPlayer s }
  | _ => c

/-- The control thread goes on with its call. -/
def controlStep (c : Threads) : Threads :=
  match c.control with
  | .idle => c
  | .gotPlayer s => { c with player := applySetting c.player s, control := .written }
  | .written => { c with localStateDirty := true, control := .idle }

/-- `Tick` is called, and reads the flag. -/
def callTick (c : Threads) (nowMs : Int) : Threads :=
  match c.tick with
  | .idle => if c.localStateDirty then { c with tick := .sawDirty nowMs } else c
  | _ => c

/-- The tick thread goes on with its call. The flag is cleared last. -/
def tickStep (c : Threads) : Threads :=
  match c.tick with
  | .idle => c
  | .sawDirty nowMs =>
    if nowMs - c.lastSentMs < c.syncIntervalMs then { c with tick := .idle }
    else { c with tick := .due nowMs }
  | .due nowMs => { c with tick := .gotPlayer nowMs }
  | .gotPlayer nowMs => { c with tick := .gotPosition nowMs c.player.position }
  | .gotPosition nowMs position =>
    { c with tick := .gotRotation nowMs position c.player.rotation }
  | .gotRotation nowMs position rotation =>
    { c with tick := .gotState {
        position := position
        rotation := rotation
        basicState := c.player.basicState
        timestampMs := nowMs } }
  | .gotState state => { c with sent := c.sent ++ [state], tick := .sent state }
  | .sent state => { c with lastSentMs := state.timestampMs, tick := .stamped state }
  | .stamped _ => { c with localStateDirty := false, tick := .idle }

end Threads

/-- Whose turn it is, and what it starts. -/
inductive Turn where
  | callSetter (s : Setting)
  | control
  | callTick (nowMs : Int)
  | tick

/-- One turn. -/
def turn (c : Threads) (t : Turn) : Threads :=
  match t with
  | .callSetter s => c.callSetter s
  | .control => c.controlStep
  | .callTick nowMs => c.callTick nowMs
  | .tick => c.tickStep

end Sync

end MzzPlork

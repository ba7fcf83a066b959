import Mathlib.Logic.Function.Basic
import MzzPlork.Core.NetworkState

/-!
# Replication

`runtime/src/EntityManager.cpp` and `runtime/src/Replication.cpp`, one call
after another: the players a client knows of, what the server's presence and
state events do to them, and the sending of its own state.

`Publish` calls the one handler `Start` has subscribed for a type, so an event
is its handler. The threads that make these calls are taken apart in
`ReplicationThreads`.

## Main definitions

* `Entity`: A player.
* `Replication`: The entities, the interpolators and the sender's bookkeeping.
* `start`: `Replication::Start`.
* `onPlayerJoined`, `onPlayerLeft`, `onPlayerState`: The event handlers.
* `getInterpolatedState`: What a renderer asks for.
* `setLocalPosition`, `setLocalRotation`, `tick`: The local player.
* `Event`, `step`: One call.
-/

namespace MzzPlork

namespace Sync

/-- `EntityType`. -/
inductive EntityType where
  | player
  deriving DecidableEq, Repr

/-- An `Entity`, with the name a `Player` has on top. -/
structure Entity where
  id : Bytes
  type : EntityType
  isLocal : Bool
  displayName : Bytes
  position : Vector3
  rotation : Rotation3
  basicState : ClientObject

/-- `Player(playerId, displayName, isLocal)`. -/
def Entity.newPlayer (playerId displayName : Bytes) (isLocal : Bool) : Entity where
  id := playerId
  type := .player
  isLocal := isLocal
  displayName := displayName
  position := Vector3.zero
  rotation := Rotation3.zero
  basicState := []

/-- `Replication`, with the `EntityManager` it works on and the states it has
    passed to `SendPlayerState`. -/
structure Replication where
  localPlayerId : Bytes
  localDisplayName : Bytes
  entities : Bytes → Option Entity
  interpolators : Bytes → Option InterpolatedEntity
  localStateDirty : Bool
  lastSentMs : Int
  syncIntervalMs : Int
  interpolationDurationMs : Int
  sent : List NetworkState

namespace Replication

/-- `Replication(...)`, on an empty `EntityManager`. -/
def new (localPlayerId localDisplayName : Bytes) (syncIntervalMs interpolationDurationMs : Int) :
    Replication where
  localPlayerId := localPlayerId
  localDisplayName := localDisplayName
  entities := fun _ => none
  interpolators := fun _ => none
  localStateDirty := true
  lastSentMs := 0
  syncIntervalMs := syncIntervalMs
  interpolationDurationMs := interpolationDurationMs
  sent := []

/-- `EntityManager::CreatePlayer`. -/
def createPlayer (r : Replication) (playerId displayName : Bytes) (isLocal : Bool) :
    Replication :=
  { r with
    entities := Function.update r.entities playerId
      (some (Entity.newPlayer playerId displayName isLocal)) }

/-- `EntityManager::DestroyEntity`. -/
def destroyEntity (r : Replication) (id : Bytes) : Replication :=
  { r with entities := Function.update r.entities id none }

/-- `EntityManager::GetPlayer`. -/
def getPlayer (r : Replication) (id : Bytes) : Option Entity :=
  (r.entities id).filter (fun e => e.type = .player)

/-- `EntityManager::Contains`. -/
def contains (r : Replication) (id : Bytes) : Bool := (r.entities id).isSome

/-- Write through a pointer that `getPlayer` returned. -/
def write (r : Replication) (id : Bytes) (e : Entity) : Replication :=
  { r with entities := Function.update r.entities id (some e) }

/-- `Start`. -/
def start (r : Replication) : Replication :=
  r.createPlayer r.localPlayerId r.localDisplayName true

/-- `SetLocalPosition`. -/
def setLocalPosition (r : Replication) (position : Vector3) : Replication :=
  match r.getPlayer r.localPlayerId with
  | none => r
  | some player =>
    { r.write r.localPlayerId { player with position := position } with localStateDirty := true }

/-- `SetLocalRotation`. -/
def setLocalRotation (r : Replication) (rotation : Rotation3) : Replication :=
  match r.getPlayer r.localPlayerId with
  | none => r
  | some player =>
    { r.write r.localPlayerId { player with rotation := rotation } with localStateDirty := true }

/-- What `Tick` sends. -/
def snapshot (player : Entity) (nowMs : Int) : NetworkState where
  position := player.position
  rotation := player.rotation
  basicState := player.basicState
  timestampMs := nowMs

/-- `Tick`. -/
def tick (r : Replication) (nowMs : Int) : Replication :=
  if !r.localStateDirty then r
  else if nowMs - r.lastSentMs < r.syncIntervalMs then r
  else
    match r.getPlayer r.localPlayerId with
    | none => r
    | some player =>
      { r with
        sent := r.sent ++ [snapshot player nowMs]
        lastSentMs := nowMs
        localStateDirty := false }

/-- `data.find("playerId")` and `AsString`, in all three handlers. -/
def playerIdOf (data : ClientObject) : Option Bytes :=
  (data.lookup (ascii "playerId")).map (fun v => v.asString [])

/-- `OnPlayerJoined`. -/
def onPlayerJoined (r : Replication) (data : ClientObject) : Replication :=
  match playerIdOf data with
  | none => r
  | some playerId =>
    if playerId = [] ∨ playerId = r.localPlayerId ∨ r.contains playerId = true then r
    else r.createPlayer playerId (data.stringAt (ascii "displayName") []) false

/-- `OnPlayerLeft`. The id is not compared with the local one here. -/
def onPlayerLeft (r : Replication) (data : ClientObject) : Replication :=
  match playerIdOf data with
  | none => r
  | some playerId =>
    if playerId = [] then r
    else
      { r.destroyEntity playerId with
        interpolators := Function.update r.interpolators playerId none }

/-- The entity a state is applied to, created where there is none. -/
def getOrCreatePlayer (r : Replication) (playerId : Bytes) : Replication × Entity :=
  match r.getPlayer playerId with
  | some player => (r, player)
  | none => (r.createPlayer playerId [] false, Entity.newPlayer playerId [] false)

/-- `OnPlayerState`, received at the given time. -/
def onPlayerState (r : Replication) (data : ClientObject) (receivedAtMs : Int) : Replication :=
  match playerIdOf data with
  | none => r
  | some playerId =>
    if playerId = [] ∨ playerId = r.localPlayerId then r
    else
      let state := fromJson data
      let (r, player) := r.getOrCreatePlayer playerId
      let r := r.write playerId { player with
        position := state.position, rotation := state.rotation, basicState := state.basicState }
      let interpolator := (r.interpolators playerId).getD InterpolatedEntity.new
      { r with
        interpolators := Function.update r.interpolators playerId
          (some ((interpolator.setInterpolationDurationMs r.interpolationDurationMs).setTarget
            state receivedAtMs)) }

/-- `GetInterpolatedState`. It returns nothing where the source returns `false`. -/
def getInterpolatedState (r : Replication) (entityId : Bytes) (nowMs : Int) :
    Option NetworkState :=
  (r.interpolators entityId).map (fun i => i.current nowMs)

end Replication

/-- The calls. -/
inductive Event where
  | playerJoined (data : ClientObject)
  | playerLeft (data : ClientObject)
  | playerState (data : ClientObject) (receivedAtMs : Int)
  | setLocalPosition (position : Vector3)
  | setLocalRotation (rotation : Rotation3)
  | tick (nowMs : Int)

/-- One call. -/
def step (r : Replication) (e : Event) : Replication :=
  match e with
  | .playerJoined data => r.onPlayerJoined data
  | .playerLeft data => r.onPlayerLeft data
  | .playerState data receivedAtMs => r.onPlayerState data receivedAtMs
  | .setLocalPosition position => r.setLocalPosition position
  | .setLocalRotation rotation => r.setLocalRotation rotation
  | .tick nowMs => r.tick nowMs

end Sync

end MzzPlork

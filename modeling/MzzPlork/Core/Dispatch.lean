import MzzPlork.Core.Replication
import MzzPlork.Core.ServerConnection

/-!
# From Messages to Entities

`runtime/src/EventSystem.cpp` with what `Replication::Start` subscribes, and
the event branch of `ProtocolClient::OnMessage` in front of it: what a message
of the server does to the entities.

An event goes to the handlers that were subscribed for its type, in the order
of their subscription. The clock is read by the handler that needs it.

## Main definitions

* `Handlers`, `publish`: The subscriptions, and a call of `Publish`.
* `replicationHandlers`: What `Start` subscribes.
* `onMessage`: One message.
* `ClientCall`, `clientStep`: One message, or a call of the client's own.
-/

namespace MzzPlork

namespace Sync

/-- `handlers_`: the subscriptions in their order. A handler gets the data of
    the event and what the clock says. -/
abbrev Handlers := List (Bytes × (Replication → ClientObject → Int → Replication))

/-- `Publish`. -/
def publish (handlers : Handlers) (eventType : Bytes) (data : ClientObject) (nowMs : Int)
    (r : Replication) : Replication :=
  (handlers.filter (fun h => h.1 = eventType)).foldl (fun r h => h.2 r data nowMs) r

namespace Replication

/-- The subscriptions of `Start`. -/
def replicationHandlers : Handlers :=
  [(ascii "player_joined", fun r data _ => r.onPlayerJoined data),
    (ascii "player_left", fun r data _ => r.onPlayerLeft data),
    (ascii "player_state", fun r data nowMs => r.onPlayerState data nowMs)]

/-- `OnMessage`, where the event sink is `Publish`. -/
def onMessage (r : Replication) (message : Wire.ServerMessage) (nowMs : Int) : Replication :=
  match Wire.eventOf message with
  | some (eventType, data) => publish replicationHandlers eventType data nowMs r
  | none => r

end Replication

/-- What a client does with its replication once it has started: a message is
    handled when the clock says so much, the control channel moves the local
    player, or the loop of the sender comes round. -/
inductive ClientCall where
  | message (message : Wire.ServerMessage) (nowMs : Int)
  | setLocalPosition (position : Vector3)
  | setLocalRotation (rotation : Rotation3)
  | tick (nowMs : Int)

/-- The message that is handled, if it is one. -/
def ClientCall.received : ClientCall → Option Wire.ServerMessage
  | .message m _ => some m
  | _ => none

/-- One call. -/
def Replication.clientStep (r : Replication) : ClientCall → Replication
  | .message message nowMs => r.onMessage message nowMs
  | .setLocalPosition position => r.setLocalPosition position
  | .setLocalRotation rotation => r.setLocalRotation rotation
  | .tick nowMs => r.tick nowMs

end Sync

end MzzPlork

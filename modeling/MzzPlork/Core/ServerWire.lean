import MzzPlork.Core.JsonParse
import MzzPlork.Core.MessageFramer
import MzzPlork.Core.Protocol
import MzzPlork.Core.TcpServer

/-!
# The Server's Messages on the Wire

What the calls of `session.send` in `server/src/tcpServer.js` and
`server/src/eventBus.js` pass on: a type and a payload object, which
`encodeMessage` makes a line of.

A property whose value is `undefined` is left out by `JSON.stringify`, so it is
left out here. That concerns the reason of a `hello_ack` and whatever a client
left out of its state.

In the other direction, what the framer emits for a session is an event of the
server.

## Main definitions

* `ServerEvent.eventType`, `ServerEvent.data`: The parts of an `event`.
* `ServerMessage.type`, `ServerMessage.payload`: The arguments of `send`.
* `ServerMessage.line`: The line that is written.
* `MessageType.ofText`, `Event.ofFramer`: What the framer emits, as an event.
-/

namespace MzzPlork

namespace Server

/-- The properties of an object literal that are not `undefined`. -/
def defined (fields : List (JsString × Option JsValue)) : List (JsString × JsValue) :=
  fields.filterMap (fun f => f.2.map (fun v => (f.1, v)))

/-- `lastPlayerState`, spread into another object. -/
def PlayerState.fields (st : PlayerState) : List (JsString × JsValue) :=
  defined [(js "position", st.position), (js "rotation", st.rotation),
    (js "basicState", st.basicState), (js "timestamp", st.timestamp)]

/-- The `eventType` of an event. -/
def ServerEvent.eventType : ServerEvent → JsString
  | .playerJoined _ _ => js "player_joined"
  | .playerLeft _ => js "player_left"
  | .playerState _ _ => js "player_state"
  | .playerReady _ _ => js "player_ready"

/-- The `data` of an event. -/
def ServerEvent.data : ServerEvent → List (JsString × JsValue)
  | .playerJoined playerId displayName =>
    [(js "playerId", playerId), (js "displayName", displayName)]
  | .playerLeft playerId => [(js "playerId", playerId)]
  | .playerState playerId st => (js "playerId", playerId) :: st.fields
  | .playerReady playerId displayName =>
    [(js "playerId", playerId), (js "displayName", displayName)]

namespace ServerMessage

/-- The type of a message. -/
def type : ServerMessage → JsString
  | .helloAck _ _ _ => js "hello_ack"
  | .authResult _ => js "auth_result"
  | .heartbeatAck _ => js "heartbeat_ack"
  | .resourceManifest _ _ => js "resource_manifest"
  | .event _ => js "event"
  | .resourcesReadyAck => js "resources_ready_ack"
  | .kick _ => js "kick"

/-- The payload of a message. -/
def payload : ServerMessage → List (JsString × JsValue)
  | .helloAck ok version reason =>
    (js "ok", .bool ok) :: (js "protocolVersion", .str version)
      :: defined [(js "reason", reason.map Json.str)]
  | .authResult result =>
    [(js "ok", .bool result.ok), (js "playerId", result.playerId),
      (js "sessionId", .str result.sessionId), (js "displayName", result.displayName)]
  | .heartbeatAck serverTimeMs => [(js "serverTimeMs", .num (.finite serverTimeMs))]
  -- A port in the manifest would be overwritten.
  | .resourceManifest manifest httpPort =>
    JsonParse.setField manifest (js "httpPort") (.num (.finite httpPort))
  | .event e => [(js "eventType", .str e.eventType), (js "data", .obj e.data)]
  | .resourcesReadyAck => [(js "ok", .bool true)]
  | .kick reason => [(js "reason", reason)]

/-- The line that is written for a message. -/
def line (fmt : NumberFormat) (m : ServerMessage) : JsString :=
  Wire.encodeMessage fmt m.type (some (.obj m.payload))

end ServerMessage

/-- The cases of `switch (type)`. -/
def MessageType.ofText (type : JsString) : MessageType :=
  if type = js "hello" then .hello
  else if type = js "auth" then .auth
  else if type = js "heartbeat" then .heartbeat
  else if type = js "resource_manifest_request" then .resourceManifestRequest
  else if type = js "player_state" then .playerState
  else if type = js "resources_ready" then .resourcesReady
  else if type = js "disconnect" then .disconnect
  else .unknown type

/-- The handlers of the framer of a session. -/
def Event.ofFramer (u : SessionId) (ambient : Ambient) : Wire.FramerEvent → Event
  | .message type payload => .message u (MessageType.ofText type) (some payload) ambient
  | .protocolError _ => .protocolError u

end Server

end MzzPlork

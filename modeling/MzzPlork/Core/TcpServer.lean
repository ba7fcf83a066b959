import MzzPlork.Core.Session

/-!
# The Server's Control Channel

`server/src/tcpServer.js` and the broadcasts of `server/src/eventBus.js`: what
the server does with connections, messages, closed sockets, the heartbeat
watchdog and its own shutdown.

The server's state is the session objects ever created, the `sessions` map in
its insertion order, and two logs: every call of a session's `send`, whether
or not the socket still accepted it, and every `sessionDisconnected`. A
session that has left the map keeps its object, because the handlers of its
socket still hold it.

JavaScript runs one handler at a time, so an event is one step. An exception
inside a message handler is caught by the framer and ends that handler where
it was thrown, with everything before it done. Exceptions come from string
conversions of client values only. The handlers are written with their own
conversions as `match`es on `none`.

What only goes to the log file is left out, except that writing the log line
converts values and can therefore throw.

## Main definitions

* `ServerMessage`, `ServerEvent`: What the server sends.
* `TcpServer`: The state.
* `disconnectSession`: Removal of a session.
* `onHello`, `onAuth`, `onHeartbeat`, `onResourceManifestRequest`,
  `onPlayerState`, `onResourcesReady`, `onDisconnect`: The message handlers.
* `Event`, `step`: One turn of the event loop.
-/

namespace MzzPlork

namespace Server

/-- `session.id`, a random id. -/
abbrev SessionId := JsString

/-- The `event` messages, by their `eventType`. -/
inductive ServerEvent where
  | playerJoined (playerId displayName : JsValue)
  | playerLeft (playerId : JsValue)
  | playerState (playerId : JsValue) (state : PlayerState)
  | playerReady (playerId displayName : JsValue)

/-- The messages of the server. -/
inductive ServerMessage where
  | helloAck (ok : Bool) (version : JsString) (reason : Option JsString)
  | authResult (result : AuthResult)
  | heartbeatAck (serverTimeMs : Int)
  | resourceManifest (manifest : List (JsString × JsValue)) (httpPort : Int)
  | event (e : ServerEvent)
  | resourcesReadyAck
  | kick (reason : JsValue)

/-- The message types the handler tells apart. -/
inductive MessageType where
  | hello
  | auth
  | heartbeat
  | resourceManifestRequest
  | playerState
  | resourcesReady
  | disconnect
  | unknown (type : JsString)

/-- What is fixed while the server runs: its configuration and how the
    language writes numbers. -/
structure Host where
  fmt : NumberFormat
  heartbeatTimeoutMs : Int
  httpPort : Int

/-- The configuration of `server/config.json`. -/
def Host.shipped (fmt : NumberFormat) : Host where
  fmt := fmt
  heartbeatTimeoutMs := 45000
  httpPort := 7778

/-- What a handler gets from outside while it runs: the clock, the random ids
    it may draw, and the current manifest. -/
structure Ambient where
  now : Int
  playerUuid : JsString
  sessionUuid : JsString
  manifest : List (JsString × JsValue)

/-- The server. -/
structure TcpServer where
  objs : SessionId → Option Session
  sessions : List SessionId
  log : List (SessionId × ServerMessage)
  disconnected : List SessionId

/-- A server nobody has connected to. -/
def TcpServer.init : TcpServer where
  objs := fun _ => none
  sessions := []
  log := []
  disconnected := []

namespace TcpServer

/-- A session's `authenticated` flag. -/
def authenticated (srv : TcpServer) (u : SessionId) : Bool :=
  match srv.objs u with
  | some o => o.authenticated
  | none => false

/-- A session's `playerId`. -/
def playerId (srv : TcpServer) (u : SessionId) : JsValue :=
  match srv.objs u with
  | some o => o.playerId
  | none => .null

/-- Calls of `send`, in order. -/
def emit (srv : TcpServer) (calls : List (SessionId × ServerMessage)) : TcpServer :=
  { srv with log := srv.log ++ calls }

/-- `session.send(...)`. -/
def send (srv : TcpServer) (u : SessionId) (m : ServerMessage) : TcpServer := srv.emit [(u, m)]

/-- Assign fields of a session object. -/
def modify (srv : TcpServer) (u : SessionId) (f : Session → Session) : TcpServer :=
  { srv with objs := Function.update srv.objs u ((srv.objs u).map f) }

/-- `eventBus.broadcast`. -/
def broadcast (srv : TcpServer) (e : ServerEvent) : TcpServer :=
  srv.emit ((srv.sessions.filter srv.authenticated).map (fun s => (s, .event e)))

/-- `eventBus.broadcastExcept`. -/
def broadcastExcept (srv : TcpServer) (excluded : SessionId) (e : ServerEvent) : TcpServer :=
  srv.emit ((srv.sessions.filter (fun s => srv.authenticated s && s ≠ excluded)).map
    (fun s => (s, .event e)))

/-- `sessions.delete(id)`. -/
def delete (srv : TcpServer) (u : SessionId) : TcpServer :=
  { srv with sessions := srv.sessions.filter (· ≠ u) }

/-- The rest of `disconnectSession` once the session is known to be in the map
    and the reason to have a text. -/
def removeSession (srv : TcpServer) (u : SessionId) (reason : JsValue) : TcpServer :=
  let srv := (srv.send u (.kick reason)).delete u
  -- The session is out of the map already when the others are told.
  let srv := if srv.authenticated u then
    srv.broadcastExcept u (.playerLeft (srv.playerId u)) else srv
  let srv := srv.modify u (fun o => o.transitionTo .disconnected)
  { srv with disconnected := srv.disconnected ++ [u] }

/-- `disconnectSession`. The log line converts the reason, so a reason without
    a text leaves the session in the map, on its way to disconnecting. -/
def disconnectSession (srv : TcpServer) (host : Host) (u : SessionId) (reason : JsValue) :
    TcpServer :=
  if u ∉ srv.sessions then srv
  else
    -- A rejected transition is only logged.
    let srv := srv.modify u (fun o => o.transitionTo .disconnecting)
    match JsValue.toText host.fmt reason with
    | none => srv
    | some _ => srv.removeSession u reason

/-- `hello`. The flag and the version are set before the version is looked at. -/
def onHello (srv : TcpServer) (host : Host) (u : SessionId) (payload : JsValue) : TcpServer :=
  let version := payload.field (js "protocolVersion")
  let srv := srv.modify u (fun o =>
    { o with helloReceived := true, clientProtocolVersion := version })
  match isProtocolCompatible host.fmt version, JsValue.textOf host.fmt version with
  | some true, _ =>
    (srv.send u (.helloAck true protocolVersion none)).modify u
      (fun o => o.transitionTo .authenticating)
  -- The reason quotes the version, and so needs its text too.
  | some false, some text =>
    (srv.send u (.helloAck false protocolVersion (some (js "protocol version " ++ text
      ++ js " is incompatible with server " ++ protocolVersion)))).disconnectSession host u
        (.str (js "incompatible protocol version"))
  | _, _ => srv

/-- What a newcomer is told about one of the others. -/
def introduction (srv : TcpServer) (u s : SessionId) : List (SessionId × ServerMessage) :=
  match srv.objs s with
  | none => []
  | some other =>
    (u, .event (.playerJoined other.playerId other.displayName)) ::
      match other.lastPlayerState with
      | none => []
      | some st => [(u, .event (.playerState other.playerId st))]

/-- What a newcomer is told about the sessions already there. -/
def backfill (srv : TcpServer) (u : SessionId) : List (SessionId × ServerMessage) :=
  (srv.sessions.filter (fun s => s ≠ u && srv.authenticated s)).flatMap (srv.introduction u)

/-- `auth`, once a result has been issued. -/
def welcome (srv : TcpServer) (u : SessionId) (clientId : JsValue) (result : AuthResult) :
    TcpServer :=
  let srv := srv.modify u (fun o => { o with
    authenticated := result.ok, clientId := clientId, playerId := result.playerId,
    displayName := result.displayName })
  let srv := srv.send u (.authResult result)
  if result.ok then
    let srv := srv.modify u (fun o => o.transitionTo .authenticated)
    -- The newcomer hears of the others before they hear of it.
    let srv := srv.emit (srv.backfill u)
    srv.broadcastExcept u (.playerJoined result.playerId result.displayName)
  else srv

/-- `auth`. -/
def onAuth (srv : TcpServer) (host : Host) (u : SessionId) (o : Session) (payload : JsValue)
    (ambient : Ambient) : TcpServer :=
  -- A hello that was turned down counts as received.
  if !o.helloReceived then srv.disconnectSession host u (.str (js "auth before hello"))
  else
    match authenticate host.fmt (payload.field (js "clientId"))
      (payload.field (js "displayName")) ambient.playerUuid ambient.sessionUuid with
    | none => srv
    | some result =>
      srv.welcome u (JsValue.orElse (payload.field (js "clientId")) .null) result

/-- `heartbeat`. -/
def onHeartbeat (srv : TcpServer) (u : SessionId) (ambient : Ambient) : TcpServer :=
  (srv.modify u (fun o => { o with lastHeartbeatAt := ambient.now })).send u
    (.heartbeatAck ambient.now)

/-- `resource_manifest_request`. -/
def onResourceManifestRequest (srv : TcpServer) (host : Host) (u : SessionId) (o : Session)
    (ambient : Ambient) : TcpServer :=
  if !o.authenticated then
    srv.disconnectSession host u (.str (js "resource manifest requested before authentication"))
  else srv.send u (.resourceManifest ambient.manifest host.httpPort)

/-- `player_state`. -/
def onPlayerState (srv : TcpServer) (host : Host) (u : SessionId) (o : Session)
    (payload : JsValue) : TcpServer :=
  if !o.authenticated then
    srv.disconnectSession host u (.str (js "player_state before authentication"))
  else
    let st : PlayerState := {
      position := payload.field (js "position")
      rotation := payload.field (js "rotation")
      basicState := payload.field (js "basicState")
      timestamp := payload.field (js "timestamp") }
    (srv.modify u (fun o => { o with lastPlayerState := some st })).broadcastExcept u
      (.playerState o.playerId st)

/-- `resources_ready`. The log line converts the two counts, so counts without
    a text end the handler before anything is sent. -/
def onResourcesReady (srv : TcpServer) (host : Host) (u : SessionId) (o : Session)
    (payload : JsValue) : TcpServer :=
  if !o.authenticated then
    srv.disconnectSession host u (.str (js "resources_ready before authentication"))
  else
    let srv := srv.modify u (fun o => { o with resourcesReady := true })
    match JsValue.textOf host.fmt (payload.field (js "loadedCount")),
      JsValue.textOf host.fmt (payload.field (js "failedCount")) with
    | some _, some _ =>
      (srv.send u .resourcesReadyAck).broadcast (.playerReady o.playerId o.displayName)
    | _, _ => srv

/-- `disconnect`. -/
def onDisconnect (srv : TcpServer) (host : Host) (u : SessionId) (payload : JsValue) :
    TcpServer :=
  srv.disconnectSession host u (JsValue.orElse (payload.field (js "reason"))
    (.str (js "client requested disconnect")))

/-- The handler of one message. -/
def onMessage (srv : TcpServer) (host : Host) (u : SessionId) (o : Session) (type : MessageType)
    (payload : JsValue) (ambient : Ambient) : TcpServer :=
  match type with
  | .hello => srv.onHello host u payload
  | .auth => srv.onAuth host u o payload ambient
  | .heartbeat => srv.onHeartbeat u ambient
  | .resourceManifestRequest => srv.onResourceManifestRequest host u o ambient
  | .playerState => srv.onPlayerState host u o payload
  | .resourcesReady => srv.onResourcesReady host u o payload
  | .disconnect => srv.onDisconnect host u payload
  | .unknown _ => srv

/-- A socket was accepted. -/
def onConnection (srv : TcpServer) (u : SessionId) (now : Int) : TcpServer :=
  { srv with
    objs := Function.update srv.objs u (some (Session.new now))
    sessions := srv.sessions ++ [u] }

/-- One session of a watchdog tick. -/
def checkHeartbeat (host : Host) (now : Int) (srv : TcpServer) (u : SessionId) : TcpServer :=
  match srv.objs u with
  | none => srv
  | some o =>
    if o.isHeartbeatExpired host.heartbeatTimeoutMs now then
      srv.disconnectSession host u (.str (js "heartbeat timeout"))
    else srv

end TcpServer

/-- What can happen to the server. A line that is not a message only reaches
    the log. The payload of a message is whatever the line had for one. -/
inductive Event where
  | connect (u : SessionId) (now : Int)
  | message (u : SessionId) (type : MessageType) (payload : Option JsValue) (ambient : Ambient)
  | protocolError (u : SessionId)
  | close (u : SessionId)
  | watchdog (now : Int)
  | shutdown

/-- One turn of the event loop. Random ids do not repeat, so a connection
    under a known id is not something that happens, and neither is anything
    about a socket that was never accepted. -/
def step (host : Host) (srv : TcpServer) (e : Event) : TcpServer :=
  match e with
  | .connect u now => if (srv.objs u).isSome then srv else srv.onConnection u now
  | .message u type payload ambient =>
    match srv.objs u with
    | none => srv
    | some o => srv.onMessage host u o type (JsValue.orElse payload (.obj [])) ambient
  | .protocolError _ => srv
  -- A no-op where the session was disconnected before.
  | .close u => srv.disconnectSession host u (.str (js "connection closed"))
  -- `Array.from`: the sessions are those at the start of the tick.
  | .watchdog now => srv.sessions.foldl (TcpServer.checkHeartbeat host now) srv
  | .shutdown => srv.sessions.foldl
      (fun acc u => acc.disconnectSession host u (.str (js "server shutting down"))) srv

end Server

end MzzPlork

import MzzPlork.Core.ClientEvents
import MzzPlork.Core.HeartbeatRun
import MzzPlork.Core.ResourceManager
import MzzPlork.Core.ServerWire

/-!
# The Client's Process

`ClientRuntime::Run` and `ClientRuntime::Shutdown` (`runtime/src/Runtime.cpp`),
with the states of `runtime/src/Lifecycle.cpp` and `runtime/src/ClientState.cpp`
and the requests of `runtime/src/ProtocolClient.cpp`: the main thread from the
first line of `Run` to its return, the heartbeat thread, the replication thread
and the handlers that the reader thread calls.

The main thread is taken apart where another thread can come in: where it sends
and where it waits. A call of `RequestReply` is a step that empties the slot of
its reply and sends, and steps that look at the slot. A message that comes in
between emptying and sending could as well come after it. A wait can be over at
any time, so the timeouts themselves do not matter.

The services `Run` calls are called once each, so what they return is known
beforehand (`Services`), and so is what the client has to tell about itself.
A reply is the message the server sent; whether the parser takes its payload is
a parameter. How the entities come and go is in `Replication` and
`ClientThreads`: here an event of the server's may at any time create or destroy
one, which is shown. How lines come through the socket is in `Framing`, and what
only goes to the log file is left out.

## Main definitions

* `RuntimeState`, `ClientState`: What the client says it is doing.
* `Services`: What the services return.
* `MainPc`, `HeartbeatPc`, `ReplicationPc`: How far the threads have come.
* `Client`: The process.
* `onMessage`, `onEntity`: The handlers of `ProtocolClient` and
  `EntityManager`.
* `mainStep`, `endOfInput`, `heartbeatStep`, `replicationStep`: The threads.
* `ClientAction`, `act`: One step of one of them.
-/

namespace MzzPlork

namespace Runtime

open EventChannel Heartbeat Server

/-- `RuntimeState`. -/
inductive RuntimeState where
  | initializing
  | ready
  | shuttingDown
  | stopped
  deriving DecidableEq, Repr

/-- `ToString(RuntimeState)`. -/
def RuntimeState.text : RuntimeState → Bytes
  | .initializing => ascii "initializing"
  | .ready => ascii "ready"
  | .shuttingDown => ascii "shutting_down"
  | .stopped => ascii "stopped"

/-- `ClientState`. -/
inductive ClientState where
  | starting
  | initializing
  | checkingUpdate
  | connecting
  | authenticating
  | downloadingResources
  | loadingResources
  | ready
  | playing
  | disconnecting
  | stopped
  deriving DecidableEq, Repr

/-- `ToString(ClientState)`. -/
def ClientState.text : ClientState → Bytes
  | .starting => ascii "starting"
  | .initializing => ascii "initializing"
  | .checkingUpdate => ascii "checking_update"
  | .connecting => ascii "connecting"
  | .authenticating => ascii "authenticating"
  | .downloadingResources => ascii "downloading_resources"
  | .loadingResources => ascii "loading_resources"
  | .ready => ascii "ready"
  | .playing => ascii "playing"
  | .disconnecting => ascii "disconnecting"
  | .stopped => ascii "stopped"

/-- `ToString(ServiceStatus)`. -/
def statusText : ServiceStatus → Bytes
  | .ok => ascii "ok"
  | .notImplemented => ascii "not_implemented"
  | .failed => ascii "failed"

/-- What the services return, and the part of the configuration that `Run`
    itself looks at. `applied` is `none` where `ApplyManifest` throws. -/
structure Services where
  configuration : ServiceResult
  logLevel : Bytes
  serverHost : Bytes
  cache : ServiceResult
  network : ServiceResult
  gameInit : ServiceResult
  gameDetection : ServiceResult
  connects : Bool
  resourcesInit : ServiceResult
  applied : Option ServiceResult

/-- The main thread, by what it does next or is waiting for. -/
inductive MainPc where
  | starting
  | services
  | connecting
  | helloRequest
  | helloReply
  | authRequest
  | authReply
  | manifestRequest
  | manifestReply
  | applying
  /-- Nothing to download. -/
  | unconnected
  | loading (manifestApplied : Bool)
  | readyReply
  | settling
  | idle
  | joiningHeartbeat
  | joiningReplication
  | requestingDisconnect
  | disconnect
  | closing
  | returned (exitCode : Nat)
  /-- An exception has left `Run`. -/
  | aborted
  deriving DecidableEq, Repr

/-- The heartbeat thread. -/
inductive HeartbeatPc where
  | absent
  | sleeping
  | waiting
  | ended
  deriving DecidableEq, Repr

/-- The replication thread, which looks at its flag before every `Tick`. -/
inductive ReplicationPc where
  | absent
  | checking
  | ticking
  | ended
  deriving DecidableEq, Repr

/-- A line for the server: its type and what its payload stands for. -/
structure Line where
  type : MessageType
  payload : JsValue

/-- The process. `connected` says that there is a connection, `player` is what
    `replication_` has been constructed with, `said` is every line that was
    sent, and `events` is everything on the standard output. -/
structure Client where
  main : MainPc
  heartbeat : HeartbeatPc
  replication : ReplicationPc
  lifecycle : RuntimeState
  session : ClientState
  connected : Bool
  connectedToServer : Bool
  player : Option AuthResult
  pendingReplies : JsString → Option ServerMessage
  disconnectRequested : Bool
  heartbeatShouldStop : Bool
  replicationShouldStop : Bool
  said : List Line
  events : List ClientEvent

/-- `Run` is about to be called. -/
def Client.init : Client where
  main := .starting
  heartbeat := .absent
  replication := .absent
  lifecycle := .initializing
  session := .starting
  connected := false
  connectedToServer := false
  player := none
  pendingReplies := fun _ => none
  disconnectRequested := false
  heartbeatShouldStop := false
  replicationShouldStop := false
  said := []
  events := []

/-- `AsString` of a value of the server's. -/
def asString (v : JsValue) (fallback : Bytes) : Bytes :=
  match v with
  | .str s => Wire.utf8 s
  | _ => fallback

/-- What is in an `auth_result`. -/
def authResultOf (m : ServerMessage) : Option AuthResult :=
  match m with
  | .authResult result => some result
  | .helloAck _ _ _ | .heartbeatAck _ | .resourceManifest _ _ | .event _ | .resourcesReadyAck
  | .kick _ => none

namespace Client

/-- The main thread goes on. -/
def goTo (c : Client) (main : MainPc) : Client := { c with main := main }

/-- `EmitServiceEvent` and the other calls that print. -/
def emit (c : Client) (events : List ClientEvent) : Client :=
  { c with events := c.events ++ events }

/-- `EmitServiceEvent` for a result. -/
def report (c : Client) (service : Bytes) (result : ServiceResult) : Client :=
  c.emit [.service service (statusText result.status) result.message]

/-- `SetState`. -/
def setState (c : Client) (state : ClientState) : Client :=
  { c.emit [.service (ascii "client-state") (ascii "ok") state.text] with session := state }

/-- `TransitionTo`, and the event about it. -/
def transitionTo (c : Client) (state : RuntimeState) : Client :=
  { c.emit [.state state.text] with lifecycle := state }

/-- The slot of a reply is emptied. -/
def erase (c : Client) (replyType : JsString) : Client :=
  { c with pendingReplies := Function.update c.pendingReplies replyType none }

/-- A call of `Send` that returns true. -/
def say (c : Client) (line : Line) : Client := { c with said := c.said ++ [line] }

/-- The first half of `RequestReply`: the step waits next if the line could be
    sent, and has failed otherwise. -/
def request (c : Client) (line : Line) (replyType : JsString) (sent : Bool) (waits : MainPc)
    (fails : Client → Client) : Client :=
  -- An old reply is thrown away whether or not the line can be sent.
  if sent then ((c.erase replyType).say line).goTo waits else fails (c.erase replyType)

/-- The second half: what has come, `none` while the call waits and `some none`
    where it returns false. -/
def reply (c : Client) (parses : ServerMessage → Bool) (replyType : JsString) (expired : Bool) :
    Option (Option ServerMessage) :=
  match c.pendingReplies replyType with
  | some m => some (if parses m then some m else none)
  | none => if expired then some none else none

/-- `connectedToServer_` is given up, with a word about it. -/
def giveUp (c : Client) (service message : Bytes) : Client :=
  { c.report service ⟨.failed, message⟩ with connectedToServer := false }.goTo .unconnected

/-- The handlers of `OnMessage`. The events go to the entities. -/
def onMessage (c : Client) (parses : ServerMessage → Bool) (m : ServerMessage) : Client :=
  match m with
  | .event _ => c
  | .kick reason =>
    let text := if parses m then asString reason (ascii "disconnected by server")
      else ascii "disconnected by server"
    -- The server answers a `disconnect` with a kick as well.
    if c.disconnectRequested then
      c.report (ascii "server-connection") ⟨.ok, ascii "disconnect acknowledged: " ++ text⟩
    else c.report (ascii "server-connection") ⟨.failed, ascii "kicked by server: " ++ text⟩
  | m => { c with pendingReplies := Function.update c.pendingReplies m.type (some m) }

/-- The handlers of `EntityManager`, which are there as soon as `replication_` is.
    The reader thread calls them, so there is a connection. -/
def onEntity (c : Client) (created : Bool) (id : Bytes) : Client :=
  if c.connected = true ∧ c.player.isSome = true then
    c.report (ascii (if created then "entity-created" else "entity-destroyed")) ⟨.ok, id⟩
  else c

/-- A message of the reader thread. It has no handler before `Start`, which
    comes right before `SendHello`. -/
def onDispatch (c : Client) (parses : ServerMessage → Bool) (m : ServerMessage) : Client :=
  if c.connected = true ∧ c.main ≠ .helloRequest then c.onMessage parses m else c

end Client

section Steps

variable (services : Services) (script : Script) (parses : ServerMessage → Bool)

namespace Client

/-- Configuration and logging. -/
def start (c : Client) : Client :=
  let c := ((c.transitionTo .initializing).setState .starting).report (ascii "configuration")
    services.configuration
  if services.configuration.status = .failed then
    (c.emit [.error (ascii "configuration load failed: "
      ++ services.configuration.message)]).goTo (.returned 1)
  else
    ((c.report (ascii "logging") ⟨.ok, ascii "log level = " ++ services.logLevel⟩).setState
      .initializing).goTo .services

/-- The services that need no server. -/
def startServices (c : Client) : Client :=
  let c := c.report (ascii "cache") services.cache
  if services.cache.status = .failed then
    (c.emit [.error (ascii "runtime services failed to initialize: "
      ++ services.cache.message)]).goTo (.returned 1)
  else
    ((((c.report (ascii "network") services.network).report (ascii "game-integration")
      services.gameInit).report (ascii "game-detection") services.gameDetection).setState
        .checkingUpdate).goTo .connecting

/-- The call of `Connect`. -/
def connect (c : Client) : Client :=
  let c := c.setState .connecting
  if services.serverHost = [] then
    (c.report (ascii "server-connection") ⟨.notImplemented, ascii "no server configured"⟩).goTo
      .unconnected
  else if services.connects then
    { c with connected := true, connectedToServer := true }.goTo .helloRequest
  else
    (c.report (ascii "server-connection")
      ⟨.failed, ascii "could not connect to " ++ services.serverHost⟩).goTo .unconnected

/-- The handshake has failed. -/
def rejected (c : Client) : Client :=
  c.giveUp (ascii "server-connection") (ascii "protocol handshake rejected")

/-- The reply to `SendHello`. -/
def onHelloAck (c : Client) (reply : Option ServerMessage) : Client :=
  match reply with
  | some (.helloAck true _ _) =>
    (c.report (ascii "server-connection") ⟨.ok, ascii "connected and protocol-compatible"⟩).goTo
      .authRequest
  | _ => c.rejected

/-- There is no result that is ok. -/
def unauthenticated (c : Client) : Client :=
  c.giveUp (ascii "authentication") (ascii "no auth_result received")

/-- The reply to `SendAuth`. `replication_->Start` creates the local player. -/
def onAuthResult (c : Client) (reply : Option ServerMessage) : Client :=
  match reply.bind authResultOf with
  | some result =>
    if result.ok then
      let id := asString result.playerId []
      { (c.report (ascii "authentication") ⟨.ok, ascii "player " ++ id⟩).report
          (ascii "entity-created") ⟨.ok, id⟩ with
        player := some result }.goTo .manifestRequest
    else c.unauthenticated
  | none => c.unauthenticated

/-- No manifest has come. The session goes on. -/
def withoutManifest (c : Client) : Client :=
  (c.report (ascii "resources") ⟨.failed, ascii "no resource manifest received"⟩).goTo
    (.loading false)

/-- The reply to `RequestResourceManifest`. -/
def onManifest (c : Client) (reply : Option ServerMessage) : Client :=
  match reply with
  | some _ => c.goTo .applying
  | none => c.withoutManifest

/-- `Initialize` and `ApplyManifest`. -/
def applyManifest (c : Client) : Client :=
  if services.resourcesInit.status = .failed then
    (c.report (ascii "resources") services.resourcesInit).goTo (.loading false)
  else
    match services.applied with
    | none => { c with connected := false }.goTo .aborted
    | some applied =>
      (c.report (ascii "resources") applied).goTo (.loading (applied.status ≠ .failed))

/-- `Initialize` alone, where there is no server. -/
def initializeResources (c : Client) : Client :=
  (c.report (ascii "resources") ⟨services.resourcesInit.status, services.resourcesInit.message
    ++ ascii " (no server connection -- nothing to download)"⟩).goTo (.loading false)

/-- No acknowledgment has come. -/
def withoutAck (c : Client) : Client :=
  (c.report (ascii "resources-ready-notification")
    ⟨.failed, ascii "no acknowledgment received"⟩).goTo .settling

/-- What is reported of `LoadAll`. -/
def loadResult : ServiceResult where
  status := if 0 < script.failedCount ∧ script.loadedCount = 0 then .failed else .ok
  message := ascii (toString script.loadedCount) ++ ascii " loaded, "
    ++ ascii (toString script.failedCount) ++ ascii " failed"

/-- `LoadAll`, and the notification of the server. -/
def load (c : Client) (manifestApplied sent : Bool) : Client :=
  let c := c.setState .loadingResources
  if manifestApplied then
    let c := c.report (ascii "resource-loading") (loadResult script)
    if c.connectedToServer then
      c.request ⟨.resourcesReady, readyPayload script⟩ (js "resources_ready_ack") sent .readyReply
        withoutAck
    else c.goTo .settling
  else
    (c.report (ascii "resource-loading")
      ⟨.notImplemented, ascii "no resources were downloaded/verified to load"⟩).goTo .settling

/-- The reply to `SendResourcesReady`. Any that can be parsed will do. -/
def onReadyAck (c : Client) (reply : Option ServerMessage) : Client :=
  match reply with
  | some _ =>
    (c.report (ascii "resources-ready-notification") ⟨.ok, ascii "server acknowledged"⟩).goTo
      .settling
  | none => c.withoutAck

/-- The heartbeat thread starts, if there is a connection to keep. -/
def startHeartbeat (c : Client) : Client :=
  if c.connectedToServer then { c with heartbeatShouldStop := false, heartbeat := .sleeping }
  else c

/-- The replication thread starts, if there is a replication. -/
def startReplication (c : Client) : Client :=
  if c.player.isSome then { c with replicationShouldStop := false, replication := .checking }
  else c

/-- The client is ready. -/
def settle (c : Client) : Client :=
  (((c.transitionTo .ready).setState .ready).startHeartbeat.startReplication).goTo .idle

/-- The control input has ended: the beginning of `Shutdown`. -/
def endOfInput (c : Client) : Client :=
  match c.main with
  | .idle =>
    let c := { c with lifecycle := .shuttingDown }.setState .disconnecting
    -- `EmitStateEvent` comes after `SetState` here.
    { c.emit [.state RuntimeState.shuttingDown.text] with heartbeatShouldStop := true }.goTo
      .joiningHeartbeat
  | _ => c

/-- The heartbeat thread is joined, and the other one is told to stop. -/
def joinHeartbeat (c : Client) : Client :=
  -- A thread that was never started is not joinable.
  if c.heartbeat = .absent ∨ c.heartbeat = .ended then
    { c with replicationShouldStop := true }.goTo .joiningReplication
  else c

/-- The replication thread is joined. -/
def joinReplication (c : Client) : Client :=
  if c.replication = .absent ∨ c.replication = .ended then
    c.goTo (if c.connectedToServer then .requestingDisconnect else .closing)
  else c

/-- The end of `Shutdown`, which closes the connection if there is one. -/
def close (c : Client) : Client :=
  let c := { c with lifecycle := .stopped, connected := false }.setState .stopped
  (c.emit [.state RuntimeState.stopped.text]).goTo (.returned 0)

/-- A step of the main thread: whether what it sends can be sent, and whether
    what it waits for has been waited for long enough. -/
def mainStep (c : Client) (sent expired : Bool) : Client :=
  match c.main with
  | .starting => c.start services
  | .services => c.startServices services
  | .connecting => c.connect services
  | .helloRequest =>
    c.request ⟨.hello, helloPayload⟩ (js "hello_ack") sent .helloReply rejected
  | .helloReply =>
    match c.reply parses (js "hello_ack") expired with
    | some reply => (c.erase (js "hello_ack")).onHelloAck reply
    | none => c
  | .authRequest =>
    (c.setState .authenticating).request ⟨.auth, authPayload script⟩ (js "auth_result") sent
      .authReply unauthenticated
  | .authReply =>
    match c.reply parses (js "auth_result") expired with
    | some reply => (c.erase (js "auth_result")).onAuthResult reply
    | none => c
  | .manifestRequest =>
    (c.setState .downloadingResources).request ⟨.resourceManifestRequest, .obj []⟩
      (js "resource_manifest") sent .manifestReply withoutManifest
  | .manifestReply =>
    match c.reply parses (js "resource_manifest") expired with
    | some reply => (c.erase (js "resource_manifest")).onManifest reply
    | none => c
  | .applying => c.applyManifest services
  | .unconnected => c.initializeResources services
  | .loading manifestApplied => c.load script manifestApplied sent
  | .readyReply =>
    match c.reply parses (js "resources_ready_ack") expired with
    | some reply => (c.erase (js "resources_ready_ack")).onReadyAck reply
    | none => c
  | .settling => c.settle
  -- Lines of the control input only move the local player.
  | .idle => c
  | .joiningHeartbeat => c.joinHeartbeat
  | .joiningReplication => c.joinReplication
  | .requestingDisconnect => { c with disconnectRequested := true }.goTo .disconnect
  | .disconnect => (if sent then c.say ⟨.disconnect, leavePayload⟩ else c).goTo .closing
  | .closing => c.close
  | .returned _ => c
  | .aborted => c

/-- A step of the heartbeat thread. -/
def heartbeatStep (c : Client) (sent expired : Bool) : Client :=
  match c.heartbeat with
  | .absent => c
  | .sleeping =>
    if c.heartbeatShouldStop then { c with heartbeat := .ended }
    else if sent then
      { (c.erase (js "heartbeat_ack")).say ⟨.heartbeat, .obj []⟩ with heartbeat := .waiting }
    else c.erase (js "heartbeat_ack")
  | .waiting =>
    match c.reply parses (js "heartbeat_ack") expired with
    | some _ => { c.erase (js "heartbeat_ack") with heartbeat := .sleeping }
    | none => c
  | .ended => c

/-- A step of the replication thread. A `Tick` sends a state or nothing. -/
def replicationStep (c : Client) (state : Option JsValue) (sent : Bool) : Client :=
  match c.replication with
  | .absent => c
  | .checking =>
    { c with replication := if c.replicationShouldStop then .ended else .ticking }
  | .ticking =>
    match state with
    | some payload =>
      { (if sent then c.say ⟨.playerState, payload⟩ else c) with replication := .checking }
    | none => { c with replication := .checking }
  | .ended => c

end Client

/-- What can happen in the process. -/
inductive ClientAction where
  | main (sent expired : Bool)
  | endOfInput
  | heartbeat (sent expired : Bool)
  | replication (state : Option JsValue) (sent : Bool)
  | dispatch (m : ServerMessage)
  | entity (created : Bool) (id : Bytes)

/-- One step. -/
def act (c : Client) (a : ClientAction) : Client :=
  match a with
  | .main sent expired => c.mainStep services script parses sent expired
  | .endOfInput => c.endOfInput
  | .heartbeat sent expired => c.heartbeatStep parses sent expired
  | .replication state sent => c.replicationStep state sent
  | .dispatch m => c.onDispatch parses m
  | .entity created id => c.onEntity created id

end Steps

end Runtime

end MzzPlork

import MzzPlork.Core.TcpServer

/-!
# A Client's Session Against the Clock

The server connection of one `ClientRuntime::Run` (`runtime/src/Runtime.cpp`)
and the heartbeat watchdog of `server/src/tcpServer.js`, on one clock.

Time is counted in milliseconds from the server's `listen`. A message is
handled the moment it is sent, and answered in that moment, so the client only
spends time on downloading, on loading and between its heartbeats. The first
two take as long as they take. The heartbeat thread starts when the client is
ready, sleeps for the interval and then sends, over and over. The watchdog's
timer never fires late.

Where the client and the watchdog are due in the same millisecond, they act in
either order. Whoever else is connected does what he likes.

## Main definitions

* `Phase`: How far `Run` has come.
* `World`: The clock, the server and the client.
* `clientStep`: What the client does next.
* `pass`: Time goes by, as long as nothing is due.
* `act`: One action.
-/

namespace MzzPlork

namespace Heartbeat

open Server

/-- `kHeartbeatIntervalMs`. -/
def heartbeatIntervalMs : Nat := 10000

/-- `config.heartbeatIntervalMs`, the interval of the server's watchdog. -/
def watchdogIntervalMs : Int := 15000

/-- The client, by what it does next or is doing. -/
inductive Phase where
  | connecting
  | hello
  | auth
  | manifestRequest
  | downloading
  | loading
  /-- The heartbeat thread has slept for so long, and whether it has ever sent. -/
  | ready (waited : Nat) (beaten : Bool)
  | left
  deriving DecidableEq, Repr

/-- Connected, and no heartbeat sent. -/
def Phase.unbeaten : Phase → Bool
  | .connecting => false
  | .hello => true
  | .auth => true
  | .manifestRequest => true
  | .downloading => true
  | .loading => true
  | .ready _ beaten => !beaten
  | .left => false

/-- What a client has to tell about itself. -/
structure Script where
  clientId : JsString
  loadedCount : Nat
  failedCount : Nat

/-- Both ends. The watchdog ticks next when it is due. -/
structure World where
  now : Int
  due : Int
  srv : TcpServer
  phase : Phase
  connectedAt : Int

/-- The server has just begun to listen. -/
def World.init : World where
  now := 0
  due := watchdogIntervalMs
  srv := TcpServer.init
  phase := .connecting
  connectedAt := 0

/-- The payload of `SendHello`. -/
def helloPayload : JsValue := .obj [(js "protocolVersion", .str (js "1.0"))]

/-- The payload of `SendAuth`. -/
def authPayload (script : Script) : JsValue :=
  .obj [(js "clientId", .str script.clientId), (js "displayName", .str [])]

/-- The payload of `SendResourcesReady`. -/
def readyPayload (script : Script) : JsValue :=
  .obj [(js "failedCount", .num (.finite script.failedCount)),
    (js "loadedCount", .num (.finite script.loadedCount))]

/-- The payload of `SendDisconnect` in `Shutdown`. -/
def leavePayload : JsValue := .obj [(js "reason", .str (js "client shutting down"))]

section Actions

variable (host : Host) (u : SessionId) (script : Script)

/-- A message of the client, after which it is in a new phase. -/
def say (w : World) (type : MessageType) (payload : JsValue) (ambient : Ambient)
    (phase : Phase) : World :=
  { w with
    srv := step host w.srv (.message u type (some payload) { ambient with now := w.now })
    phase := phase }

/-- The client's next step. Downloading and loading are over when it is taken,
    and a heartbeat is only sent after the whole interval. -/
def clientStep (ambient : Ambient) (w : World) : World :=
  match w.phase with
  | .connecting =>
    { w with
      srv := step host w.srv (.connect u w.now)
      phase := .hello
      connectedAt := w.now }
  | .hello => say host u w .hello helloPayload ambient .auth
  | .auth => say host u w .auth (authPayload script) ambient .manifestRequest
  | .manifestRequest => say host u w .resourceManifestRequest (.obj []) ambient .downloading
  | .downloading => { w with phase := .loading }
  | .loading => say host u w .resourcesReady (readyPayload script) ambient (.ready 0 false)
  | .ready waited _ =>
    if waited = heartbeatIntervalMs then
      say host u w .heartbeat (.obj []) ambient (.ready 0 true)
    else w
  | .left => w

/-- The client's phase some milliseconds on, `none` where it is due before. -/
def Phase.pass (phase : Phase) (ms : Nat) : Option Phase :=
  match phase with
  | .hello => none
  | .auth => none
  | .manifestRequest => none
  | .ready waited beaten =>
    if waited + ms ≤ heartbeatIntervalMs then some (.ready (waited + ms) beaten) else none
  | phase => some phase

/-- Some milliseconds go by, unless something is due before. -/
def pass (ms : Nat) (w : World) : World :=
  match w.phase.pass ms with
  | some phase => if w.now + ms ≤ w.due then { w with now := w.now + ms, phase := phase } else w
  | none => w

/-- A tick of the watchdog, when it is due. -/
def watchdog (w : World) : World :=
  if w.now = w.due then
    { w with srv := step host w.srv (.watchdog w.now), due := w.due + watchdogIntervalMs }
  else w

/-- The replication thread sends a state, once the client is ready. -/
def report (payload : JsValue) (ambient : Ambient) (w : World) : World :=
  match w.phase with
  | .ready _ _ => say host u w .playerState payload ambient w.phase
  | _ => w

/-- `Shutdown`, when the control input has ended. -/
def leave (ambient : Ambient) (w : World) : World :=
  match w.phase with
  | .ready _ _ => say host u w .disconnect leavePayload ambient .left
  | _ => w

/-- The server's other business. -/
def elsewhere (e : Event) : Bool :=
  match e with
  | .connect s _ => s ≠ u
  | .message s _ _ _ => s ≠ u
  | .protocolError s => s ≠ u
  | .close s => s ≠ u
  | .watchdog _ => false
  | .shutdown => true

/-- What can happen. -/
inductive Action where
  | pass (ms : Nat)
  | client (ambient : Ambient)
  | watchdog
  | report (payload : JsValue) (ambient : Ambient)
  | leave (ambient : Ambient)
  | other (e : Event)

/-- One action. One whose time has not come changes nothing. -/
def act (w : World) (a : Action) : World :=
  match a with
  | .pass ms => pass ms w
  | .client ambient => clientStep host u script ambient w
  | .watchdog => watchdog host w
  | .report payload ambient => report host u payload ambient w
  | .leave ambient => leave host u ambient w
  | .other e => if elsewhere u e then { w with srv := step host w.srv e } else w

end Actions

end Heartbeat

end MzzPlork

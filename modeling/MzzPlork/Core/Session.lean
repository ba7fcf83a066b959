import Mathlib.Logic.Function.Basic
import MzzPlork.Core.JsValue

/-!
# Server Sessions

`server/src/connectionState.js`, `server/src/session.js`, `server/src/auth.js`
and the version check of `server/src/protocol.js`: one connected client as the
server keeps it.

`state` is the connection's formal lifecycle. The handlers do not look at it,
they look at `helloReceived` and `authenticated`, which are kept next to it.

## Main definitions

* `ConnectionState`, `isValidTransition`: The lifecycle and its table.
* `Session`: What the server knows about one connection.
* `isProtocolCompatible`: The version check of the handshake.
* `authenticate`: The issuing of a player id.
-/

namespace MzzPlork

namespace Server

/-- A connection's lifecycle. -/
inductive ConnectionState where
  | connecting
  | authenticating
  | authenticated
  | disconnecting
  | disconnected
  deriving DecidableEq, Repr

/-- The transition table. `disconnected` is terminal. -/
def isValidTransition (source target : ConnectionState) : Bool :=
  match source with
  | .connecting => target = .authenticating || target = .disconnecting
  | .authenticating => target = .authenticated || target = .disconnecting
  | .authenticated => target = .disconnecting
  | .disconnecting => target = .disconnected
  | .disconnected => false

/-- The last reported state of a player. A field the client left out is
    `undefined`. -/
structure PlayerState where
  position : Option JsValue
  rotation : Option JsValue
  basicState : Option JsValue
  timestamp : Option JsValue

/-- One connection. The ids and the name are `null` until they are issued. -/
structure Session where
  lastHeartbeatAt : Int
  clientProtocolVersion : Option JsValue
  state : ConnectionState
  helloReceived : Bool
  authenticated : Bool
  clientId : JsValue
  playerId : JsValue
  displayName : JsValue
  resourcesReady : Bool
  lastPlayerState : Option PlayerState

namespace Session

/-- `new Session(...)`. -/
def new (now : Int) : Session where
  lastHeartbeatAt := now
  clientProtocolVersion := some .null
  state := .connecting
  helloReceived := false
  authenticated := false
  clientId := .null
  playerId := .null
  displayName := .null
  resourcesReady := false
  lastPlayerState := none

/-- `transitionTo`. A rejected transition leaves the state unchanged. -/
def transitionTo (o : Session) (target : ConnectionState) : Session :=
  if isValidTransition o.state target then { o with state := target } else o

/-- `isHeartbeatExpired`. -/
def isHeartbeatExpired (o : Session) (timeoutMs now : Int) : Bool :=
  now - o.lastHeartbeatAt > timeoutMs

@[simp] theorem authenticated_transitionTo (o : Session) (target : ConnectionState) :
    (o.transitionTo target).authenticated = o.authenticated := by
  rw [transitionTo]
  split <;> rfl

@[simp] theorem playerId_transitionTo (o : Session) (target : ConnectionState) :
    (o.transitionTo target).playerId = o.playerId := by
  rw [transitionTo]
  split <;> rfl

@[simp] theorem lastHeartbeatAt_transitionTo (o : Session) (target : ConnectionState) :
    (o.transitionTo target).lastHeartbeatAt = o.lastHeartbeatAt := by
  rw [transitionTo]
  split <;> rfl

end Session

/-- `PROTOCOL_VERSION`. -/
def protocolVersion : JsString := js "1.0"

/-- `protocolMajor`, on the version's text. -/
def protocolMajor (version : JsString) : JsString := version.takeWhile (· ≠ 46)

/-- `isProtocolCompatible`. It throws where the version has no text. -/
def isProtocolCompatible (fmt : NumberFormat) (clientVersion : Option JsValue) : Option Bool :=
  (JsValue.textOf fmt clientVersion).map
    (fun version => protocolMajor version = protocolMajor protocolVersion)

/-- A character of `[a-f0-9-]`, in either case. -/
def isIdCharacter (c : UInt16) : Bool :=
  (97 ≤ c && c ≤ 102) || (65 ≤ c && c ≤ 70) || (48 ≤ c && c ≤ 57) || c = 45

/-- `/^[a-f0-9-]{8,}$/i.test(text)`. -/
def isIdText (text : JsString) : Bool := 8 ≤ text.length && text.all isIdCharacter

/-- What `authenticate` issues. -/
structure AuthResult where
  ok : Bool
  playerId : JsValue
  sessionId : JsString
  displayName : JsValue

/-- The choice of the player id: a client id that looks like one is taken over
    as it is, a number or an array included. -/
def choosePlayerId (fmt : NumberFormat) (clientId : Option JsValue) (playerUuid : JsString) :
    Option JsValue :=
  match clientId with
  | none => some (.str playerUuid)
  | some id =>
    if JsValue.truthy id then
      (JsValue.toText fmt id).map (fun text => if isIdText text then id else .str playerUuid)
    else some (.str playerUuid)

/-- `${playerId.slice(0, 8)}`. Only strings and arrays have a `slice`. -/
def playerIdHead (fmt : NumberFormat) : JsValue → Option JsString
  | .str s => some (s.take 8)
  | .arr items => JsValue.toText fmt (.arr (items.take 8))
  | _ => none

/-- `displayName || ...`. -/
def chooseDisplayName (fmt : NumberFormat) (displayName : Option JsValue) (playerId : JsValue) :
    Option JsValue :=
  match displayName with
  | some name =>
    if JsValue.truthy name then some name
    else (playerIdHead fmt playerId).map (fun head => .str (js "Player-" ++ head))
  | none => (playerIdHead fmt playerId).map (fun head => .str (js "Player-" ++ head))

/-- `authenticate`, with the random ids it draws. `none` where a conversion
    throws. -/
def authenticate (fmt : NumberFormat) (clientId displayName : Option JsValue)
    (playerUuid sessionUuid : JsString) : Option AuthResult := do
  let playerId ← choosePlayerId fmt clientId playerUuid
  let name ← chooseDisplayName fmt displayName playerId
  some { ok := true, playerId := playerId, sessionId := sessionUuid, displayName := name }

/-- Nobody is turned away. -/
theorem ok_of_authenticate (fmt : NumberFormat) (clientId displayName : Option JsValue)
    (playerUuid sessionUuid : JsString) (result : AuthResult)
    (h : authenticate fmt clientId displayName playerUuid sessionUuid = some result) :
    result.ok = true := by
  rw [authenticate] at h
  rcases Option.bind_eq_some_iff.mp h with ⟨playerId, _, h⟩
  rcases Option.bind_eq_some_iff.mp h with ⟨name, _, h⟩
  rw [← Option.some.inj h]

end Server

end MzzPlork

import Mathlib.Logic.Function.Basic
import MzzPlork.Core.ClientJson

/-!
# The Client's Two Threads

`ProtocolClient::OnMessage` and `RequestReply` (`runtime/src/ProtocolClient.cpp`),
`EventSystem` (`runtime/src/EventSystem.cpp`), `Replication::Start`
(`runtime/src/Replication.cpp`) and the authentication step of
`ClientRuntime::Run` (`runtime/src/Runtime.cpp`), from the moment `auth` has
been sent.

The reader thread dispatches the server's messages in order. An `event` is
published in two parts: under the lock it takes a copy of the handlers
subscribed to its type, and then, without the lock, it calls them one by one.
The main thread sits in `RequestReply` until an `auth_result` has been
stored, and goes on to subscribe four handlers, one lock at a time.

A turn is what one thread does between two points where the other can come
in. A turn of a thread that is blocked or finished changes nothing, so any
list of turns is a schedule.

A message's payload is what `json::ParseObject` makes of its text.

## Main definitions

* `ServerMessage`: A message, dispatched by its type.
* `Handler`: The handlers of the event system.
* `MainPc`: How far the main thread has come.
* `Client`: Both threads and what they share.
* `onMessage`, `publish`: The reader's side.
* `mainStep`: The main thread's side.
* `step`: One turn.
-/

namespace MzzPlork

namespace Threads

/-- A message as the connection hands it over. -/
structure ServerMessage where
  type : Bytes
  payload : Option ClientObject

/-- The handlers subscribed in the authentication step: the one that logs
    incoming states, and the three of `Replication`. -/
inductive Handler where
  | logPlayerState
  | onPlayerJoined
  | onPlayerLeft
  | onPlayerState
  deriving DecidableEq, Repr

/-- The main thread between `SendAuth` and the end of `Replication::Start`. -/
inductive MainPc where
  | waiting
  | replied (payload : Option ClientObject)
  | constructed
  | logSubscribed
  | playerCreated
  | joinedSubscribed
  | leftSubscribed
  | running
  | failed

/-- Both threads. `toInvoke` and `data` are the reader's copy of the handlers
    it is calling and what it calls them with; `delivered` is every call. -/
structure Client where
  incoming : List ServerMessage
  toInvoke : List Handler
  data : ClientObject
  handlers : List (Bytes × Handler)
  pendingReplies : Bytes → Option (Option ClientObject)
  main : MainPc
  delivered : List (Handler × ClientObject)

/-- `auth` has been sent, and these messages are on their way. -/
def Client.start (messages : List ServerMessage) : Client where
  incoming := messages
  toInvoke := []
  data := []
  handlers := []
  pendingReplies := fun _ => none
  main := .waiting
  delivered := []

namespace Client

/-- `EventSystem::Subscribe`. -/
def subscribe (c : Client) (eventType : Bytes) (handler : Handler) : Client :=
  { c with handlers := c.handlers ++ [(eventType, handler)] }

/-- The locked part of `EventSystem::Publish`. -/
def publish (c : Client) (eventType : Bytes) (data : ClientObject) : Client :=
  { c with
    toInvoke := (c.handlers.filter (fun entry => entry.1 = eventType)).map Prod.snd
    data := data }

/-- `ProtocolClient::OnMessage`. -/
def onMessage (c : Client) (message : ServerMessage) : Client :=
  if message.type = ascii "event" then
    match message.payload with
    | none => c
    | some o =>
      c.publish (o.stringAt (ascii "eventType") [])
        (((o.lookup (ascii "data")).getD .null).objectOrEmpty)
  else if message.type = ascii "kick" then c
  else
    { c with
      pendingReplies := Function.update c.pendingReplies message.type (some message.payload) }

/-- A turn of the reader thread: the next handler of the copy, or the next
    message. -/
def readerStep (c : Client) : Client :=
  match c.toInvoke with
  | handler :: rest =>
    { c with toInvoke := rest, delivered := c.delivered ++ [(handler, c.data)] }
  | [] =>
    match c.incoming with
    | [] => c
    | message :: rest => ({ c with incoming := rest }).onMessage message

/-- A turn of the main thread. -/
def mainStep (c : Client) : Client :=
  match c.main with
  | .waiting =>
    match c.pendingReplies (ascii "auth_result") with
    | none => c
    | some payload =>
      { c with
        pendingReplies := Function.update c.pendingReplies (ascii "auth_result") none
        main := .replied payload }
  | .replied payload =>
    match payload with
    | none => { c with main := .failed }
    | some authResult =>
      if authResult.boolAt (ascii "ok") then { c with main := .constructed }
      else { c with main := .failed }
  | .constructed =>
    { c.subscribe (ascii "player_state") .logPlayerState with main := .logSubscribed }
  | .logSubscribed => { c with main := .playerCreated }
  | .playerCreated =>
    { c.subscribe (ascii "player_joined") .onPlayerJoined with main := .joinedSubscribed }
  | .joinedSubscribed =>
    { c.subscribe (ascii "player_left") .onPlayerLeft with main := .leftSubscribed }
  | .leftSubscribed =>
    { c.subscribe (ascii "player_state") .onPlayerState with main := .running }
  | .running => c
  | .failed => c

/-- The wait of `RequestReply` runs out. -/
def timeoutStep (c : Client) : Client :=
  match c.main with
  | .waiting => { c with main := .failed }
  | _ => c

end Client

/-- Whose turn it is. -/
inductive Turn where
  | reader
  | main
  | timeout
  deriving DecidableEq, Repr

/-- One turn. -/
def step (c : Client) (t : Turn) : Client :=
  match t with
  | .reader => c.readerStep
  | .main => c.mainStep
  | .timeout => c.timeoutStep

end Threads

end MzzPlork

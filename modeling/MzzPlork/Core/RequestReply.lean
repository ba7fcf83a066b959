import Mathlib.Logic.Function.Basic
import MzzPlork.Core.ServerConnection

/-!
# Requests and Their Replies

`ProtocolClient` (`runtime/src/ProtocolClient.cpp`), as it is called from
several threads at once, and a server that answers every request once and in
order.

A call of `RequestReply` is taken apart where another thread can come in: it
erases the slot of the reply it expects, it sends, and then it waits. A turn of
a waiting call is a wake-up of the condition variable, which may be spurious,
or the end of its timeout, at which the predicate is looked at once more. Since
a call may be given up at any moment, the timeouts themselves do not matter.
The event sink and the kick handler have been set.

The messages between the two ends stay in order. What a message says about
itself is its type and its payload, and nothing else is looked at. The call
that a reply was made for is written next to it for the sake of the statements
about it.

## Main definitions

* `Reply`, `Arrival`: A stored reply and a message on its way to the client.
* `Call`: A call of `RequestReply`, and how far it has come.
* `World`: The client's calls, its slots and the messages on their way.
* `onMessage`: The message handler.
* `requestReply`, `send`, `wake`, `expire`: The parts of `RequestReply`.
* `Action`, `act`: One action.
* `serverReplyType`: The replies of `server/src/tcpServer.js`.
* `sendHello`, `sendAuth`, …: The calls that the client makes.
-/

namespace MzzPlork

namespace RequestReply

open Wire JsonText

/-- Calls are numbered as they begin. -/
abbrev CallId := Nat

/-- A raw payload, and the call it was sent to answer. -/
structure Reply where
  payload : Bytes
  forCall : Option CallId
  deriving DecidableEq

/-- `json::ParseObject` of a raw payload, where it is ok. -/
def Reply.parsed (reply : Reply) : Option ClientObject :=
  match parseObject reply.payload with
  | .ok _ fields => some fields
  | _ => none

/-- A message of the server, and the call it was sent to answer, if any. -/
structure Arrival where
  message : ServerMessage
  forCall : Option CallId
  deriving DecidableEq

/-- What is kept of it. -/
def Arrival.reply (arrival : Arrival) : Reply := ⟨arrival.message.payload, arrival.forCall⟩

/-- A request on its way to the server. -/
structure Request where
  id : CallId
  type : Bytes
  payload : Bytes
  deriving DecidableEq

/-- How far a call has come. -/
inductive Progress where
  | erased
  | waiting
  /-- The reply it took, and `outPayload` if it has returned true. -/
  | returned (taken : Option Reply) (outPayload : Option ClientObject)

/-- The call has not returned. -/
def Progress.live : Progress → Bool
  | .erased => true
  | .waiting => true
  | .returned _ _ => false

/-- A call of `RequestReply`. -/
structure Call where
  requestType : Bytes
  payloadJson : Bytes
  expectedReplyType : Bytes
  progress : Progress

/-- Both ends, and what the handlers of the client have been called with. -/
structure World where
  calls : List Call
  pendingReplies : Bytes → Option Reply
  requests : List Request
  incoming : List Arrival
  events : List (Bytes × ClientObject)
  kickReasons : List Bytes

/-- `Start` has been called, and nothing else. -/
def World.init : World where
  calls := []
  pendingReplies := fun _ => none
  requests := []
  incoming := []
  events := []
  kickReasons := []

/-- The types of message that are not kept. -/
def unsolicited (type : Bytes) : Bool := type = ascii "event" || type = ascii "kick"

/-- The reason the kick handler is called with. -/
def kickReason (message : ServerMessage) : Bytes :=
  match parseObject message.payload with
  | .ok _ fields => fields.stringAt (ascii "reason") (ascii "disconnected by server")
  | _ => ascii "disconnected by server"

namespace World

/-- `OnMessage`. -/
def onMessage (w : World) (arrival : Arrival) : World :=
  if arrival.message.type = ascii "event" then
    match eventOf arrival.message with
    | some event => { w with events := w.events ++ [event] }
    -- An event whose payload cannot be read is dropped.
    | none => w
  else if arrival.message.type = ascii "kick" then
    { w with kickReasons := w.kickReasons ++ [kickReason arrival.message] }
  else
    -- A reply goes to its slot whether it is waited for or not.
    { w with
      pendingReplies := Function.update w.pendingReplies arrival.message.type
        (some arrival.reply) }

/-- The slot of a reply type is emptied. -/
def erase (w : World) (type : Bytes) : World :=
  { w with pendingReplies := Function.update w.pendingReplies type none }

/-- A call has come further. -/
def setProgress (w : World) (id : CallId) (progress : Progress) : World :=
  { w with calls := w.calls.modify id (fun call => { call with progress := progress }) }

/-- The first locked part of `RequestReply`. -/
def requestReply (w : World) (requestType payloadJson expectedReplyType : Bytes) : World :=
  { w.erase expectedReplyType with
    calls := w.calls ++ [⟨requestType, payloadJson, expectedReplyType, .erased⟩] }

/-- `Send` has returned. Where it returns false, so does the call. -/
def send (w : World) (id : CallId) (sent : Bool) : World :=
  match w.calls[id]? with
  | some ⟨requestType, payloadJson, _, .erased⟩ =>
    if sent then
      { w.setProgress id .waiting with
        requests := w.requests ++ [⟨id, requestType, payloadJson⟩] }
    else w.setProgress id (.returned none none)
  | _ => w

/-- What follows the wait when a reply is there. Only the parser still runs
    after the lock has been released. -/
def takeReply (w : World) (id : CallId) (type : Bytes) (reply : Reply) : World :=
  (w.erase type).setProgress id (.returned (some reply) reply.parsed)

/-- A waiting call looks at its slot, and waits on if it is empty. -/
def wake (w : World) (id : CallId) : World :=
  match w.calls[id]? with
  | some ⟨_, _, expectedReplyType, .waiting⟩ =>
    match w.pendingReplies expectedReplyType with
    | some reply => w.takeReply id expectedReplyType reply
    | none => w
  | _ => w

/-- The time of a waiting call is over. It looks at its slot once more. -/
def expire (w : World) (id : CallId) : World :=
  match w.calls[id]? with
  | some ⟨_, _, expectedReplyType, .waiting⟩ =>
    match w.pendingReplies expectedReplyType with
    | some reply => w.takeReply id expectedReplyType reply
    | none => w.setProgress id (.returned none none)
  | _ => w

/-- No call is under way that expects the type. -/
def unexpected (w : World) (type : Bytes) : Bool :=
  w.calls.all (fun call => !(call.progress.live && call.expectedReplyType = type))

/-- The first message on its way has come in. -/
def deliver (w : World) : World :=
  match w.incoming with
  | [] => w
  | arrival :: rest => { w with incoming := rest }.onMessage arrival

end World

/-- What can happen. -/
inductive Action where
  /-- A call begins. -/
  | call (requestType payloadJson expectedReplyType : Bytes)
  | send (id : CallId) (sent : Bool)
  | wake (id : CallId)
  | expire (id : CallId)
  /-- The server answers the oldest request. -/
  | answer (payload : Bytes)
  /-- The server sends a message that answers nothing. -/
  | push (message : ServerMessage)
  | deliver

section Actions

variable (replyType : Bytes → Bytes)

/-- The server's answer to the oldest request. -/
def answer (w : World) (payload : Bytes) : World :=
  match w.requests with
  | [] => w
  | request :: rest =>
    { w with
      requests := rest
      incoming := w.incoming ++ [⟨⟨replyType request.type, payload⟩, some request.id⟩] }

/-- One action. A call begins where none is under way that expects the same
    type, and it expects the type the server answers its request with. One that
    cannot be taken changes nothing. -/
def act (w : World) (a : Action) : World :=
  match a with
  | .call requestType payloadJson expectedReplyType =>
    if replyType requestType = expectedReplyType ∧ w.unexpected expectedReplyType then
      w.requestReply requestType payloadJson expectedReplyType
    else w
  | .send id sent => w.send id sent
  | .wake id => w.wake id
  | .expire id => w.expire id
  | .answer payload => answer replyType w payload
  | .push message =>
    if unsolicited message.type then { w with incoming := w.incoming ++ [⟨message, none⟩] } else w
  | .deliver => w.deliver

end Actions

section Protocol

/-- The type of message the server answers a request with. -/
def serverReplyType (requestType : Bytes) : Bytes :=
  if requestType = ascii "hello" then ascii "hello_ack"
  else if requestType = ascii "auth" then ascii "auth_result"
  else if requestType = ascii "heartbeat" then ascii "heartbeat_ack"
  else if requestType = ascii "resource_manifest_request" then ascii "resource_manifest"
  else if requestType = ascii "resources_ready" then ascii "resources_ready_ack"
  else []

/-- `SendHello`. -/
def sendHello (clientProtocolVersion : Bytes) : Action :=
  .call (ascii "hello")
    (stringifyObject [(ascii "protocolVersion", .str clientProtocolVersion)]) (ascii "hello_ack")

/-- `SendAuth`. -/
def sendAuth (clientId displayName : Bytes) : Action :=
  .call (ascii "auth")
    (stringifyObject [(ascii "clientId", .str clientId), (ascii "displayName", .str displayName)])
    (ascii "auth_result")

/-- `SendHeartbeat`. -/
def sendHeartbeat : Action :=
  .call (ascii "heartbeat") (ascii "\x7b\x7d") (ascii "heartbeat_ack")

/-- `RequestResourceManifest`. -/
def requestResourceManifest : Action :=
  .call (ascii "resource_manifest_request") (ascii "\x7b\x7d") (ascii "resource_manifest")

/-- `SendResourcesReady`. -/
def sendResourcesReady (loadedCount failedCount : Int) : Action :=
  .call (ascii "resources_ready")
    (stringifyObject [(ascii "failedCount", .num failedCount),
      (ascii "loadedCount", .num loadedCount)]) (ascii "resources_ready_ack")

/-- The request of a call is one that is answered with what it expects. -/
def Action.paired (replyType : Bytes → Bytes) : Action → Bool
  | .call requestType _ expectedReplyType => replyType requestType = expectedReplyType
  | _ => true

end Protocol

end RequestReply

end MzzPlork

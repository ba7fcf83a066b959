import MzzPlork.Core.JsonText

/-!
# The Client's End of the Connection

`runtime/src/TcpServerConnection.cpp`: the line a message is sent as, and the
reader that takes received bytes apart into messages.

The socket hands over the bytes in chunks of its own choosing. An empty one is
its way to say that the peer has closed the connection.

What the handler of `runtime/src/ProtocolClient.cpp` makes of an event is
here as well, as far as the event's own handler.

## Main definitions

* `ServerMessage`: A message as the handler gets it.
* `sendLine`: What `Send` puts on the socket.
* `Reader`: The buffer, and the calls of the handler so far.
* `dispatchCompleteLines`, `readerLoop`: The reader thread.
* `eventOf`: The event in a message.
-/

namespace MzzPlork

namespace Wire

/-- `ServerMessage`. -/
structure ServerMessage where
  type : Bytes
  payload : Bytes
  deriving DecidableEq

/-- The line of `Send`. The type is not escaped. -/
def sendLine (type payloadJson : Bytes) : Bytes :=
  ascii "\x7b\"type\":\"" ++ type ++ ascii "\",\"payload\":" ++
    (if payloadJson = [] then ascii "\x7b\x7d" else payloadJson) ++ ascii "\x7d\n"

/-- What the reader thread works on, and the calls it has made. -/
structure Reader where
  readBuffer : Bytes
  /-- `handler_` is set. -/
  hasHandler : Bool
  calls : List ServerMessage
  deriving DecidableEq

/-- A connection that has been set up. -/
def Reader.start (hasHandler : Bool) : Reader := ⟨[], hasHandler, []⟩

/-- `readBuffer_.find('\n')`, as what is before it and what is after it. -/
def splitLine : Bytes → Option (Bytes × Bytes)
  | [] => none
  | b :: t => if b = 10 then some ([], t) else (splitLine t).map (fun s => (b :: s.1, s.2))

/-- The message of a line. The payload is the text of a value that has been
    parsed, not a part of the line. -/
def messageOf (line : Bytes) : Option ServerMessage :=
  match JsonText.parse line with
  | .ok _ (.obj fields) =>
    match fields.lookup (ascii "type") with
    | some (.str type) =>
      some ⟨type, match fields.lookup (ascii "payload") with
        | some payload => JsonText.stringify payload
        | none => ascii "\x7b\x7d"⟩
    | _ => none
  | _ => none

namespace Reader

/-- The body of the loop, for a line that has been taken from the buffer. -/
def dispatchLine (r : Reader) (line : Bytes) : Reader :=
  if line = [] then r
  else
    match messageOf line with
    | none => r
    | some message => if r.hasHandler then { r with calls := r.calls ++ [message] } else r

/-- `DispatchCompleteLines`, bounded by a number of rounds. -/
def dispatchLines : Nat → Reader → Reader
  | 0, r => r
  | fuel + 1, r =>
    match splitLine r.readBuffer with
    | none => r
    | some (line, rest) => dispatchLines fuel ({ r with readBuffer := rest }.dispatchLine line)

/-- `DispatchCompleteLines`. Every round takes a byte from the buffer at
    least, so that there are enough of them. -/
def dispatchCompleteLines (r : Reader) : Reader := r.dispatchLines r.readBuffer.length

/-- One successful `recv`. -/
def receive (r : Reader) (chunk : Bytes) : Reader :=
  { r with readBuffer := r.readBuffer ++ chunk }.dispatchCompleteLines

/-- `ReaderLoop`, over what the calls of `recv` return. -/
def readerLoop : Reader → List Bytes → Reader
  | r, [] => r
  | r, chunk :: chunks => if chunk = [] then r else readerLoop (r.receive chunk) chunks

end Reader

/-- `OnMessage`, for an event: its type and its data, as the event sink gets
    them. -/
def eventOf (message : ServerMessage) : Option (Bytes × ClientObject) :=
  if message.type ≠ ascii "event" then none
  else
    match JsonText.parseObject message.payload with
    | .ok _ fields =>
      some (ClientObject.stringAt fields (ascii "eventType") [],
        match fields.lookup (ascii "data") with
        | some (.obj data) => data
        | _ => [])
    | _ => none

end Wire

end MzzPlork

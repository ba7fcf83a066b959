import MzzPlork.Base.Delimited
import MzzPlork.Core.JsonParse

/-!
# The Server's Reader

`server/src/protocol.js`: the framer that takes what a socket decodes apart into
messages. The socket decodes UTF-8 across the boundaries of its chunks, so a
chunk here is a string.

The listeners are taken not to throw. What the language says about a text that
is no JSON is a parameter.

## Main definitions

* `trim`: `String.prototype.trim`.
* `FramerEvent`: What is emitted.
* `lineEvent`: What becomes of one line.
* `MessageFramer`, `onData`: The framer and its loop.
-/

namespace MzzPlork

namespace Wire

/-- The white space and the line ends of the language. -/
def isTrimmed (u : UInt16) : Bool :=
  (9 ≤ u && u ≤ 13) || u = 32 || u = 0xA0 || u = 0x1680 || (0x2000 ≤ u && u ≤ 0x200A) ||
    u = 0x2028 || u = 0x2029 || u = 0x202F || u = 0x205F || u = 0x3000 || u = 0xFEFF

/-- `s.trim()`. -/
def trim (s : JsString) : JsString := ((s.dropWhile isTrimmed).reverse.dropWhile isTrimmed).reverse

/-- What the framer emits. -/
inductive FramerEvent where
  | message (type : JsString) (payload : JsValue)
  | protocolError (message : JsString)

section Framer

variable (toNumber : JsString → JsNumber) (syntaxErrorText : JsString → JsString)

/-- The body of the loop, for a line that is not blank. The property of a value
    that is no object is undefined. -/
def lineEvent (line : JsString) : FramerEvent :=
  match JsonParse.jsonParse toNumber line with
  | none => .protocolError (js "malformed JSON line: " ++ syntaxErrorText line)
  | some message =>
    match message.truthy, message.field (js "type") with
    | true, some (.str type) =>
      .message type (JsValue.orElse (message.field (js "payload")) (.obj []))
    | _, _ => .protocolError (js "message missing string 'type'")

/-- `MessageFramer`, and what it has emitted. -/
structure MessageFramer where
  buffer : JsString
  emitted : List FramerEvent

namespace MessageFramer

/-- A framer for a new connection. -/
def new : MessageFramer := ⟨[], []⟩

/-- A line that has been taken from the buffer. A blank one is passed over. -/
def onLine (f : MessageFramer) (line : JsString) : MessageFramer :=
  if trim line = [] then f
  else { f with emitted := f.emitted ++ [lineEvent toNumber syntaxErrorText line] }

/-- The loop of `_onData`, bounded by a number of rounds. -/
def onDataLoop : Nat → MessageFramer → MessageFramer
  | 0, f => f
  | fuel + 1, f =>
    match Delimited.cut 10 f.buffer with
    | none => f
    | some (line, rest) =>
      onDataLoop fuel ({ f with buffer := rest }.onLine toNumber syntaxErrorText line)

/-- `_onData`. Every round takes a line feed from the buffer, so that there are
    enough of them. -/
def onData (f : MessageFramer) (chunk : JsString) : MessageFramer :=
  onDataLoop toNumber syntaxErrorText (f.buffer ++ chunk).length
    { f with buffer := f.buffer ++ chunk }

/-- A framer after the chunks of a connection. -/
def received (chunks : List JsString) : MessageFramer :=
  chunks.foldl (onData toNumber syntaxErrorText) new

end MessageFramer

end Framer

end Wire

end MzzPlork

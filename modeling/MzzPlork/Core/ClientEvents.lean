import MzzPlork.Core.JsonParse

/-!
# The Client's Events

`runtime/src/ClientRuntimeInterface.cpp`: the lines the client writes to its
standard output, with an escaper of their own, and the line handler of
`bootstrapper/electron/clientLauncher.js` that reads them.

The stream of a Windows program can be in text mode, where a line feed goes out
as two bytes. The reader decodes what comes, which is UTF-8 wherever the events'
texts are, and splits it at line feeds, carriage returns and pairs of them.

## Main definitions

* `escapeJson`: The escaper.
* `emitStateEvent`, `emitServiceEvent`, `emitLogEvent`, `emitErrorEvent`: What
  is printed.
* `ClientEvent`: An event, with what it `printed`.
* `toStdout`: What leaves the process.
* `decodeUtf8`, `splitLines`, `onLine`: The reader.
-/

namespace MzzPlork

namespace EventChannel

section Printing

/-- The cases of `EscapeJson`. -/
def escapeByte (c : UInt8) : Bytes :=
  match c with
  | 34 => ascii "\\\""
  | 92 => ascii "\\\\"
  | 10 => ascii "\\n"
  | c => [c]

/-- `EscapeJson`. -/
def escapeJson (input : Bytes) : Bytes := input.flatMap escapeByte

/-- What `%s` prints of an escaped text: everything before a NUL. -/
def percentS (input : Bytes) : Bytes := (escapeJson input).takeWhile (fun c => c ≠ 0)

/-- `EmitStateEvent`. -/
def emitStateEvent (state : Bytes) : Bytes :=
  ascii "\x7b\"event\":\"state\",\"state\":\"" ++ percentS state ++ ascii "\"\x7d\n"

/-- `EmitServiceEvent`. -/
def emitServiceEvent (service status message : Bytes) : Bytes :=
  ascii "\x7b\"event\":\"service\",\"service\":\"" ++ percentS service
    ++ ascii "\",\"status\":\"" ++ percentS status
    ++ ascii "\",\"message\":\"" ++ percentS message ++ ascii "\"\x7d\n"

/-- `EmitLogEvent`. -/
def emitLogEvent (message : Bytes) : Bytes :=
  ascii "\x7b\"event\":\"log\",\"message\":\"" ++ percentS message ++ ascii "\"\x7d\n"

/-- `EmitErrorEvent`. -/
def emitErrorEvent (message : Bytes) : Bytes :=
  ascii "\x7b\"event\":\"error\",\"message\":\"" ++ percentS message ++ ascii "\"\x7d\n"

/-- One call of the four. -/
inductive ClientEvent where
  | state (name : Bytes)
  | service (name status message : Bytes)
  | log (message : Bytes)
  | error (message : Bytes)

/-- What the call prints. -/
def ClientEvent.printed : ClientEvent → Bytes
  | .state name => emitStateEvent name
  | .service name status message => emitServiceEvent name status message
  | .log message => emitLogEvent message
  | .error message => emitErrorEvent message

/-- What goes out of the process. -/
def toStdout (textMode : Bool) (t : Bytes) : Bytes :=
  if textMode then t.flatMap (fun b => if b = 10 then [13, 10] else [b]) else t

end Printing

section Reading

/-- The code units of a text in UTF-8, and `none` for what is no such text. -/
def decodeUtf8 : Bytes → Option JsString
  | [] => some []
  | a :: t =>
    if a < 0x80 then (decodeUtf8 t).map (fun s => a.toUInt16 :: s)
    else if a < 0xE0 then
      match t with
      | b :: t => do
        let c ← Wire.charOf [a, b]
        let s ← decodeUtf8 t
        some (Wire.unitsOf c ++ s)
      | _ => none
    else if a < 0xF0 then
      match t with
      | b :: c :: t => do
        let c ← Wire.charOf [a, b, c]
        let s ← decodeUtf8 t
        some (Wire.unitsOf c ++ s)
      | _ => none
    else
      match t with
      | b :: c :: d :: t => do
        let c ← Wire.charOf [a, b, c, d]
        let s ← decodeUtf8 t
        some (Wire.unitsOf c ++ s)
      | _ => none

/-- The lines of a text, and what follows the last line end. -/
def splitLines : JsString → List JsString × JsString
  | [] => ([], [])
  | u :: s =>
    if u = 13 ∧ s.head? = some 10 then
      -- The line feed ends the line, and the carriage return goes with it.
      splitLines s
    else if u = 10 ∨ u = 13 then ([] :: (splitLines s).1, (splitLines s).2)
    else
      match splitLines s with
      | (line :: lines, rest) => ((u :: line) :: lines, rest)
      | ([], rest) => ([], u :: rest)

/-- The handler of a line: what is no JSON becomes a log event. -/
def onLine (toNumber : JsString → JsNumber) (line : JsString) : JsValue :=
  match JsonParse.jsonParse toNumber line with
  | some v => v
  | none => .obj [(js "event", .str (js "log")), (js "message", .str line)]

/-- The events the bootstrapper is told of. -/
def receivedEvents (toNumber : JsString → JsNumber) (t : Bytes) : Option (List JsValue) :=
  (decodeUtf8 t).map (fun s => (splitLines s).1.map (onLine toNumber))

end Reading

end EventChannel

end MzzPlork

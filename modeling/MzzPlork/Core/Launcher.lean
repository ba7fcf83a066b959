import MzzPlork.Core.ClientEvents

/-!
# What the Launcher Shows of the Client

The callback that `bootstrapper/electron/bootstrap.js` gives to `launchClient`,
with the handlers of `clientLauncher.js` that call it for lines of the client
and for its end.

A line is handed on inside a `try`: where the callback throws, as it does for
`null`, the line comes once more as a log event. The end of the process can be
reported before the last lines have been read.

## Main definitions

* `Progress`: A call of `onProgress`.
* `onEvent`: The callback.
* `relayLine`: The handler of a line.
* `exitEvent`: The end of the process.
* `shown`: Everything that is shown of a process.
-/

namespace MzzPlork

namespace Launcher

open EventChannel

/-- The stages of the callback. -/
inductive Stage where
  | client
  | clientEvent
  deriving DecidableEq

inductive Status where
  | ok
  | error
  deriving DecidableEq

/-- A call of `onProgress`. A message or an event that is left out is `none`. -/
structure Progress where
  stage : Stage
  status : Status
  message : Option JsValue
  event : Option JsValue

/-- `event[key] === value`. -/
def carries (event : JsValue) (key value : String) : Bool :=
  match event.field (js key) with
  | some v => JsValue.strictEq v (.str (js value))
  | none => false

/-- `Client runtime ready`. -/
def readyProgress : Progress := ⟨.client, .ok, some (.str (js "Client runtime ready")), none⟩

/-- What is shown of a crash. -/
def crashProgress (code : JsString) : Progress :=
  ⟨.client, .error,
    some (.str (js "client exited unexpectedly (code " ++ code ++ js ")")), none⟩

/-- What is shown of every event. -/
def eventProgress (fmt : NumberFormat) (event : JsValue) : Progress where
  stage := .clientEvent
  status := if carries event "event" "error" then .error else .ok
  message := some (.str (Wire.jsonStringify fmt event))
  event := some event

/-- The callback: what it shows, and whether it comes to its end. -/
def onEvent (fmt : NumberFormat) (event : JsValue) : List Progress × Bool :=
  -- A property of `null` cannot be read.
  if JsValue.isNull event then ([], false)
  else
    let first := eventProgress fmt event
    if carries event "event" "error" then
      ([first, ⟨.client, .error, event.field (js "message"), none⟩], true)
    else if carries event "event" "state" && carries event "state" "ready" then
      ([first, readyProgress], true)
    else if carries event "event" "exit" && JsValue.truthy ((event.field (js "crashed")).getD .null)
    then
      match JsValue.textOf fmt (event.field (js "code")) with
      | some code => ([first, crashProgress code], true)
      | none => ([first], false)
    else ([first], true)

/-- The handler of a line. -/
def relayLine (fmt : NumberFormat) (toNumber : JsString → JsNumber) (line : JsString) :
    List Progress :=
  let relayed := onEvent fmt (onLine toNumber line)
  if relayed.2 then relayed.1
  else relayed.1 ++
    (onEvent fmt (.obj [(js "event", .str (js "log")), (js "message", .str line)])).1

/-- The event about the end of a process that was not killed. -/
def exitEvent (code : Int) : JsValue :=
  .obj [(js "event", .str (js "exit")), (js "code", .num (.finite code)), (js "signal", .null),
    (js "crashed", .bool (code ≠ 0))]

/-- Everything that is shown of a process, whose end is reported when as many of
    its lines have been read. -/
def shown (fmt : NumberFormat) (toNumber : JsString → JsNumber) (lines : List JsString)
    (read : Nat) (code : Int) : List Progress :=
  (lines.take read).flatMap (relayLine fmt toNumber) ++ (onEvent fmt (exitEvent code)).1 ++
    (lines.drop read).flatMap (relayLine fmt toNumber)

/-- What is shown as the state of the client. -/
def clientProgress (progress : List Progress) : List Progress :=
  progress.filter (fun p => p.stage = .client)

end Launcher

end MzzPlork

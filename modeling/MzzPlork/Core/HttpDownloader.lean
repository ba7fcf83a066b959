import MzzPlork.Core.Bytes

/-!
# The Client's Downloader

`runtime/src/HttpDownloader.cpp`: a download with resumption, verification and
a final rename.

The body of a response goes to `destPath + ".partial"`, which is moved over
`destPath` once its size and hash have been checked. An attempt that is cut
off leaves the partial file for the next one to resume from.

The network is a function of all requests sent so far, so a server can answer
every request as it likes. A reply is what WinHTTP makes of the connection:
either the request failed, or there is a status, the `Content-Length` where
it could be read as a number, the bytes that came through, and the error the
read loop ended with, if any. What the local machine may refuse (opening the
partial file, hashing it, renaming it) is part of the environment as well, on
top of what the file tree rules out.

An exception from hashing the downloaded file is not caught. A call that ends
so has no result. The system's own text behind a message of a failed file call
is left out.

## Main definitions

* `HttpRequest`, `Reply`: The wire.
* `Env`: Everything the code does not decide.
* `World`: The disk and the requests sent.
* `fileMatchesExpected`: The early exit's test.
* `performSingleAttempt`: One GET.
* `attemptOnce`, `attempts`: The retry loop.
* `finalize`: Verification and rename.
* `downloadAndVerify`: The whole call.
-/

namespace MzzPlork

namespace Http

/-- A GET as it is sent: `rangeFrom` is the offset of the `Range` header. -/
structure HttpRequest where
  host : Bytes
  port : UInt16
  urlPath : Bytes
  rangeFrom : Option Nat
  deriving DecidableEq

/-- What becomes of a request. `unavailable` names the WinHTTP call that could
    not be made; the other errors are system error codes. -/
inductive Reply where
  | unavailable (call : Bytes)
  | failed (error : Nat)
  | response (status : Nat) (contentLength : Option UInt32) (body : Bytes)
      (readError : Option Nat)

/-- Everything the code does not decide. The list is that of the requests sent
    so far, the current one last. -/
structure Env where
  sha256Hex : Bytes → Bytes
  server : List HttpRequest → Reply
  canOpen : List HttpRequest → Bool
  canHash : List HttpRequest → Bool
  canRename : List HttpRequest → Bool

/-- What a call works on. -/
structure World where
  disk : ClientDisk
  requests : List HttpRequest

/-- `DownloadRequest`. -/
structure DownloadRequest where
  host : Bytes
  port : UInt16
  urlPath : Bytes
  destPath : Bytes
  expectedSize : Int
  expectedHashHex : Bytes
  maxAttempts : Int

/-- `DownloadState`. -/
inductive DownloadState where
  | idle
  | downloading
  | interrupted
  | resuming
  | verifying
  | completed
  | failed
  deriving DecidableEq, Repr

/-- `DownloadResult`. -/
structure DownloadResult where
  ok : Bool
  error : Bytes
  finalState : DownloadState
  resumed : Bool
  deriving DecidableEq

/-- `AttemptOutcome`. -/
inductive AttemptOutcome where
  | completed
  | interrupted
  | hardFailure
  | restartFromZero
  deriving DecidableEq, Repr

/-- `AttemptResult`. -/
structure AttemptResult where
  outcome : AttemptOutcome
  error : Bytes
  usedRange : Bool

/-- `ERROR_WINHTTP_TIMEOUT`. -/
def errorTimeout : Nat := 12002

/-- `std::to_string`. -/
def decimal (n : Int) : Bytes := ascii (toString n)

/-- `partialPath`. -/
def partialPath (destPath : Bytes) : Bytes := destPath ++ ascii ".partial"

/-- A failed result with its message. -/
def failure (error : Bytes) : DownloadResult := ⟨false, error, .failed, false⟩

/-- `FileMatchesExpected`. A file that cannot be hashed does not match. -/
def fileMatchesExpected (env : Env) (w : World) (path : Bytes) (expectedSize : Int)
    (expectedHashHex : Bytes) : Bool :=
  match w.disk.content (winPath.locate path) with
  | none => false
  | some content =>
    -- A size of zero is one that is not known, and so is an empty hash.
    if expectedSize > 0 ∧ (content.length : Int) ≠ expectedSize then false
    else if expectedHashHex ≠ [] then
      env.canHash w.requests && env.sha256Hex content = expectedHashHex
    else true

/-- `ofstream` and the writes: in append mode behind what is there, otherwise
    over it. -/
def writePartial (env : Env) (w : World) (path : Bytes) (appendMode : Bool) (body : Bytes) :
    Option World :=
  if env.canOpen w.requests then
    -- `std::ios::trunc` outside append mode.
    let before := if appendMode then (w.disk.content (winPath.locate path)).getD [] else []
    (w.disk.write (winPath.locate path) (before ++ body)).map (fun disk => { w with disk := disk })
  else none

/-- The attempt once there is a response with status 200 or 206. -/
def receiveBody (env : Env) (path : Bytes) (status : Nat) (contentLength : Option UInt32)
    (body : Bytes) (readError : Option Nat) (w : World) : World × AttemptResult :=
  let serverHonoredRange : Bool := status = 206
  match writePartial env w path serverHonoredRange body with
  | none =>
    (w, ⟨.interrupted, ascii "could not open partial file for writing: " ++ path, false⟩)
  | some w =>
    match readError with
    | some error =>
      if error = errorTimeout then
        (w, ⟨.interrupted, ascii "connection timed out mid-transfer", serverHonoredRange⟩)
      else
        (w, ⟨.interrupted, ascii "connection dropped mid-transfer (error " ++ decimal error
          ++ ascii ")", serverHonoredRange⟩)
    | none =>
      -- The byte counter is a DWORD and wraps.
      let totalBytes := UInt32.ofNat body.length
      match contentLength with
      | some expected =>
        if totalBytes ≠ expected then
          (w, ⟨.interrupted, ascii "connection closed before the full response body arrived ("
            ++ decimal totalBytes.toNat ++ ascii " of " ++ decimal expected.toNat
            ++ ascii " bytes)", serverHonoredRange⟩)
        else (w, ⟨.completed, [], serverHonoredRange⟩)
      | none => (w, ⟨.completed, [], serverHonoredRange⟩)

/-- The GET an attempt sends. -/
def rangeRequest (request : DownloadRequest) (offset : Int) : HttpRequest where
  host := request.host
  port := request.port
  urlPath := request.urlPath
  rangeFrom := if offset > 0 then some offset.toNat else none

/-- `PerformSingleAttempt`. -/
def performSingleAttempt (env : Env) (request : DownloadRequest) (path : Bytes) (offset : Int)
    (w : World) : World × AttemptResult :=
  -- The request counts as sent also where WinHTTP could not make it.
  let w := { w with requests := w.requests ++ [rangeRequest request offset] }
  match env.server w.requests with
  | .unavailable call => (w, ⟨.interrupted, call ++ ascii " failed", false⟩)
  | .failed error =>
    if error = errorTimeout then (w, ⟨.interrupted, ascii "request timed out", false⟩)
    else (w, ⟨.interrupted, ascii "HTTP request failed (error " ++ decimal error ++ ascii ")",
      false⟩)
  | .response status contentLength body readError =>
    if status = 416 then (w, ⟨.restartFromZero, ascii "HTTP 416 Range Not Satisfiable", false⟩)
    else if status = 404 then (w, ⟨.hardFailure, ascii "HTTP 404", false⟩)
    -- The server may recover, so its errors are worth another attempt.
    else if status ≥ 500 then (w, ⟨.interrupted, ascii "HTTP " ++ decimal status, false⟩)
    else if status ≠ 200 ∧ status ≠ 206 then
      (w, ⟨.hardFailure, ascii "unexpected HTTP status " ++ decimal status, false⟩)
    else receiveBody env path status contentLength body readError w

/-- `fs::remove(path, ec)`, its result ignored as every caller ignores it. -/
def removePath (w : World) (path : Bytes) : World :=
  { w with disk := (w.disk.erase (winPath.locate path)).1 }

/-- The offset a call starts at. A partial file that is too long is discarded. -/
def initialOffset (w : World) (path : Bytes) (expectedSize : Int) : World × Int :=
  match fsFileSize w.disk path with
  | none => (w, 0)
  | some size =>
    if expectedSize > 0 ∧ size ≥ expectedSize then (removePath w path, 0) else (w, size)

/-- The variables of the retry loop. -/
structure LoopState where
  world : World
  offset : Int
  everResumed : Bool
  lastError : Bytes

/-- How a turn of the loop ends. -/
inductive LoopStep where
  | again (s : LoopState)
  | completed (s : LoopState)
  | gaveUp (w : World) (result : DownloadResult)

/-- The world at the end of a turn. -/
def LoopStep.world (t : LoopStep) : World :=
  match t with
  | .again s => s.world
  | .completed s => s.world
  | .gaveUp w _ => w

/-- One turn of the retry loop. -/
def attemptOnce (env : Env) (request : DownloadRequest) (path : Bytes) (s : LoopState) :
    LoopStep :=
  let attempt := performSingleAttempt env request path s.offset s.world
  match attempt.2.outcome with
  | .completed =>
    .completed { s with world := attempt.1, everResumed := s.everResumed || attempt.2.usedRange }
  -- No further attempt is made, and the partial file goes.
  | .hardFailure => .gaveUp (removePath attempt.1 path) (failure attempt.2.error)
  | .restartFromZero =>
    .again { s with
      world := removePath attempt.1 path, offset := 0, lastError := attempt.2.error }
  | .interrupted =>
    .again { s with
      -- The next attempt goes on from what has been received.
      world := attempt.1, offset := (fsFileSize attempt.1.disk path).getD 0,
      lastError := attempt.2.error }

/-- At most so many turns of the retry loop. -/
def attempts (env : Env) (request : DownloadRequest) (path : Bytes) :
    Nat → LoopState → LoopStep
  | 0, s => .again s
  | n + 1, s =>
    match attempts env request path n s with
    | .again s => attemptOnce env request path s
    | t => t

/-- The number of attempts a request allows. -/
def attemptLimit (request : DownloadRequest) : Nat :=
  if request.maxAttempts > 0 then request.maxAttempts.toNat else 1

/-- The end of a call, from the size check to the rename. -/
def finalize (env : Env) (request : DownloadRequest) (path : Bytes) (s : LoopState) :
    World × Option DownloadResult :=
  match s.world.disk.content (winPath.locate path) with
  | none =>
    (s.world, some (failure (ascii "could not stat partial file after download: ")))
  | some content =>
    if request.expectedSize > 0 ∧ (content.length : Int) ≠ request.expectedSize then
      (removePath s.world path, some (failure (ascii "size mismatch: expected "
        ++ decimal request.expectedSize ++ ascii ", got " ++ decimal content.length)))
    -- `Sha256HexOfFile` throws, and nothing catches it here.
    else if request.expectedHashHex ≠ [] ∧ env.canHash s.world.requests = false then
      (s.world, none)
    else if request.expectedHashHex ≠ [] ∧ env.sha256Hex content ≠ request.expectedHashHex then
      (removePath s.world path, some (failure (ascii "hash mismatch: expected "
        ++ request.expectedHashHex ++ ascii ", got " ++ env.sha256Hex content)))
    else
      match if env.canRename s.world.requests then
          s.world.disk.rename (winPath.locate path) (winPath.locate request.destPath)
        else none with
      | none => (s.world, some (failure (ascii "could not finalize downloaded file: ")))
      | some disk =>
        ({ s.world with disk := disk }, some ⟨true, [], .completed, s.everResumed⟩)

/-- The loop's variables before the first attempt: the directory is made, and
    the partial file looked at. -/
def startDownload (request : DownloadRequest) (w : World) : LoopState :=
  let w := { w with disk := createDirectories w.disk request.destPath }
  let start := initialOffset w (partialPath request.destPath) request.expectedSize
  { world := start.1, offset := start.2, everResumed := false, lastError := [] }

/-- `DownloadAndVerify`. No result means that hashing threw. -/
def downloadAndVerify (env : Env) (request : DownloadRequest) (w : World) :
    World × Option DownloadResult :=
  if fileMatchesExpected env w request.destPath request.expectedSize request.expectedHashHex then
    (w, some ⟨true, [], .completed, false⟩)
  else
    let path := partialPath request.destPath
    match attempts env request path (attemptLimit request) (startDownload request w) with
    | .completed s => finalize env request path s
    | .gaveUp w result => (w, some result)
    | .again s =>
      (s.world, some (failure (ascii "download did not complete after "
        ++ decimal (attemptLimit request) ++ ascii " attempt(s): " ++ s.lastError)))

end Http

end MzzPlork

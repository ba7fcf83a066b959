import MzzPlork.Core.NodePath

/-!
# The Bootstrapper's Downloader

`bootstrapper/electron/downloader.js`: a download into the staging directory,
resumed where a partial file lies there, checked by size and hash.

The file grows in place: there is no separate partial file, and a download
that fails its checks is deleted. Redirects are followed three times. A server
that does not honour the range gets a second, plain request.

`client.get` throws at a URL it cannot parse, or that is not of its protocol. A
redirect is followed in the callback of a response, where nothing catches what it
throws: the promise is never settled then.

The network is a function of all requests sent so far, as in the client's
downloader. A request either brings no response, with the error's message, or
a response whose body may break off with an error. The text of an error the
file system raises is a parameter too; it goes by the call, the path and
whether there is something at that path. Of `fs.stat` only the size is used,
which for a directory is up to the system.

## Main definitions

* `NodeRequest`, `NodeReply`: The wire.
* `FsCall`: The file calls whose errors are reported.
* `NodeEnv`: Everything the code does not decide.
* `NodeWorld`: The disk and the requests sent.
* `FileEntry`: One file of a manifest.
* `statSizeIfExists`, `mkdirRecursive`: The file calls.
* `attemptFresh`, `attemptFrom`: The requests of one download.
* `downloadFile`: The whole download.
-/

namespace MzzPlork

namespace Bootstrapper

/-- A GET as it is sent. -/
structure NodeRequest where
  url : JsString
  rangeFrom : Option Nat
  deriving DecidableEq

/-- What becomes of a request. -/
inductive NodeReply where
  | failed (message : JsString)
  | response (status : Nat) (location : Option JsString) (body : Bytes)
      (dropped : Option JsString)

/-- The file calls whose errors are reported. -/
inductive FsCall where
  | mkdir
  | open
  | read
  deriving DecidableEq

/-- Everything the code does not decide. The server's list is that of the
    requests sent so far. The client that `clientFor` chooses for a URL takes it
    or throws (`canGet`). -/
structure NodeEnv where
  sha256Hex : Bytes → JsString
  canGet : JsString → Bool
  server : List NodeRequest → NodeReply
  fsMessage : FsCall → JsLoc → Bool → JsString
  dirSize : JsLoc → Nat
  cwd : JsString → List JsString
  fmt : NumberFormat

/-- What the bootstrapper works on. -/
structure NodeWorld where
  disk : NodeDisk
  requests : List NodeRequest

/-- One file of a manifest or of the ledger. A hash that is not a string passes
    the manifest's validation when its text looks like one. -/
structure FileEntry where
  path : JsString
  size : JsNumber
  hash : JsValue
  version : JsString
  url : Option JsString

/-- An error, or, if nothing catches it, that there is no end. -/
structure Thrown where
  message : JsString
  corrupted : Bool
  uncaught : Bool
  deriving DecidableEq

/-- The promise stays pending. -/
def Thrown.pending : Thrown := ⟨[], false, true⟩

/-- `fs.statSync(p).size`, `none` where there is nothing. -/
def statSizeIfExists (env : NodeEnv) (d : NodeDisk) (l : JsLoc) : Option Nat :=
  match d.tree.node l with
  | some (.file content) => some content.length
  | some .dir => some (env.dirSize l)
  | none => none

/-- The text of the error a file call raises. What is at the path tells an error
    like `EISDIR` from one like `ENOENT`. -/
def fsError (env : NodeEnv) (d : NodeDisk) (call : FsCall) (l : JsLoc) : Thrown :=
  ⟨env.fsMessage call l (d.occupied l), false, false⟩

/-- `fs.mkdir(p, { recursive: true })`. -/
def mkdirRecursive (d : NodeDisk) (l : JsLoc) : NodeDisk × Bool := d.mkdirs l.inits

/-- `path.dirname`. -/
def dirname (l : JsLoc) : JsLoc := l.dropLast

/-- `fs.unlink`. A directory is not unlinked. -/
def unlink (w : NodeWorld) (l : JsLoc) : NodeWorld := { w with disk := (w.disk.remove l).1 }

/-- `${n}`. -/
def numberText (env : NodeEnv) (n : JsNumber) : JsString :=
  match n with
  | .finite q => env.fmt q
  | .infinite negative => js (if negative then "-Infinity" else "Infinity")

/-- The body goes to the file, behind what is there or over it. -/
def receive (env : NodeEnv) (destPath : JsLoc) (resumed : Bool) (body : Bytes)
    (dropped : Option JsString) (w : NodeWorld) : NodeWorld × Option Thrown :=
  let before := if resumed then (w.disk.content destPath).getD [] else []
  -- What came through before a drop is flushed before the error is passed on.
  match w.disk.write destPath (before ++ body) with
  -- The stream cannot be opened: a directory in its place, or none above it.
  | none => (w, some (fsError env w.disk .open destPath))
  | some disk => ({ w with disk := disk }, dropped.map (fun message => ⟨message, false, false⟩))

/-- A response that is taken as it is. -/
def settle (env : NodeEnv) (destPath : JsLoc) (url : JsString) (status : Nat) (body : Bytes)
    (dropped : Option JsString) (w : NodeWorld) : NodeWorld × Option Thrown :=
  if status ≠ 200 ∧ status ≠ 206 then
    (w, some ⟨js "download failed: HTTP " ++ env.fmt status ++ js " for " ++ url, false, false⟩)
  else receive env destPath (status = 206) body dropped w

/-- Where a response redirects to. -/
def redirectTarget (status : Nat) (location : Option JsString) : Option JsString :=
  -- A `Location` that is empty counts as none.
  if status = 301 ∨ status = 302 ∨ status = 307 ∨ status = 308 then
    location.filter (fun target => target ≠ [])
  else none

/-- `attempt` without a range: the request, and the redirects that are left. -/
def attemptFresh (env : NodeEnv) (destPath : JsLoc) :
    Nat → JsString → NodeWorld → NodeWorld × Option Thrown
  | redirectsLeft, url, w =>
    let w := { w with requests := w.requests ++ [⟨url, none⟩] }
    match env.server w.requests with
    | .failed message => (w, some ⟨message, false, false⟩)
    | .response status location body dropped =>
      match redirectsLeft, redirectTarget status location with
      | redirectsLeft + 1, some target =>
        if env.canGet target then attemptFresh env destPath redirectsLeft target w
        else (w, some Thrown.pending)
      -- A redirect that is not followed is an error status like any other.
      | _, _ => settle env destPath url status body dropped w

/-- `attempt` from an offset. A server that does not honour the range is asked
    again for everything. -/
def attemptFrom (env : NodeEnv) (destPath : JsLoc) (offset : Nat) :
    Nat → JsString → NodeWorld → NodeWorld × Option Thrown
  | redirectsLeft, url, w =>
    let w := { w with requests := w.requests ++ [⟨url, some offset⟩] }
    match env.server w.requests with
    | .failed message => (w, some ⟨message, false, false⟩)
    | .response status location body dropped =>
      match redirectsLeft, redirectTarget status location with
      | redirectsLeft + 1, some target =>
        if env.canGet target then attemptFrom env destPath offset redirectsLeft target w
        else (w, some Thrown.pending)
      | redirectsLeft, _ =>
        -- The offset is gone with the file; the redirects used up are not given back.
        if status = 206 then settle env destPath url status body dropped w
        else attemptFresh env destPath redirectsLeft url (unlink w destPath)

/-- The file as it was received, checked. -/
def checkDownload (env : NodeEnv) (destPath : JsLoc) (expected : FileEntry) (w : NodeWorld) :
    NodeWorld × Option Thrown :=
  match w.disk.content destPath with
  | none => (w, some (fsError env w.disk .read destPath))
  | some content =>
    -- The size is checked first, so a cut-off file never reports its hash.
    if !expected.size.isNat content.length then
      (unlink w destPath, some ⟨js "size mismatch: expected " ++ numberText env expected.size
        ++ js ", got " ++ env.fmt content.length, true, false⟩)
    else if !JsValue.strictEq (.str (env.sha256Hex content)) expected.hash then
      match JsValue.toText env.fmt expected.hash with
      | some hash =>
        (unlink w destPath, some ⟨js "hash mismatch: expected " ++ hash ++ js ", got "
          ++ env.sha256Hex content, true, false⟩)
      | none =>
        (unlink w destPath, some ⟨js "Cannot convert object to primitive value", false, false⟩)
    else (w, none)

/-- The offset a download starts at. A file that is complete, or too long, is
    deleted first. -/
def initialOffset (env : NodeEnv) (destPath : JsLoc) (expected : FileEntry) (w : NodeWorld) :
    NodeWorld × Nat :=
  match statSizeIfExists env w.disk destPath with
  | none => (w, 0)
  | some size =>
    -- An empty file that should not be empty stays, and is written over.
    if expected.size.above size then (w, size) else (unlink w destPath, 0)

/-- `downloadFile`, with the error it rejects with, if it comes to an end. -/
def downloadFile (env : NodeEnv) (url : JsString) (destPath : JsLoc) (expected : FileEntry)
    (w : NodeWorld) : NodeWorld × Option Thrown :=
  let made := mkdirRecursive w.disk (dirname destPath)
  let w := { w with disk := made.1 }
  if made.2 then
    let start := initialOffset env destPath expected w
    let received :=
      if start.2 > 0 then attemptFrom env destPath start.2 3 url start.1
      else attemptFresh env destPath 3 url start.1
    match received.2 with
    | some err => (received.1, some err)
    | none => checkDownload env destPath expected received.1
  else (w, some (fsError env w.disk .mkdir (dirname destPath)))

end Bootstrapper

end MzzPlork

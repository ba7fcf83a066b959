import MzzPlork.Core.ResourceManager

/-!
# The Client's File Cache

`FileCacheService` (`runtime/src/CacheService.cpp`), the cache that keeps every
entry in a file of its own under `<appDataRoot>\cache`.

The file's name is made from the key: what is not a letter, a digit or one of
`-_.` becomes an underscore. A stream opens a file unless a directory is in its
place, and `fs::remove` also removes an empty directory.

## Main definitions

* `sanitizeKey`: The name an entry has.
* `FileCacheService`: The service, which knows its directory only.
* `initializeCache`, `has`, `put`, `get`, `remove`: Its functions.
* `Call`, `afterCall`, `afterCalls`: A sequence of calls and what it does to
  the disk.
-/

namespace MzzPlork

/-- `std::isalnum`, in the locale a program starts in. -/
def isAlnum (b : UInt8) : Bool :=
  (48 ≤ b && b ≤ 57) || (65 ≤ b && b ≤ 90) || (97 ≤ b && b ≤ 122)

/-- A byte of a key in its file name. -/
def sanitizeByte (c : UInt8) : UInt8 :=
  if isAlnum c || c = 45 || c = 95 || c = 46 then c else 95

/-- `SanitizeKey`. -/
def sanitizeKey (key : Bytes) : Bytes :=
  let safe := key.map sanitizeByte
  if safe = [] then ascii "_" else safe

/-- `FileCacheService`. -/
structure FileCacheService where
  cacheDir : Bytes

namespace FileCacheService

/-- `PathFor`. -/
def pathFor (s : FileCacheService) (key : Bytes) : Bytes :=
  joinPath s.cacheDir (sanitizeKey key ++ ascii ".cache")

/-- `Initialize`. The reason is the error code's text. -/
def initializeCache (appDataRoot reason : Bytes) (d : ClientDisk) :
    FileCacheService × ClientDisk × ServiceResult :=
  let cacheDir := joinPath appDataRoot (ascii "cache")
  match createDirectoryTree d cacheDir with
  | (d, true) => (⟨cacheDir⟩, d, ⟨.ok, ascii "cache ready at " ++ cacheDir⟩)
  | (d, false) =>
    (⟨cacheDir⟩, d, ⟨.failed, ascii "could not create cache directory: " ++ reason⟩)

variable (s : FileCacheService)

/-- `Has`. -/
def has (d : ClientDisk) (key : Bytes) : Bool := fsExists d (s.pathFor key)

/-- `Put`, false where the file cannot be opened. -/
def put (d : ClientDisk) (key data : Bytes) : ClientDisk × Bool :=
  match d.write (winPath.locate (s.pathFor key)) data with
  | some d => (d, true)
  | none => (d, false)

/-- `Get`. -/
def get (d : ClientDisk) (key : Bytes) : Option Bytes := d.content (winPath.locate (s.pathFor key))

/-- `Remove`. -/
def remove (d : ClientDisk) (key : Bytes) : ClientDisk × Bool :=
  d.erase (winPath.locate (s.pathFor key))

/-- A call of one of the four functions. -/
inductive Call where
  | has (key : Bytes)
  | put (key data : Bytes)
  | get (key : Bytes)
  | remove (key : Bytes)
  deriving DecidableEq

/-- The key it is about. -/
def Call.key : Call → Bytes
  | .has key => key
  | .put key _ => key
  | .get key => key
  | .remove key => key

/-- What a call leaves on the disk. -/
def afterCall (d : ClientDisk) (c : Call) : ClientDisk :=
  match c with
  | .has _ => d
  | .put key data => (s.put d key data).1
  | .get _ => d
  | .remove key => (s.remove d key).1

/-- What a sequence of calls leaves on the disk. -/
def afterCalls (d : ClientDisk) (cs : List Call) : ClientDisk := cs.foldl s.afterCall d

end FileCacheService

end MzzPlork

import MzzPlork.Base.FileTree
import MzzPlork.Core.Bytes
import MzzPlork.Core.JsValue

/-!
# Paths in the Bootstrapper

`path.join` and `path.resolve` of Node's Windows flavour, from a directory that
is given by its location.

The two agree on relative paths and on nothing else. `path.join` glues the
pieces behind the directory whatever they are. `path.resolve` starts over at a
path that is rooted, and at one that names a drive it starts from what that
drive's current directory is, which for the directory's own drive is the
directory itself.

## Main definitions

* `jsPath`: The path syntax.
* `PathRoot`, `splitRoot`: What a path says before its pieces.
* `pathJoin`: `path.join`.
* `pathResolve`: `path.resolve`.
* `resolveSafePath`: The updater's guard.
-/

namespace MzzPlork

/-- A location as the bootstrapper's files have it. -/
abbrev JsLoc := Loc JsString

/-- The disk as the bootstrapper sees it. -/
abbrev NodeDisk := Disk JsString Bytes

/-- Windows paths over UTF-16: `/` and `\` separate, `.` is the dot. -/
def jsPath : PathSyntax UInt16 where
  isSep := fun c => c = 47 || c = 92
  dot := 46
  dot_not_sep := by decide

/-- What a path says before its pieces: a device, and whether it is rooted. -/
structure PathRoot where
  device : Option JsString
  rooted : Bool
  deriving DecidableEq

def isLetter (c : UInt16) : Bool := (65 ≤ c && c ≤ 90) || (97 ≤ c && c ≤ 122)

/-- `toLowerCase` on a device. -/
def lowerCase (s : JsString) : JsString := s.map (fun c => if 65 ≤ c && c ≤ 90 then c + 32 else c)

def startsWithSep (s : JsString) : Bool :=
  match s with
  | c :: _ => jsPath.isSep c
  | [] => false

/-- `\\server\share` at the start of a path that begins with two separators,
    `none` where there is no such name. -/
def splitShare (rest : JsString) : Option (JsString × JsString) :=
  let isName := fun c => !jsPath.isSep c
  let server := rest.takeWhile isName
  let behind := (rest.dropWhile isName).dropWhile jsPath.isSep
  let share := behind.takeWhile isName
  if server = [] ∨ share = [] then none
  else some (js "\\\\" ++ server ++ js "\\" ++ share, behind.dropWhile isName)

/-- What a path says before its pieces, and the pieces as they are written. -/
def splitRoot (s : JsString) : PathRoot × JsString :=
  match s with
  | c :: d :: rest =>
    if jsPath.isSep c && jsPath.isSep d then
      match splitShare rest with
      | some (device, tail) => (⟨some device, true⟩, tail)
      | none => (⟨none, true⟩, s)
    else if isLetter c && d = 58 then (⟨some [c, d], startsWithSep rest⟩, rest)
    else (⟨none, startsWithSep s⟩, s)
  | s => (⟨none, startsWithSep s⟩, s)

/-- Whether a location is on a drive. -/
def onDrive (l : JsLoc) (device : JsString) : Bool :=
  l.head?.map lowerCase = some (lowerCase device)

/-- `path.join(base, rel)`. -/
def pathJoin (base : JsLoc) (rel : JsString) : JsLoc :=
  jsPath.resolve base (jsPath.components rel)

/-- `path.resolve(base, rel)`. `cwd` is the current directory of a drive. -/
def pathResolve (cwd : JsString → List JsString) (base : JsLoc) (rel : JsString) : JsLoc :=
  let split := splitRoot rel
  let pieces := jsPath.components split.2
  match split.1.device with
  | none =>
    if split.1.rooted then jsPath.resolve (base.take 1) pieces else jsPath.resolve base pieces
  | some device =>
    if split.1.rooted then jsPath.resolve [device] pieces
    else if onDrive base device then jsPath.resolve (device :: base.tail) pieces
    else jsPath.resolve (device :: cwd device) pieces

/-- A location written out. -/
def renderLoc (l : JsLoc) : JsString := List.intercalate (js "\\") l

/-- `resolveSafePath`, or the message of the error it throws. -/
def resolveSafePath (cwd : JsString → List JsString) (baseDir : JsLoc) (relPath : JsString) :
    Except JsString JsLoc :=
  let resolved := pathResolve cwd baseDir relPath
  if Inside baseDir resolved then .ok resolved
  else .error (js "unsafe file path in manifest: \"" ++ relPath ++ js "\" escapes "
    ++ renderLoc baseDir)

end MzzPlork

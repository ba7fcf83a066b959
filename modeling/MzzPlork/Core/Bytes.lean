import MzzPlork.Base.FileTree

/-!
# Byte Strings and the Client's File Calls

`std::string` is a list of bytes, and so is the content of a file. The client
names files by such strings, with both slash kinds as separators, and reaches
them through `std::filesystem`, whose calls are stated here over the file tree
of `Base.FileTree`.

A directory has no size: asking for one is reported through the error code,
which every caller in the client treats like a missing file.

A call takes its path as a C string, up to the first NUL. A path is read here
as it stands, which is the same for a path that `IsCString`. Only a path out of
a manifest can be another one: the client's own texts and its arguments are C
strings.

## Main definitions

* `Bytes`: The type of a C++ string and of file contents.
* `ascii`: A string literal as bytes.
* `cString`, `IsCString`: What a call has of a path.
* `winPath`: The path syntax the client writes its paths in.
* `fsExists`: `std::filesystem::exists`.
* `fsFileSize`: `std::filesystem::file_size`, `none` for its error code.
* `createDirectories`: `create_directories(path(p).parent_path())`.
* `createDirectoryTree`: `create_directories(p)`.
-/

namespace MzzPlork

/-- A C++ string, and the content of a file. -/
abbrev Bytes := List UInt8

/-- A literal of the source as bytes. The source's literals are all ASCII. -/
def ascii (s : String) : Bytes := s.toList.map (fun c => c.toNat.toUInt8)

/-- What a call has of a path: everything before a NUL. -/
def cString (p : Bytes) : Bytes := p.takeWhile (fun c => c ≠ 0)

/-- A path that a call has as it stands. -/
def IsCString (p : Bytes) : Prop := cString p = p

instance (p : Bytes) : Decidable (IsCString p) := inferInstanceAs (Decidable (_ = _))

/-- What is written behind a path with a NUL in it does not reach a call. -/
theorem cString_append (p suffix : Bytes) (h : ¬ IsCString p) :
    cString (p ++ suffix) = cString p := by
  unfold IsCString at h
  unfold cString at h ⊢
  rw [List.takeWhile_append, if_neg]
  intro hlen
  exact h ((List.takeWhile_prefix _).eq_of_length hlen)

/-- Windows paths: `/` and `\` separate, `.` is the dot. -/
def winPath : PathSyntax UInt8 where
  isSep := fun c => c = 47 || c = 92
  dot := 46
  dot_not_sep := by decide

/-- The disk as the client sees it. -/
abbrev ClientDisk := Disk Bytes Bytes

/-- `dir + "\\" + rel`. -/
def joinPath (dir rel : Bytes) : Bytes := dir ++ 92 :: rel

theorem locate_joinPath (dir rel : Bytes) :
    winPath.locate (joinPath dir rel)
      = winPath.resolve (winPath.locate dir) (winPath.components rel) :=
  winPath.locate_join dir rel 92 (by decide)

/-- `fs::exists(p, ec)`. -/
def fsExists (d : ClientDisk) (p : Bytes) : Bool := d.occupied (winPath.locate p)

/-- `fs::file_size(p, ec)`, `none` when it reports an error. -/
def fsFileSize (d : ClientDisk) (p : Bytes) : Option Int :=
  (d.content (winPath.locate p)).map (fun c => (c.length : Int))

/-- `fs::create_directories(fs::path(p).parent_path(), ec)`, its error code
    ignored as every caller ignores it. -/
def createDirectories (d : ClientDisk) (p : Bytes) : ClientDisk :=
  (d.mkdirs (winPath.parents p)).1

/-- `fs::create_directories(p, ec)`, with whether it reported no error. -/
def createDirectoryTree (d : ClientDisk) (p : Bytes) : ClientDisk × Bool :=
  d.mkdirs (winPath.parents (joinPath p []))

end MzzPlork

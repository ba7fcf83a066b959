import Mathlib.Data.List.Infix
import MzzPlork.Core.Protocol

/-!
# The Server's Resources

`server/src/resourceManifest.js` and `server/src/httpResourceServer.js`: the
manifest that is computed from the resource directory, and the server the files
are fetched from.

A directory holds entries under names of UTF-16 code units, compared as they
are. The dependency file is what `JSON.parse` makes of its text. An exception
in the request listener, or an error of the stream behind a response, is caught
nowhere and ends the process, so there is no answer.

## Main definitions

* `ResourceDir`: The resource directory.
* `loadDependencyConfig`, `dependenciesOf`: The declared dependencies.
* `computeManifest`: The manifest.
* `resolveResourceFile`: The file a request is for.
* `decodeURIComponent`: Percent decoding.
* `createHttpResourceServer`: The answer to a request.
-/

namespace MzzPlork

namespace Server

/-- What lies in a directory: a regular file, or something else. -/
inductive DirEntry where
  | file (content : Bytes)
  | other

/-- A name that a file system allows in a directory. -/
structure LegalName (name : JsString) : Prop where
  nonempty : name ≠ []
  separator : 47 ∉ name
  nul : 0 ∉ name
  self : name ≠ js "."
  parent : name ≠ js ".."

/-- A directory, in the order it is read in. -/
structure ResourceDir where
  entries : List (JsString × DirEntry)
  legal : ∀ e ∈ entries, LegalName e.1
  distinct : (entries.map Prod.fst).Nodup

/-- One resource of the manifest. -/
structure ManifestEntry where
  id : JsString
  path : JsString
  size : Nat
  hash : JsString
  version : JsString
  dependencies : List JsValue

/-- What `computeManifest` returns. -/
structure ResourceManifest where
  manifestVersion : JsString
  resources : List ManifestEntry

/-- `loadDependencyConfig`, for a file that may be missing and whose text may be
    no JSON. -/
def loadDependencyConfig (config : Option (Option JsValue)) : JsValue :=
  match config with
  | some (some v) => v
  | _ => .obj []

/-- `Array.isArray(v) ? v : []`. -/
def itemsOf : Option JsValue → List JsValue
  | some (.arr items) => items
  | _ => []

/-- The dependencies declared under a name, `none` where `null` is asked for a
    property. -/
def dependenciesOf (dependencyConfig : JsValue) (name : JsString) : Option (List JsValue) :=
  match dependencyConfig with
  | .null => none
  -- The properties of an array are its items, under their indices.
  | .arr items => some (itemsOf ((items.zipIdx.find? (fun item => js (toString item.2) = name)).map
      Prod.fst))
  | v => some (itemsOf (v.field name))

/-- The loop of `computeManifest`. What is no regular file is left out. -/
def manifestEntries (sha256Hex : Bytes → JsString) (manifestVersion : JsString)
    (dependencyConfig : JsValue) : List (JsString × DirEntry) → Option (List ManifestEntry)
  | [] => some []
  | (_, .other) :: entries => manifestEntries sha256Hex manifestVersion dependencyConfig entries
  | (name, .file content) :: entries => do
    let dependencies ← dependenciesOf dependencyConfig name
    let resources ← manifestEntries sha256Hex manifestVersion dependencyConfig entries
    some (⟨name, name, content.length, sha256Hex content, manifestVersion, dependencies⟩
      :: resources)

/-- `computeManifest`, `none` where it throws. -/
def computeManifest (sha256Hex : Bytes → JsString) (resourcesDir : ResourceDir)
    (manifestVersion : JsString) (config : Option (Option JsValue)) : Option ResourceManifest :=
  (manifestEntries sha256Hex manifestVersion (loadDependencyConfig config)
    resourcesDir.entries).map (ResourceManifest.mk manifestVersion)

/-- What is at `path.join(resourcesDir, id)`, for an `id` without separators. -/
def ResourceDir.at (resourcesDir : ResourceDir) (id : JsString) : Option DirEntry :=
  -- The directory itself is there, too.
  if id = js "." then some .other else resourcesDir.entries.lookup id

/-- `resolveResourceFile`, with what is at the path it returns. -/
def resolveResourceFile (resourcesDir : ResourceDir) (id : JsString) : Option DirEntry :=
  if id = [] ∨ 47 ∈ id ∨ 92 ∈ id ∨ js ".." <:+: id then none else resourcesDir.at id

section Uri

/-- A code unit that stands for itself, or an escaped byte. -/
inductive UriPart where
  | unit (u : UInt16)
  | octet (b : UInt8)

/-- The byte two digits escape. -/
def octetOf (high low : UInt16) : Option UriPart := do
  let h ← Wire.hexOf high
  let l ← Wire.hexOf low
  some (.octet (16 * h + l).toUInt8)

/-- The parts of a string. Two digits follow a `%`. -/
def uriParts : JsString → Option (List UriPart)
  | [] => some []
  | u :: s =>
    if u = 37 then
      match s with
      | high :: low :: s => do
        let part ← octetOf high low
        let parts ← uriParts s
        some (part :: parts)
      | _ => none
    else (uriParts s).map (fun parts => .unit u :: parts)

/-- The bytes of each character, put together. -/
def joinParts : List UriPart → Option JsString
  | [] => some []
  | .unit u :: parts => (joinParts parts).map (fun s => u :: s)
  | .octet a :: parts =>
    if a < 0x80 then (joinParts parts).map (fun s => a.toUInt16 :: s)
    else if a < 0xE0 then
      match parts with
      | .octet b :: parts => do
        let c ← Wire.charOf [a, b]
        let s ← joinParts parts
        some (Wire.unitsOf c ++ s)
      | _ => none
    else if a < 0xF0 then
      match parts with
      | .octet b :: .octet c :: parts => do
        let c ← Wire.charOf [a, b, c]
        let s ← joinParts parts
        some (Wire.unitsOf c ++ s)
      | _ => none
    else
      match parts with
      | .octet b :: .octet c :: .octet d :: parts => do
        let c ← Wire.charOf [a, b, c, d]
        let s ← joinParts parts
        some (Wire.unitsOf c ++ s)
      | _ => none

/-- `decodeURIComponent`, `none` where it throws a `URIError`. -/
def decodeURIComponent (s : JsString) : Option JsString := (uriParts s).bind joinParts

end Uri

/-- What a request is answered with. -/
structure HttpResponse where
  status : Nat
  contentLength : Option Nat
  body : Bytes
  deriving DecidableEq

/-- `url.replace(/^\/resources\//, "")`. -/
def resourceOf (url : JsString) : JsString :=
  if (js "/resources/").isPrefixOf url then url.drop (js "/resources/").length else url

/-- The listener of `createHttpResourceServer`, for a request with this URL. -/
def createHttpResourceServer (resourcesDir : ResourceDir) (url : JsString) :
    Option HttpResponse :=
  match decodeURIComponent (resourceOf url) with
  | none => none
  | some id =>
    match (js "/resources/").isPrefixOf url, resolveResourceFile resourcesDir id with
    | true, some (.file content) => some ⟨200, some content.length, content⟩
    -- The head is sent before the stream finds that it cannot read this.
    | true, some .other => none
    | _, _ => some ⟨404, none, []⟩

end Server

end MzzPlork

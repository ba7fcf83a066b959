import MzzPlork.Core.ClientJson
import MzzPlork.Core.HttpDownloader
import MzzPlork.Core.ResourceRegistry

/-!
# The Resource Manager

`runtime/src/ResourceManager.cpp`: from the server's resource manifest to
files in the resources directory and records in the registry.

The entries of a manifest are processed one after the other, and one that
fails does not stop the next. What does stop them is an exception from hashing
a downloaded file, which nobody catches before `ApplyManifest` is left; the
call then has no result.

Numbers are cut off towards zero. C++ leaves the cast of a number that does
not fit undefined; here the port wraps and the size does not.

## Main definitions

* `ServiceResult`: What a service call returns.
* `parseResourceList`: The entries of a manifest.
* `localFileMatches`: Whether an entry needs no download.
* `applyEntry`, `applyEntries`: The loop over the entries.
* `initializeManager`, `applyManifest`: The two calls.
* `LifecycleCall`, `lifecycle`: The calls on the records between two manifests.
-/

namespace MzzPlork

/-- `ServiceStatus`. -/
inductive ServiceStatus where
  | ok
  | notImplemented
  | failed
  deriving DecidableEq, Repr

/-- `ServiceResult`. -/
structure ServiceResult where
  status : ServiceStatus
  message : Bytes
  deriving DecidableEq

namespace ResourceManager

open Http

/-- A number as an integer, cut off towards zero. -/
def truncate (n : Rat) : Int := n.num.tdiv n.den

/-- The strings of a list. -/
def stringsOf (items : List ClientValue) : List Bytes :=
  items.filterMap (fun
    | .str s => some s
    | _ => none)

/-- One item of the manifest's list. -/
def parseResource (item : ClientObject) : ResourceEntry where
  id := item.stringAt (ascii "id") []
  path := item.stringAt (ascii "path") (item.stringAt (ascii "id") [])
  size := truncate (item.numberAt (ascii "size"))
  hash := item.stringAt (ascii "hash") []
  version := item.stringAt (ascii "version") []
  dependencies :=
    match item.lookup (ascii "dependencies") with
    | some (.arr deps) => stringsOf deps
    | _ => []

/-- `ParseResourceList`. Items that are no objects, or have no id, are left out. -/
def parseResourceList (manifestPayload : ClientObject) : List ResourceEntry :=
  match manifestPayload.lookup (ascii "resources") with
  | some (.arr items) =>
    items.filterMap (fun
      -- The id is tested last, when everything else has been read.
      | .obj item => if (parseResource item).id = [] then none else some (parseResource item)
      | _ => none)
  | _ => []

/-- `LocalFileMatches`. Unlike the downloader's own test it compares size and
    hash also where the manifest gives none. -/
def localFileMatches (env : Env) (w : World) (filePath : Bytes) (entry : ResourceEntry) : Bool :=
  match w.disk.content (winPath.locate filePath) with
  | none => false
  | some content =>
    -- Hashing is tried only where the size is right; `catch (...)` makes it a no.
    decide ((content.length : Int) = entry.size) && env.canHash w.requests &&
      decide (env.sha256Hex content = entry.hash)

/-- The variables of the loop over the entries. -/
structure Applied where
  world : World
  registry : ResourceRegistry
  downloaded : Nat
  unchanged : Nat
  failed : Nat

/-- Whom the resources are downloaded from. -/
structure Origin where
  serverHost : Bytes
  httpPort : UInt16

/-- The path an entry is kept at. -/
def targetPath (resourcesDir : Bytes) (entry : ResourceEntry) : Bytes :=
  joinPath resourcesDir entry.path

/-- The download of an entry. -/
def requestFor (origin : Origin) (resourcesDir : Bytes) (entry : ResourceEntry) :
    DownloadRequest where
  host := origin.serverHost
  port := origin.httpPort
  urlPath := ascii "/resources/" ++ entry.id
  destPath := targetPath resourcesDir entry
  expectedSize := entry.size
  expectedHashHex := entry.hash
  maxAttempts := 2

/-- One entry of the manifest. The flag is off when an exception escapes. -/
def applyEntry (env : Env) (origin : Origin) (s : Applied) (entry : ResourceEntry) :
    Applied × Bool :=
  if localFileMatches env s.world (targetPath s.registry.resourcesDir entry) entry then
    ({ s with registry := (s.registry.transitionTo entry.id .cached []).1,
              unchanged := s.unchanged + 1 }, true)
  else
    -- The result of `TransitionTo` is ignored here and below.
    let registry := (s.registry.transitionTo entry.id .downloading []).1
    let download := downloadAndVerify env (requestFor origin s.registry.resourcesDir entry) s.world
    match download.2 with
    | none => ({ s with world := download.1, registry := registry }, false)
    | some result =>
      if result.ok then
        -- Verified by the downloader already: both steps are taken at once.
        let registry := (registry.transitionTo entry.id .verifying []).1
        let registry := (registry.transitionTo entry.id .cached []).1
        ({ s with world := download.1, registry := registry,
                  downloaded := s.downloaded + 1 }, true)
      else
        let registry := (registry.transitionTo entry.id .failed result.error).1
        ({ s with world := download.1, registry := registry, failed := s.failed + 1 }, true)

/-- The loop over the entries, left early when an exception escapes. -/
def applyEntries (env : Env) (origin : Origin) : List ResourceEntry → Applied → Applied × Bool
  | [], s => (s, true)
  | entry :: entries, s =>
    let one := applyEntry env origin s entry
    if one.2 then applyEntries env origin entries one.1 else one

/-- The directory the resources are kept in. -/
def resourcesDirOf (appDataRoot : Bytes) : Bytes := appDataRoot ++ ascii "\\resources"

/-- `Initialize`. The manager has its registry from then on. -/
def initializeManager (appDataRoot : Bytes) (disk : ClientDisk) :
    ClientDisk × Option ResourceRegistry × ServiceResult :=
  let resourcesDir := resourcesDirOf appDataRoot
  let made := createDirectoryTree disk resourcesDir
  if made.2 then
    (made.1, some ⟨resourcesDir, OrdMap.empty⟩, ⟨.ok, ascii "resource manager ready"⟩)
  else (made.1, none, ⟨.failed, ascii "could not create resources directory: "⟩)

/-- The manifest's port. -/
def httpPortOf (manifestPayload : ClientObject) : UInt16 :=
  UInt16.ofInt (truncate (manifestPayload.numberAt (ascii "httpPort")))

/-- `ApplyManifest`. There is no registry before `Initialize`, and no result
    when an exception escapes. -/
def applyManifest (env : Env) (registry : Option ResourceRegistry) (manifestPayload : ClientObject)
    (serverHost : Bytes) (w : World) : World × Option ResourceRegistry × Option ServiceResult :=
  match registry with
  | none => (w, none, some ⟨.failed, ascii "resource manager not initialized"⟩)
  | some registry =>
    let httpPort := httpPortOf manifestPayload
    if httpPort = 0 then
      (w, some registry, some ⟨.failed, ascii "manifest did not include a valid httpPort"⟩)
    else
      let entries := parseResourceList manifestPayload
      let run := applyEntries env ⟨serverHost, httpPort⟩ entries
        ⟨w, registry.loadManifest entries, 0, 0, 0⟩
      (run.1.world, some run.1.registry,
        if run.2 then
          some ⟨.ok, ascii "resources: " ++ decimal run.1.downloaded ++ ascii " downloaded, "
            ++ decimal run.1.unchanged ++ ascii " unchanged, " ++ decimal run.1.failed
            ++ ascii " failed, " ++ decimal entries.length ++ ascii " total"⟩
        else none)

/-- `LoadAll`, `StartResource`, `StopResource` and `ReloadResource`. The disk
    is the one at the time of the call. -/
inductive LifecycleCall where
  | loadAll (disk : ClientDisk)
  | startResource (id : Bytes)
  | stopResource (id : Bytes)
  | reloadResource (id : Bytes) (disk : ClientDisk)

/-- The registry after a lifecycle call. -/
def lifecycle (registry : ResourceRegistry) : LifecycleCall → ResourceRegistry
  | .loadAll disk => (registry.loadAll disk).1
  | .startResource id => (registry.start id).1
  | .stopResource id => (registry.stop id).1
  | .reloadResource id disk => (registry.reload disk id).1

end ResourceManager

end MzzPlork

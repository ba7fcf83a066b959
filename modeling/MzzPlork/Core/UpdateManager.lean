import MzzPlork.Core.NodeDownloader

/-!
# The Update Manager

`bootstrapper/electron/updateManager.js`: the plan an update follows, its
application, and the verification of what is installed.

A plan is made from the manifest and the ledger alone. Applying it stages
every file below `downloads`, then moves all of them into place and removes
what is obsolete; the disk decides once more which of the unchanged files need
a download after all. The paths of files that are left alone, and those the
verification looks at, are joined to the target directory as they are; all
others go through the guard.

A call that rejects has no result, and neither has one that waits for a download
without an end.

## Main definitions

* `Component`, `Manifest`, `Ledger`: What an update works from.
* `PlanItem`, `planUpdate`: The plan.
* `stageFile`, `stageAll`: The downloads.
* `moveAll`, `removeAll`: The moves into place, and the removals.
* `applyItem`, `applyUpdate`: The whole update.
* `verifyComponentFiles`: The final check.
-/

namespace MzzPlork

namespace Bootstrapper

/-- The keys of `COMPONENT_TARGET_DIR`. -/
inductive Component where
  | runtime
  | resources
  deriving DecidableEq, Repr

/-- `Object.keys(COMPONENT_TARGET_DIR)`. -/
def components : List Component := [.runtime, .resources]

/-- The component's key, and also its target directory. -/
def Component.name : Component → JsString
  | .runtime => js "runtime"
  | .resources => js "resources"

/-- One component of a manifest. -/
structure ComponentManifest where
  version : JsString
  files : List FileEntry

/-- The components of a manifest that are there. -/
abbrev Manifest := Component → Option ComponentManifest

/-- One component of the ledger. -/
structure LedgerEntry where
  version : Option JsString
  files : Option (List FileEntry)

/-- The components of `version.json` that are there. -/
abbrev Ledger := Component → Option LedgerEntry

/-- One component's part of a plan. -/
structure PlanItem where
  component : Component
  targetVersion : JsString
  files : List FileEntry
  toDownload : List FileEntry
  toRemove : List JsString
  unchanged : List FileEntry

/-- `localVersion[component]`, with the entry a missing one stands for. -/
def localEntry (localVersion : Ledger) (component : Component) : LedgerEntry :=
  (localVersion component).getD ⟨some (js "0.0.0"), some []⟩

/-- `new Map(files.map((f) => [f.path, f])).get(path)`. -/
def recordOf (files : List FileEntry) (path : JsString) : Option FileEntry :=
  -- A later entry of the same path overwrites an earlier one in the `Map`.
  files.reverse.find? (fun f => f.path = path)

/-- Whether the ledger has a file as the manifest has it. -/
def recordMatches (files : List FileEntry) (remoteFile : FileEntry) : Bool :=
  match recordOf files remoteFile.path with
  | some localRecord =>
    JsValue.strictEq localRecord.hash remoteFile.hash && localRecord.size = remoteFile.size
  | none => false

/-- The part of a plan one component gives. -/
def planItem (remote : ComponentManifest) (localFiles : List FileEntry) (component : Component) :
    PlanItem where
  component := component
  targetVersion := remote.version
  files := remote.files
  toDownload := remote.files.filter (fun f => !recordMatches localFiles f)
  -- What the ledger has and the manifest does not.
  toRemove := (localFiles.filter
    (fun f => !(remote.files.map FileEntry.path).contains f.path)).map FileEntry.path
  unchanged := remote.files.filter (recordMatches localFiles)

/-- Whether there is anything to do for a component. -/
def needsAction (item : PlanItem) (localVersion : Option JsString) : Bool :=
  !item.toDownload.isEmpty || !item.toRemove.isEmpty || some item.targetVersion ≠ localVersion

/-- `planUpdate`, for one component. -/
def planComponent (manifest : Manifest) (localVersion : Ledger) (component : Component) :
    Option PlanItem :=
  match manifest component with
  | none => none
  | some remote =>
    let localRecord := localEntry localVersion component
    -- `local.files || []`
    let item := planItem remote (localRecord.files.getD []) component
    if needsAction item localRecord.version then some item else none

/-- `planUpdate`. -/
def planUpdate (manifest : Manifest) (localVersion : Ledger) : List PlanItem :=
  components.filterMap (planComponent manifest localVersion)

/-- Whether a text contains another one, whatever the case of its letters. -/
def containsText (text part : JsString) : Bool :=
  (lowerCase text).tails.any (fun tail => (lowerCase part).isPrefixOf tail)

/-- `isRetryableError`. -/
def isRetryableError (err : Thrown) : Bool :=
  err.corrupted || containsText err.message (js "ECONNRESET")
    || containsText err.message (js "ETIMEDOUT") || containsText err.message (js "socket hang up")
    || containsText err.message (js "timed out")

/-- `resolveDownloadUrl`. -/
def resolveDownloadUrl (downloadBaseUrl : JsString) (component : Component) (file : FileEntry) :
    JsString :=
  match file.url with
  -- An empty `url` is falsy.
  | some (c :: cs) => c :: cs
  | _ => downloadBaseUrl ++ js "/" ++ component.name ++ js "/" ++ file.path

/-- `stagedFileMatches`. What cannot be hashed counts as `null`, which no
    manifest has for a hash. -/
def stagedFileMatches (env : NodeEnv) (d : NodeDisk) (stagingPath : JsLoc) (expected : FileEntry) :
    Bool :=
  match statSizeIfExists env d stagingPath with
  | none => false
  | some size =>
    expected.size.isNat size &&
      match d.content stagingPath with
      | some content => JsValue.strictEq (.str (env.sha256Hex content)) expected.hash
      | none => false

/-- Where and from whom a component is installed. The application data
    directory is an absolute path. -/
structure Install where
  appDataRoot : JsLoc
  absolute : appDataRoot ≠ []
  downloadBaseUrl : JsString
  maxAttemptsPerFile : Int

/-- `path.join(appDataRoot, item.targetDir)`. -/
def targetDirPath (appDataRoot : JsLoc) (component : Component) : JsLoc :=
  appDataRoot ++ [component.name]

/-- `path.join(appDataRoot, "downloads", item.component)`. -/
def downloadsPath (appDataRoot : JsLoc) (component : Component) : JsLoc :=
  appDataRoot ++ [js "downloads", component.name]

/-- A file that lies verified in the staging directory. -/
structure Staged where
  file : FileEntry
  stagingPath : JsLoc
  finalPath : JsLoc

/-- Why a component was given up. -/
structure Failure where
  file : JsString
  error : Option JsString

/-- The download attempts for one file, `none` once one succeeded, otherwise
    the last error if there was an attempt at all. -/
def tryDownload (env : NodeEnv) (url : JsString) (stagingPath : JsLoc) (file : FileEntry) :
    Nat → Option Thrown → NodeWorld → NodeWorld × Option (Option Thrown)
  -- Where `maxAttemptsPerFile` is below 1 there is no last error either.
  | 0, lastError, w => (w, some lastError)
  | attempts + 1, _, w =>
    let download := downloadFile env url stagingPath file w
    match download.2 with
    | none => (download.1, none)
    | some err =>
      -- Only a corrupted download and a few network errors are tried again.
      if isRetryableError err then
        tryDownload env url stagingPath file attempts (some err) download.1
      else (download.1, some (some err))

/-- Why a file is given up, unless its last attempt has no end. -/
def failureOf (file : FileEntry) (lastError : Option Thrown) : Option Failure :=
  if lastError.any Thrown.uncaught then none
  else some ⟨file.path, lastError.map Thrown.message⟩

/-- Both paths of a file, or the message of the guard's error. -/
def safePaths (env : NodeEnv) (install : Install) (component : Component) (file : FileEntry) :
    Except JsString Staged := do
  let finalPath ← resolveSafePath env.cwd (targetDirPath install.appDataRoot component) file.path
  let stagingPath ← resolveSafePath env.cwd (downloadsPath install.appDataRoot component) file.path
  return ⟨file, stagingPath, finalPath⟩

/-- One file of the first phase. Without a failure it has no end. -/
def stageFile (env : NodeEnv) (install : Install) (component : Component) (file : FileEntry)
    (w : NodeWorld) : NodeWorld × Except (Option Failure) Staged :=
  match safePaths env install component file with
  | .error message => (w, .error (some ⟨file.path, some message⟩))
  | .ok staged =>
    -- A prior interrupted attempt has already staged it.
    if stagedFileMatches env w.disk staged.stagingPath file then (w, .ok staged)
    else
      let url := resolveDownloadUrl install.downloadBaseUrl component file
      let tried := tryDownload env url staged.stagingPath file install.maxAttemptsPerFile.toNat
        none w
      match tried.2 with
      | none => (tried.1, .ok staged)
      | some lastError => (tried.1, .error (failureOf file lastError))

/-- The first phase, given up at the first file that fails. -/
def stageAll (env : NodeEnv) (install : Install) (component : Component) :
    List FileEntry → NodeWorld → NodeWorld × Except (Option Failure) (List Staged)
  | [], w => (w, .ok [])
  | file :: files, w =>
    let one := stageFile env install component file w
    match one.2 with
    | .error failure => (one.1, .error failure)
    | .ok staged =>
      let rest := stageAll env install component files one.1
      (rest.1, rest.2.map (fun stagedPaths => staged :: stagedPaths))

/-- One move into place. The flag is off when it rejects. -/
def moveOne (d : NodeDisk) (staged : Staged) : NodeDisk × Bool :=
  let made := mkdirRecursive d (dirname staged.finalPath)
  if made.2 then
    match made.1.rename staged.stagingPath staged.finalPath with
    | some d => (d, true)
    | none => (made.1, false)
  else made

/-- The moves into place. -/
def moveAll : List Staged → NodeDisk → NodeDisk × Bool
  | [], d => (d, true)
  | staged :: stagedPaths, d =>
    let one := moveOne d staged
    if one.2 then moveAll stagedPaths one.1 else one

/-- The removal of obsolete files, as far as it succeeds. -/
def removeAll (env : NodeEnv) (targetDir : JsLoc) :
    List JsString → NodeDisk → NodeDisk × List JsString
  | [], d => (d, [])
  | relPath :: relPaths, d =>
    match resolveSafePath env.cwd targetDir relPath with
    -- The `catch` takes the guard's error like that of a missing file.
    | .error _ => removeAll env targetDir relPaths d
    | .ok obsoletePath =>
      let gone := d.remove obsoletePath
      let rest := removeAll env targetDir relPaths gone.1
      (rest.1, if gone.2 then relPath :: rest.2 else rest.2)

/-- What an update reports for a component. -/
inductive ComponentResult where
  | failed (component : Component) (failure : Failure)
  | ok (component : Component) (targetVersion : JsString) (files : List FileEntry)
      (downloaded removed unchanged : List JsString)

/-- `r.status === "ok"`. -/
def ComponentResult.isOk : ComponentResult → Bool
  | .failed _ _ => false
  | .ok .. => true

/-- Whether a file is on disk with the size the manifest gives. -/
def presentOnDisk (env : NodeEnv) (d : NodeDisk) (targetDir : JsLoc) (file : FileEntry) : Bool :=
  match statSizeIfExists env d (pathJoin targetDir file.path) with
  | some size => file.size.isNat size
  | none => false

/-- `effectiveUnchanged`. -/
def effectiveUnchanged (env : NodeEnv) (install : Install) (d : NodeDisk) (item : PlanItem) :
    List FileEntry :=
  item.unchanged.filter (presentOnDisk env d (targetDirPath install.appDataRoot item.component))

/-- `effectiveToDownload`. -/
def effectiveToDownload (env : NodeEnv) (install : Install) (d : NodeDisk) (item : PlanItem) :
    List FileEntry :=
  item.toDownload ++ item.unchanged.filter
    (fun file => !presentOnDisk env d (targetDirPath install.appDataRoot item.component) file)

/-- One component of an update. -/
def applyItem (env : NodeEnv) (install : Install) (item : PlanItem) (w : NodeWorld) :
    NodeWorld × Option ComponentResult :=
  let targetDir := targetDirPath install.appDataRoot item.component
  -- Both lists are decided before the first download.
  let unchanged := effectiveUnchanged env install w.disk item
  let staging := stageAll env install item.component (effectiveToDownload env install w.disk item) w
  match staging.2 with
  -- Nothing below the target directory has been touched here.
  | .error failure => (staging.1, failure.map (fun failure => .failed item.component failure))
  | .ok stagedPaths =>
    let moved := moveAll stagedPaths staging.1.disk
    if moved.2 then
      let removal := removeAll env targetDir item.toRemove moved.1
      ({ staging.1 with disk := removal.1 }, some (.ok item.component item.targetVersion item.files
        (stagedPaths.map (fun staged => staged.file.path)) removal.2
        (unchanged.map FileEntry.path)))
    -- A move that rejects rejects the whole call, with the moves before it done.
    else ({ staging.1 with disk := moved.1 }, none)

/-- `applyUpdate`. -/
def applyUpdate (env : NodeEnv) (install : Install) :
    List PlanItem → NodeWorld → NodeWorld × Option (List ComponentResult)
  | [], w => (w, some [])
  | item :: plan, w =>
    let one := applyItem env install item w
    match one.2 with
    | none => (one.1, none)
    | some result =>
      let rest := applyUpdate env install plan one.1
      (rest.1, rest.2.map (fun results => result :: results))

/-- What the final check finds. -/
structure Verification where
  missing : List JsString
  corrupt : List JsString

/-- Its `ok`. -/
def Verification.ok (v : Verification) : Bool := v.missing.isEmpty && v.corrupt.isEmpty

/-- `verifyComponentFiles`. Hashing a directory rejects. -/
def verifyComponentFiles (env : NodeEnv) (appDataRoot : JsLoc) (component : Component)
    (d : NodeDisk) : List FileEntry → Option Verification
  | [] => some ⟨[], []⟩
  | file :: files =>
    match d.tree.node (pathJoin (targetDirPath appDataRoot component) file.path) with
    | none =>
      (verifyComponentFiles env appDataRoot component d files).map
        (fun v => { v with missing := file.path :: v.missing })
    -- `fs.existsSync` holds of a directory, and reading it raises `EISDIR`.
    | some .dir => none
    | some (.file content) =>
      if !JsValue.strictEq (.str (env.sha256Hex content)) file.hash
          || !file.size.isNat content.length then
        (verifyComponentFiles env appDataRoot component d files).map
          (fun v => { v with corrupt := file.path :: v.corrupt })
      else verifyComponentFiles env appDataRoot component d files

end Bootstrapper

end MzzPlork

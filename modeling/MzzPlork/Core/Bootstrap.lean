import MzzPlork.Core.Manifest

/-!
# A Bootstrapper Run

`bootstrapper/electron/bootstrap.js`, with the application data directory of
`appData.js` and the install state of `installState.js`.

A run fetches the manifest, plans an update from it and the ledger, applies it,
records what was installed, verifies the runtime, and starts the client. A
fetched value that fails validation stops a first installation only; with a
client installed the update goes on with it. The model reads such a value by
its components as well, and has no result where they are none.

`version.json` is what its text says. A run that rejects has no result either.

## Main definitions

* `BootWorld`: The disk and `version.json`.
* `ensureAppData`, `readVersion`, `determineInstallState`: The start.
* `fetchStage`, `updateStage`, `launchStage`: The stages.
* `runBootstrapper`: The whole run.
-/

namespace MzzPlork

namespace Bootstrapper

/-- What a run works on. -/
structure BootWorld where
  node : NodeWorld
  versionFile : Option Ledger

/-- Where a run installs to, and from where. -/
structure Config where
  appDataRoot : JsLoc
  absolute : appDataRoot ≠ []
  downloadBaseUrl : JsString

/-- `applyUpdate` is called without options. -/
def Config.install (config : Config) : Install where
  appDataRoot := config.appDataRoot
  absolute := config.absolute
  downloadBaseUrl := config.downloadBaseUrl
  maxAttemptsPerFile := 2

/-- `SUBDIRS`. -/
def subdirs : List JsString :=
  [js "runtime", js "resources", js "cache", js "config", js "logs", js "downloads"]

/-- Directories made one after another. The flag is off when one fails. -/
def makeAll : List JsLoc → NodeDisk → NodeDisk × Bool
  | [], d => (d, true)
  | l :: ls, d =>
    let made := mkdirRecursive d l
    if made.2 then makeAll ls made.1 else made

/-- `ensureAppData`. -/
def ensureAppData (root : JsLoc) (d : NodeDisk) : NodeDisk × Bool :=
  makeAll (root :: subdirs.map (fun dir => root ++ [dir])) d

/-- `defaultVersion`. -/
def defaultVersion : Ledger := fun _ => some ⟨some (js "0.0.0"), some []⟩

/-- `readVersion`, which writes what it returns if there is no file. -/
def readVersion (versionFile : Option Ledger) : Ledger := versionFile.getD defaultVersion

/-- `localVersion[component] = entry`. -/
def setEntry (localVersion : Ledger) (component : Component) (entry : LedgerEntry) : Ledger :=
  fun c => if c = component then some entry else localVersion c

inductive InstallState where
  | existing
  | firstInstall
  deriving DecidableEq

/-- `clientExecutablePath`. -/
def clientExecutablePath (root : JsLoc) : JsLoc := root ++ [js "runtime", js "MzzPlorkClient.exe"]

/-- `determineInstallState`. -/
def determineInstallState (root : JsLoc) (version : Ledger) (d : NodeDisk) : InstallState :=
  let runtimeVersion := (version .runtime).bind LedgerEntry.version
  if d.occupied (clientExecutablePath root) && runtimeVersion.getD [] ≠ []
      && runtimeVersion ≠ some (js "0.0.0") then .existing
  else .firstInstall

/-- Where a run can end early. -/
inductive Stage where
  | manifest
  | update
  | verify
  | client
  deriving DecidableEq

/-- What a run returns. -/
inductive BootResult where
  | failed (stage : Stage) (error : Option JsString)
  | ok (installState : InstallState)

/-- Whether a value that failed validation can still be read by its
    components. -/
def isReadable (manifest : JsValue) : Bool :=
  components.all (fun component =>
    match manifest.field component.name with
    | none => true
    | some v => !JsValue.truthy v || (componentOf v).isSome)

/-- What the manifest stage leaves for the update. -/
inductive Fetched where
  | stop (error : JsString)
  | nothing
  | unreadable
  | manifest (m : Manifest)

/-- A manifest that could not be had, or was not accepted. -/
def rejected (state : InstallState) (error : JsString) (manifest : Option JsValue) : Fetched :=
  match state, manifest with
  | .firstInstall, _ => .stop error
  | .existing, none => .nothing
  -- `manifest` was assigned before the validation threw.
  | .existing, some v =>
    if !JsValue.truthy v then .nothing
    else if isReadable v then .manifest (manifestOf v) else .unreadable

/-- The manifest stage. -/
def fetchStage (fmt : NumberFormat) (reply : ManifestReply) (state : InstallState) : Fetched :=
  match fetchManifest fmt reply with
  | .error message => rejected state message none
  | .ok v =>
    match isValidManifest fmt v with
    | .ok true => .manifest (manifestOf v)
    | .ok false => rejected state (js "manifest failed schema validation") (some v)
    | .error message => rejected state message (some v)

/-- What an update's results make of the ledger, or the error a first
    installation is given up with. -/
def recordResults (state : InstallState) :
    List ComponentResult → Ledger → Except (Option JsString) Ledger
  | [], localVersion => .ok localVersion
  | .ok component targetVersion files _ _ _ :: results, localVersion =>
    recordResults state results (setEntry localVersion component ⟨some targetVersion, some files⟩)
  | .failed component failure :: results, localVersion =>
    -- Resources are content the client loads later, and may fail.
    if state = .firstInstall ∧ component = .runtime then .error failure.error
    else recordResults state results localVersion

/-- The files of the runtime's result, if it is ok. -/
def runtimeFiles : List ComponentResult → Option (List FileEntry)
  | [] => none
  | .ok .runtime _ files _ _ _ :: _ => some files
  | _ :: results => runtimeFiles results

/-- How a stage ends. -/
inductive Outcome where
  | rejects
  | returns (result : BootResult)
  | continues

/-- The update stage. -/
def updateStage (env : NodeEnv) (config : Config) (state : InstallState) (manifest : Manifest)
    (localVersion : Ledger) (w : BootWorld) : BootWorld × Outcome :=
  let plan := planUpdate manifest localVersion
  if plan.isEmpty then (w, .continues)
  else
    let applied := applyUpdate env config.install plan w.node
    let w := { w with node := applied.1 }
    match applied.2 with
    | none => (w, .rejects)
    | some results =>
      match recordResults state results localVersion with
      -- This return comes before `writeVersion`.
      | .error error => (w, .returns (.failed .update error))
      | .ok localVersion =>
        let w := { w with versionFile := some localVersion }
        match runtimeFiles results with
        | none => (w, .continues)
        | some files =>
          match verifyComponentFiles env config.appDataRoot .runtime w.node.disk files with
          | none => (w, .rejects)
          | some verification =>
            -- An existing install is started although it failed the verification.
            if !verification.ok && state = .firstInstall then
              (w, .returns (.failed .verify (some (js "post-install verification failed"))))
            else (w, .continues)

/-- The start of the client. -/
def launchStage (config : Config) (state : InstallState) (d : NodeDisk) : BootResult :=
  if d.occupied (clientExecutablePath config.appDataRoot) then .ok state
  else .failed .client (some (js "client runtime not installed"))

/-- `runBootstrapper`. -/
def runBootstrapper (env : NodeEnv) (config : Config) (reply : ManifestReply) (w : BootWorld) :
    BootWorld × Option BootResult :=
  let made := ensureAppData config.appDataRoot w.node.disk
  let w := { w with node := { w.node with disk := made.1 } }
  if made.2 then
    let localVersion := readVersion w.versionFile
    let w := { w with versionFile := some localVersion }
    let state := determineInstallState config.appDataRoot localVersion w.node.disk
    match fetchStage env.fmt reply state with
    | .stop error => (w, some (.failed .manifest (some error)))
    | .unreadable => (w, none)
    -- An existing install is started without an update.
    | .nothing => (w, some (launchStage config state w.node.disk))
    | .manifest manifest =>
      let updated := updateStage env config state manifest localVersion w
      match updated.2 with
      | .rejects => (updated.1, none)
      | .returns result => (updated.1, some result)
      | .continues => (updated.1, some (launchStage config state updated.1.node.disk))
  else (w, none)

end Bootstrapper

end MzzPlork

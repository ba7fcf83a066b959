import MzzPlork.Core.UpdateManager

/-!
# The Manifest

`bootstrapper/electron/manifest.js`: fetching the manifest and validating it.

The manifest is whatever the server's text parses to. The validation reads
properties of it, which throws where a listed file is `null`, and tests each
hash by its text, which throws where the hash has none. A hash therefore need
not be a string to pass.

The update manager reads an accepted manifest by its fields (`manifestOf`).

## Main definitions

* `ManifestReply`, `fetchManifest`: The request.
* `isValidManifest`: The validation.
* `manifestOf`: A manifest as the update manager reads it.

## Theorems

* `exists_manifestOf`: An accepted manifest has both components, with every
  listed file.
-/

namespace MzzPlork

namespace Bootstrapper

/-- What becomes of the request for the manifest. A response's body is what its
    text parses to, or the parser's message. -/
inductive ManifestReply where
  | failed (message : JsString)
  | response (status : Nat) (body : Except JsString JsValue)

/-- `fetchManifest`, with the message of the error it rejects with. -/
def fetchManifest (fmt : NumberFormat) (reply : ManifestReply) : Except JsString JsValue :=
  match reply with
  | .failed message => .error message
  | .response status body =>
    if status ≠ 200 then .error (js "manifest fetch failed: HTTP " ++ fmt status)
    else body.mapError (fun message => js "manifest is not valid JSON: " ++ message)

/-- `typeof v === "string"`. -/
def isString : Option JsValue → Bool
  | some (.str _) => true
  | _ => false

/-- `typeof v === "number"`. -/
def isNumber : Option JsValue → Bool
  | some (.num _) => true
  | _ => false

/-- `!v || typeof v !== "object"`, the other way round. -/
def isObject : Option JsValue → Bool
  | some (.arr _) => true
  | some (.obj _) => true
  | _ => false

/-- `/^[a-f0-9]{64}$/.test(s)`. -/
def isHexDigest (s : JsString) : Bool :=
  s.length = 64 && s.all (fun c => (97 ≤ c && c ≤ 102) || (48 ≤ c && c ≤ 57))

/-- One listed file. The error is the one the language throws. -/
def isValidFile (fmt : NumberFormat) (file : JsValue) : Except JsString Bool :=
  -- Other values that are no objects have no fields, which fails the next test.
  if JsValue.isNull file then .error (js "Cannot read properties of null (reading 'path')")
  else if !isString (file.field (js "path")) then .ok false
  else if !isNumber (file.field (js "size")) then .ok false
  else if !isString (file.field (js "version")) then .ok false
  else
    -- `RegExp.test` converts its argument, so an array of one digest passes.
    match JsValue.toText fmt (JsValue.orElse (file.field (js "hash")) (.str [])) with
    | none => .error (js "Cannot convert object to primitive value")
    | some hash =>
      if !isHexDigest hash then .ok false
      -- An absent url is accepted, a `null` one is not.
      else .ok ((file.field (js "url")).isNone || isString (file.field (js "url")))

/-- The loop over the listed files. -/
def areValidFiles (fmt : NumberFormat) : List JsValue → Except JsString Bool
  | [] => .ok true
  | file :: files =>
    match isValidFile fmt file with
    | .ok true => areValidFiles fmt files
    | verdict => verdict

/-- `isValidComponent`. -/
def isValidComponent (fmt : NumberFormat) (component : Option JsValue) : Except JsString Bool :=
  if !isObject component then .ok false
  else if !isString (component.bind (fun v => v.field (js "version"))) then .ok false
  else
    match component.bind (fun v => v.field (js "files")) with
    | some (.arr files) => areValidFiles fmt files
    | _ => .ok false

/-- `isValidManifest`. -/
def isValidManifest (fmt : NumberFormat) (manifest : JsValue) : Except JsString Bool :=
  if !isObject (some manifest) then .ok false
  else if !isString (manifest.field (js "version")) then .ok false
  else
    match isValidComponent fmt (manifest.field (js "runtime")) with
    -- `resources` is looked at only where `runtime` passes.
    | .ok true => isValidComponent fmt (manifest.field (js "resources"))
    | verdict => verdict

/-- A listed file, by its fields. -/
def fileOf (file : JsValue) : Option FileEntry :=
  match file.field (js "path"), file.field (js "size"), file.field (js "hash"),
    file.field (js "version") with
  | some (.str path), some (.num size), some hash, some (.str version) =>
    match file.field (js "url") with
    | none => some ⟨path, size, hash, version, none⟩
    | some (.str url) => some ⟨path, size, hash, version, some url⟩
    | some _ => none
  | _, _, _, _ => none

/-- A component, by its fields. -/
def componentOf (component : JsValue) : Option ComponentManifest :=
  match component.field (js "version"), component.field (js "files") with
  | some (.str version), some (.arr files) => (files.mapM fileOf).map (ComponentManifest.mk version)
  | _, _ => none

/-- A manifest as the update manager reads it. -/
def manifestOf (manifest : JsValue) : Manifest :=
  fun component => (manifest.field component.name).bind componentOf

theorem eq_of_isString (v : Option JsValue) (h : isString v = true) : ∃ s, v = some (.str s) := by
  rcases v with _ | (_ | _ | _ | s | _ | _)
  case some.str => exact ⟨s, rfl⟩
  all_goals exact Bool.noConfusion h

theorem eq_of_isNumber (v : Option JsValue) (h : isNumber v = true) : ∃ n, v = some (.num n) := by
  rcases v with _ | (_ | _ | n | _ | _ | _)
  case some.num => exact ⟨n, rfl⟩
  all_goals exact Bool.noConfusion h

/-- What a check that has not given up yet has found. -/
theorem of_ite_not (b : Bool) (rest : Except JsString Bool)
    (h : (if !b then .ok false else rest) = .ok true) : b = true ∧ rest = .ok true := by
  cases b with
  | false => exact Bool.noConfusion (Except.ok.inj h)
  | true => exact ⟨rfl, h⟩

/-- An accepted file has all its fields. -/
theorem exists_fileOf (fmt : NumberFormat) (file : JsValue)
    (h : isValidFile fmt file = .ok true) : ∃ entry, fileOf file = some entry := by
  rw [isValidFile] at h
  split at h
  · exact absurd h (by simp only [reduceCtorEq, not_false_eq_true])
  · rcases of_ite_not _ _ h with ⟨hpath, h⟩
    rcases of_ite_not _ _ h with ⟨hsize, h⟩
    rcases of_ite_not _ _ h with ⟨hversion, h⟩
    rcases eq_of_isString _ hpath with ⟨path, hpath⟩
    rcases eq_of_isNumber _ hsize with ⟨size, hsize⟩
    rcases eq_of_isString _ hversion with ⟨version, hversion⟩
    cases hfield : file.field (js "hash") with
    | none =>
        rw [hfield] at h
        exact absurd h (by simp [JsValue.orElse, JsValue.toText, isHexDigest])
    | some hash =>
        rw [fileOf, hpath, hsize, hfield, hversion]
        split at h
        · exact absurd h (by simp only [reduceCtorEq, not_false_eq_true])
        · have hurl := Except.ok.inj (of_ite_not _ _ h).2
          cases hu : file.field (js "url") with
          | none => exact ⟨_, rfl⟩
          | some v =>
              rw [hu, Option.isNone_some, Bool.false_or] at hurl
              rcases eq_of_isString _ hurl with ⟨url, hv⟩
              rw [Option.some.inj hv]
              exact ⟨_, rfl⟩

theorem exists_mapM_fileOf (fmt : NumberFormat) (files : List JsValue)
    (h : areValidFiles fmt files = .ok true) : ∃ entries, files.mapM fileOf = some entries := by
  induction files with
  | nil => exact ⟨[], rfl⟩
  | cons file files ih =>
      rw [areValidFiles] at h
      cases hfile : isValidFile fmt file with
      | error message =>
          rw [hfile] at h
          exact absurd h (by simp only [reduceCtorEq, not_false_eq_true])
      | ok verdict =>
          cases verdict with
          | false =>
              rw [hfile] at h
              exact Bool.noConfusion (Except.ok.inj h)
          | true =>
              rw [hfile] at h
              rcases exists_fileOf fmt file hfile with ⟨entry, hentry⟩
              rcases ih h with ⟨entries, hentries⟩
              exact ⟨entry :: entries, by rw [List.mapM_cons, hentry, hentries]; rfl⟩

theorem exists_componentOf (fmt : NumberFormat) (component : Option JsValue)
    (h : isValidComponent fmt component = .ok true) :
    ∃ remote, component.bind componentOf = some remote := by
  rw [isValidComponent] at h
  cases component with
  | none => exact Bool.noConfusion (Except.ok.inj h)
  | some v =>
      rcases of_ite_not _ _ h with ⟨_, h⟩
      rcases of_ite_not _ _ h with ⟨hversion, h⟩
      rcases eq_of_isString _ hversion with ⟨version, hversion⟩
      rw [Option.bind_some] at h hversion ⊢
      split at h
      · rename_i files hfiles
        rcases exists_mapM_fileOf fmt files h with ⟨entries, hentries⟩
        exact ⟨⟨version, entries⟩, by simp only [componentOf, hversion, hfiles, hentries,
          Option.map_some]⟩
      · exact Bool.noConfusion (Except.ok.inj h)

/-- An accepted manifest has both components, with every listed file. -/
theorem exists_manifestOf (fmt : NumberFormat) (manifest : JsValue)
    (h : isValidManifest fmt manifest = .ok true) (component : Component) :
    ∃ remote, manifestOf manifest component = some remote := by
  rw [isValidManifest] at h
  rcases of_ite_not _ _ h with ⟨_, h⟩
  rcases of_ite_not _ _ h with ⟨_, h⟩
  split at h
  · rename_i hruntime
    cases component with
    | runtime => exact exists_componentOf fmt _ hruntime
    | resources => exact exists_componentOf fmt _ h
  · rename_i hnot
    exact absurd h hnot

end Bootstrapper

end MzzPlork

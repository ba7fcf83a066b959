import MzzPlork.Core.Manifest
import MzzPlork.Theory.Install
import MzzPlork.Theory.Plan

/-!
# What a Report of Success Is Worth

Whether a component that has been reported ok is installed.

What spoils the result is that paths are compared as they are written when the
plan is made, and as places when it is carried out (`Settled`): an obsolete
path can be another spelling of a file that stays, and a file that is left
alone can be another spelling of one that was replaced. Neither condition
depends on what the other component's item did before.

## Main definitions

* `IntactOn`: A listed file that is as it should be.
* `Installed`: What the report claims.
* `Settled`: When it is true.
* `Truthful`: A ledger that is right about the files it finds.

## Theorems

* `verify_ok_iff`: The final check.
* `installed_iff`: When a component reported ok is installed.
* `not_installed_respelled`: A component that is not.
-/

namespace MzzPlork

namespace Bootstrapper

section Verify

variable (env : NodeEnv) (install : Install)

/-- A listed file is in its place, with the size and the hash it should have. -/
def IntactOn (component : Component) (d : NodeDisk) (file : FileEntry) : Prop :=
  ∃ content, d.content (pathJoin (targetDirPath install.appDataRoot component) file.path)
    = some content ∧ Intact env file content

/-- The final check finds nothing wrong exactly if every file is intact. -/
theorem verify_ok_iff (component : Component) (d : NodeDisk) (files : List FileEntry) :
    (∃ v, verifyComponentFiles env install.appDataRoot component d files = some v ∧ v.ok = true) ↔
      ∀ file ∈ files, IntactOn env install component d file := by
  induction files with
  | nil => exact iff_of_true ⟨⟨[], []⟩, rfl, rfl⟩ (fun _ h => absurd h List.not_mem_nil)
  | cons file files ih =>
      rw [List.forall_mem_cons, ← ih, verifyComponentFiles]
      have hcontent := d.content_eq_some
        (pathJoin (targetDirPath install.appDataRoot component) file.path)
      split
      · rename_i hnode
        refine iff_of_false ?_ (fun h => ?_)
        · rintro ⟨v, hv, hok⟩
          rcases Option.map_eq_some_iff.mp hv with ⟨v', _, rfl⟩
          exact Bool.noConfusion hok
        · rcases h.1 with ⟨content, hc, _⟩
          rw [hcontent, hnode] at hc
          exact absurd hc (by simp only [reduceCtorEq, not_false_eq_true])
      · rename_i hnode
        refine iff_of_false ?_ (fun h => ?_)
        · rintro ⟨v, hv, _⟩
          exact absurd hv (by simp only [reduceCtorEq, not_false_eq_true])
        · rcases h.1 with ⟨content, hc, _⟩
          rw [hcontent, hnode] at hc
          exact absurd hc (by simp only [Option.some.injEq, reduceCtorEq, not_false_eq_true])
      -- There is a file: the check and `Intact` read the same two comparisons.
      · rename_i content hnode
        have hc := (hcontent content).mpr hnode
        by_cases hintact : Intact env file content
        · have hgood : (!JsValue.strictEq (.str (env.sha256Hex content)) file.hash
              || !file.size.isNat content.length) = false := by
            rw [hintact.hash, strictEq_str_self, hintact.size]
            rfl
          rw [hgood, if_neg Bool.false_ne_true]
          exact (and_iff_right ⟨content, hc, hintact⟩).symm
        · have hbad : (!JsValue.strictEq (.str (env.sha256Hex content)) file.hash
              || !file.size.isNat content.length) = true := by
            by_contra hnot
            rw [Bool.not_eq_true, Bool.or_eq_false_iff, Bool.not_eq_false', Bool.not_eq_false']
              at hnot
            exact hintact ⟨hnot.2, eq_of_strictEq_str _ _ hnot.1⟩
          rw [hbad, if_pos rfl]
          refine iff_of_false ?_ (fun h => ?_)
          · rintro ⟨v, hv, hok⟩
            rcases Option.map_eq_some_iff.mp hv with ⟨v', _, rfl⟩
            exact absurd (Bool.and_eq_true_iff.mp hok).2 Bool.false_ne_true
          · rcases h.1 with ⟨content', hc', hi⟩
            rw [Option.some.inj (hc.symm.trans hc')] at hintact
            exact hintact hi

end Verify

section Settled

variable (env : NodeEnv) (install : Install)

/-- What a report of success claims: every listed file lies in the target
    directory, and the final check finds nothing wrong. -/
def Installed (component : Component) (files : List FileEntry) (d : NodeDisk) : Prop :=
  (∀ file ∈ files, Inside (targetDirPath install.appDataRoot component)
    (pathJoin (targetDirPath install.appDataRoot component) file.path)) ∧
  ∃ v, verifyComponentFiles env install.appDataRoot component d files = some v ∧ v.ok = true

/-- When it is true. No listed path leaves the target directory, and none is a
    place the removal reaches. A file that is left alone does not share its
    place with a different one that is downloaded, and is not a directory. And
    a file that is downloaded to another place than it is looked for at, as a
    path that names a drive is, is in the latter place already, or another
    entry's download brings it there. -/
structure Settled (d : NodeDisk) (item : PlanItem) : Prop where
  inside : ∀ file ∈ item.files, Inside (targetOf install item) (placeOf install item file)
  lasting : ∀ file ∈ item.files, ¬ Obsolete env install item (placeOf install item file)
  unchanged : ∀ file ∈ effectiveUnchanged env install d item, ∀ other,
    InstalledAt env install item (effectiveToDownload env install d item) other
      (placeOf install item file) → other.size = file.size ∧ other.hash = file.hash
  regular : ∀ file ∈ effectiveUnchanged env install d item,
    (∀ other, ¬ InstalledAt env install item (effectiveToDownload env install d item) other
      (placeOf install item file)) → d.isDir (placeOf install item file) = false
  downloaded : ∀ file ∈ effectiveToDownload env install d item,
    ¬ InstalledAt env install item (effectiveToDownload env install d item) file
      (placeOf install item file) →
    (∃ other, InstalledAt env install item (effectiveToDownload env install d item) other
      (placeOf install item file) ∧ other.size = file.size ∧ other.hash = file.hash) ∨
    ((∀ other, ¬ InstalledAt env install item (effectiveToDownload env install d item) other
      (placeOf install item file)) ∧ IntactOn env install item.component d file)

/-- A count determines the number it equals. -/
theorem eq_of_isNat (n n' : JsNumber) (k : Nat) (h : n.isNat k = true) (h' : n'.isNat k = true) :
    n = n' := by
  cases n with
  | infinite negative => exact Bool.noConfusion h
  | finite q =>
      cases n' with
      | infinite negative => exact Bool.noConfusion h'
      | finite q' => rw [of_decide_eq_true h, of_decide_eq_true h']

/-- One content is what two entries ask for only if they ask for the same. -/
theorem Intact.agree {env : NodeEnv} {file file' : FileEntry} {content : Bytes}
    (h : Intact env file content) (h' : Intact env file' content) :
    file.size = file'.size ∧ file.hash = file'.hash :=
  ⟨eq_of_isNat _ _ _ h.size h'.size, h.hash.trans h'.hash.symm⟩

theorem Intact.congr {env : NodeEnv} {file file' : FileEntry} {content : Bytes}
    (h : Intact env file content) (hsize : file.size = file'.size)
    (hhash : file.hash = file'.hash) :
    Intact env file' content :=
  ⟨hsize ▸ h.size, hhash.symm.trans h.hash⟩

/-- What an item reported ok leaves installed was settled before. -/
theorem settled_of_installed (item : PlanItem) (d d' : NodeDisk)
    (happlied : Applied env install item d d') (hparts : Partitioned item)
    (h : Installed env install item.component item.files d') : Settled env install d item := by
  rw [Installed, verify_ok_iff] at h
  rcases h with ⟨hinside, hintact⟩
  have hU := listed_of_effectiveUnchanged env install item d hparts
  have hD := listed_of_effectiveToDownload env install item d hparts
  have hlasting : ∀ file ∈ item.files,
      ¬ Obsolete env install item (placeOf install item file) := by
    intro file hf hobs
    rcases hintact file hf with ⟨content, hc, _⟩
    exact absurd ((happlied.removed _ hobs).symm.trans hc)
      (by simp only [reduceCtorEq, not_false_eq_true])
  -- What was installed at a file's place is what the file asks for.
  have hagree : ∀ file ∈ item.files, ∀ other, InstalledAt env install item
      (effectiveToDownload env install d item) other (placeOf install item file) →
      other.size = file.size ∧ other.hash = file.hash := by
    intro file hf other hat
    rcases happlied.installed other _ hat (hlasting file hf) with ⟨content, hc, hi⟩
    rcases hintact file hf with ⟨content', hc', hi'⟩
    rw [Option.some.inj (hc'.symm.trans hc)] at hi'
    exact hi.agree hi'
  refine ⟨hinside, hlasting, fun file hf => hagree file (hU file hf), fun file hf hnone => ?_,
    fun file hf _ => ?_⟩
  · rcases hintact file (hU file hf) with ⟨content, hc, _⟩
    rw [happlied.kept _ (hinside file (hU file hf)) (hlasting file (hU file hf)) hnone] at hc
    by_contra hdir
    rw [Bool.not_eq_false] at hdir
    exact absurd ((d.content_of_isDir _ hdir).symm.trans hc)
      (by simp only [reduceCtorEq, not_false_eq_true])
  by_cases hany : ∃ other, InstalledAt env install item
    (effectiveToDownload env install d item) other (placeOf install item file)
  · rcases hany with ⟨other, hat⟩
    exact Or.inl ⟨other, hat, hagree file (hD file hf) other hat⟩
  · have hnone := fun other hat => hany ⟨other, hat⟩
    rcases hintact file (hD file hf) with ⟨content, hc, hi⟩
    refine Or.inr ⟨hnone, content, ?_, hi⟩
    exact (happlied.kept _ (hinside file (hD file hf)) (hlasting file (hD file hf))
      hnone).symm.trans hc

/-- A settled item reported ok is installed, if the unchanged files are as the
    ledger says. -/
theorem installed_of_settled (item : PlanItem) (d d' : NodeDisk)
    (happlied : Applied env install item d d') (hparts : Partitioned item)
    (hledger : ∀ file ∈ effectiveUnchanged env install d item,
      Inside (targetOf install item) (placeOf install item file) →
      d.isDir (placeOf install item file) = false → IntactOn env install item.component d file)
    (hsettled : Settled env install d item) :
    Installed env install item.component item.files d' := by
  rw [Installed, verify_ok_iff]
  refine ⟨hsettled.inside, fun file hf => ?_⟩
  have hlast := hsettled.lasting file hf
  -- Two ways to be intact in the end: left alone, or replaced by the same.
  have hkept : (∀ other, ¬ InstalledAt env install item
      (effectiveToDownload env install d item) other (placeOf install item file)) →
      IntactOn env install item.component d file →
      IntactOn env install item.component d' file := by
    rintro hnone ⟨content, hc, hi⟩
    exact ⟨content, (happlied.kept _ (hsettled.inside file hf) hlast hnone).trans hc, hi⟩
  have hother : ∀ other, InstalledAt env install item (effectiveToDownload env install d item)
      other (placeOf install item file) → other.size = file.size ∧ other.hash = file.hash →
      IntactOn env install item.component d' file := by
    intro other hat hsame
    rcases happlied.installed other _ hat hlast with ⟨content, hc, hi⟩
    exact ⟨content, hc, hi.congr hsame.1 hsame.2⟩
  rcases mem_effective env install item d hparts file hf with hu | hd
  · by_cases hany : ∃ other, InstalledAt env install item
      (effectiveToDownload env install d item) other (placeOf install item file)
    · rcases hany with ⟨other, hat⟩
      exact hother other hat (hsettled.unchanged file hu other hat)
    · have hnone := fun other hat => hany ⟨other, hat⟩
      exact hkept hnone (hledger file hu (hsettled.inside file hf)
        (hsettled.regular file hu hnone))
  · by_cases hown : InstalledAt env install item (effectiveToDownload env install d item) file
      (placeOf install item file)
    · exact hother file hown ⟨rfl, rfl⟩
    · rcases hsettled.downloaded file hd hown with ⟨other, hat, hsame⟩ | ⟨hnone, hintact⟩
      · exact hother other hat hsame
      · exact hkept hnone hintact

/-- Whether a component is installed depends on its target directory alone. -/
theorem Installed.congr (component : Component) (files : List FileEntry) (d d' : NodeDisk)
    (hnode : ∀ l, Inside (targetDirPath install.appDataRoot component) l →
      d'.tree.node l = d.tree.node l) (h : Installed env install component files d) :
    Installed env install component files d' := by
  rw [Installed, verify_ok_iff] at h ⊢
  refine ⟨h.1, fun file hf => ?_⟩
  rcases h.2 file hf with ⟨content, hc, hi⟩
  refine ⟨content, ?_, hi⟩
  rw [Disk.content, hnode _ (h.1 file hf)]
  exact hc

/-- Whether an item is settled depends on its target directory alone. -/
theorem Settled.congr (item : PlanItem) (d d' : NodeDisk) (hparts : Partitioned item)
    (hnode : ∀ l, Inside (targetOf install item) l → d'.tree.node l = d.tree.node l)
    (h : Settled env install d item) : Settled env install d' item := by
  rcases effective_congr env install item d d' hparts
    (fun file hf => hnode _ (h.inside file hf)) with ⟨hU, hD⟩
  refine ⟨h.inside, h.lasting, ?_, ?_, ?_⟩
  · rw [hU, hD]
    exact h.unchanged
  · rw [hU, hD]
    intro file hf hnone
    rw [Disk.isDir,
      hnode _ (h.inside file (listed_of_effectiveUnchanged env install item d hparts file hf))]
    exact h.regular file hf hnone
  · rw [hD]
    intro file hf hown
    rcases h.downloaded file hf hown with hother | ⟨hnone, content, hc, hi⟩
    · exact Or.inl hother
    · refine Or.inr ⟨hnone, content, ?_, hi⟩
      rw [Disk.content,
        hnode _ (h.inside file (listed_of_effectiveToDownload env install item d hparts file hf))]
      exact hc

end Settled

section Report

variable (env : NodeEnv) (install : Install)

/-- The ledger is right about every file it finds with the size it has for it. -/
def Truthful (component : Component) (files : List FileEntry) (d : NodeDisk) : Prop :=
  ∀ record ∈ files, ∀ content,
    d.content (pathJoin (targetDirPath install.appDataRoot component) record.path) = some content →
    record.size.isNat content.length = true → record.hash = .str (env.sha256Hex content)

/-- What such a ledger has as the manifest has it is intact, unless a directory
    is in its place. -/
theorem intactOn_of_truthful (component : Component) (localFiles : List FileEntry) (d : NodeDisk)
    (htruth : Truthful env install component localFiles d) (file : FileEntry)
    (hmatch : recordMatches localFiles file = true)
    (hpresent : presentOnDisk env d (targetDirPath install.appDataRoot component) file = true)
    (hdir : d.isDir (pathJoin (targetDirPath install.appDataRoot component) file.path) = false) :
    IntactOn env install component d file := by
  -- The record speaks for the file: same path, same size, same hash.
  rcases exists_record localFiles file hmatch with ⟨record, hmem, hpath, hsize, hhash⟩
  rcases content_of_present env d _ file hpresent hdir with ⟨content, hc, hcount⟩
  refine ⟨content, hc, hcount, ?_⟩
  rw [htruth record hmem content (hpath ▸ hc) (hsize ▸ hcount)] at hhash
  exact eq_of_strictEq_str _ _ hhash

/-- When a component that was reported ok is installed. -/
theorem installed_iff_of_result (manifest : Manifest) (ledger : Ledger) (w : NodeWorld)
    (results : List ComponentResult) (component : Component) (targetVersion : JsString)
    (files : List FileEntry) (downloaded removed unchanged : List JsString)
    (hledger : Truthful env install component ((localEntry ledger component).files.getD []) w.disk)
    (hresults : (applyUpdate env install (planUpdate manifest ledger) w).2 = some results)
    (hok : .ok component targetVersion files downloaded removed unchanged ∈ results) :
    ∃ remote, manifest component = some remote ∧ files = remote.files ∧
      (Installed env install component remote.files
        (applyUpdate env install (planUpdate manifest ledger) w).1.disk ↔
      Settled env install w.disk
        (planItem remote ((localEntry ledger component).files.getD []) component)) := by
  rcases split_of_result env install _ w results hresults _ hok with
    ⟨pre, item, post, hplan, hone, hworld⟩
  rcases applied_applyItem env install item _ _ _ _ _ _ _ hone with ⟨rfl, rfl, happlied⟩
  have hmem : item ∈ planUpdate manifest ledger := by
    rw [hplan]
    exact List.mem_append_right pre List.mem_cons_self
  rcases (planComponent_eq_some _ _ _ _).mp ((mem_planUpdate _ _ _).mp hmem) with
    ⟨remote, hremote, hitem, _⟩
  -- Nothing else in the plan reaches the component's target directory.
  have haround := node_around env install pre item post
    (hplan ▸ pairwise_planUpdate manifest ledger) w
    (applyItem env install item (applyUpdate env install pre w).1).1
  have hbefore := fun l hl => (haround l hl).1
  have hafter := fun l hl => (haround l hl).2
  have hparts : Partitioned item := by
    rw [hitem]
    exact partitioned_planItem remote _ _
  have hmatch : ∀ file ∈ item.unchanged, recordMatches
      ((localEntry ledger item.component).files.getD []) file = true := by
    rw [hitem]
    exact fun file hf => (List.mem_filter.mp hf).2
  have hlisted : item.files = remote.files := congrArg PlanItem.files hitem
  have hitem' : planItem remote ((localEntry ledger item.component).files.getD []) item.component
      = item := hitem.symm
  refine ⟨remote, hremote, hlisted, ?_⟩
  rw [hitem', ← hlisted, hworld]
  -- The item is judged on the disk it found, which is `w.disk` in its own directory.
  constructor
  · intro h
    have h' := Installed.congr env install item.component item.files _ _
      (fun l hl => (hafter l hl).symm) h
    exact Settled.congr env install item _ _ hparts (fun l hl => (hbefore l hl).symm)
      (settled_of_installed env install item _ _ happlied hparts h')
  · intro h
    have h' := Settled.congr env install item _ _ hparts hbefore h
    refine Installed.congr env install item.component item.files _ _ hafter
      (installed_of_settled env install item _ _ happlied hparts (fun file hf hin hdir => ?_) h')
    have hf := List.mem_filter.mp hf
    have hpresent := (present_congr env _ _ _ file (hbefore _ hin)).symm.trans hf.2
    rw [Disk.isDir, hbefore _ hin] at hdir
    rcases intactOn_of_truthful env install item.component _ w.disk hledger file
      (hmatch file hf.1) hpresent hdir with ⟨content, hc, hi⟩
    refine ⟨content, ?_, hi⟩
    rw [Disk.content, hbefore _ hin]
    exact hc

/-- For a component of an accepted manifest: an update that reports it ok has
    installed it exactly if it was settled before. -/
theorem installed_iff (manifest : JsValue) (hvalid : isValidManifest env.fmt manifest = .ok true)
    (ledger : Ledger) (w : NodeWorld) (results : List ComponentResult) (component : Component)
    (targetVersion : JsString) (files : List FileEntry)
    (downloaded removed unchanged : List JsString)
    (hledger : Truthful env install component ((localEntry ledger component).files.getD []) w.disk)
    (hresults : (applyUpdate env install (planUpdate (manifestOf manifest) ledger) w).2
      = some results)
    (hok : .ok component targetVersion files downloaded removed unchanged ∈ results) :
    ∃ remote, manifestOf manifest component = some remote ∧ files = remote.files ∧
      (Installed env install component remote.files
        (applyUpdate env install (planUpdate (manifestOf manifest) ledger) w).1.disk ↔
      Settled env install w.disk
        (planItem remote ((localEntry ledger component).files.getD []) component)) := by
  rcases exists_manifestOf env.fmt manifest hvalid component with ⟨remote, hremote⟩
  rcases installed_iff_of_result env install (manifestOf manifest) ledger w results component
    targetVersion files downloaded removed unchanged hledger hresults hok with
    ⟨remote', hremote', hfiles, hiff⟩
  rw [Option.some.inj (hremote'.symm.trans hremote)] at hfiles hiff
  exact ⟨remote, hremote, hfiles, hiff⟩

end Report

section Divergence

/-- A content of one byte. -/
def letter : Bytes := ascii "a"

/-- The text of its hash. -/
def letterHash : JsString :=
  js "ca978112ca1bbdcafac231b39a23dc4da786eff8147c4e72b9807785afee48bb"

/-- A server that answers every request with `letter`. -/
def letterEnv : NodeEnv where
  canGet := fun _ => true
  sha256Hex := fun _ => letterHash
  server := fun _ => .response 200 none letter none
  fsMessage := fun _ _ _ => []
  dirSize := fun _ => 0
  cwd := fun _ => []
  fmt := fun _ => []

def letterInstall : Install where
  appDataRoot := [js "C:", js "MzzPlork"]
  absolute := List.cons_ne_nil _ _
  downloadBaseUrl := js "http://localhost"
  maxAttemptsPerFile := 2

/-- `letter`, under some path. -/
def letterFile (path : String) : FileEntry where
  path := js path
  size := .finite 1
  hash := .str letterHash
  version := js "1.0.0"
  url := none

theorem plain_letter : Plain (js "a") := by
  have hname : jsPath.components (js "a") = [js "a"] := by decide
  refine ⟨by decide, fun c hc => ?_⟩
  rw [hname, List.mem_singleton] at hc
  rw [hc]
  exact ⟨by decide, by decide, by decide⟩

def componentJson (files : List JsValue) : JsValue :=
  .obj [(js "version", .str (js "1.0.0")), (js "files", .arr files)]

/-- A manifest with `letter` for a runtime. -/
def letterManifest : JsValue :=
  .obj [(js "version", .str (js "1.0.0")),
    (js "runtime", componentJson [.obj [(js "path", .str (js "a")), (js "size", .num (.finite 1)),
      (js "hash", .str letterHash), (js "version", .str (js "1.0.0"))]]),
    (js "resources", componentJson [])]

def letterRemote : ComponentManifest := ⟨js "1.0.0", [letterFile "a"]⟩

/-- What an update for it reports, from scratch. -/
def letterResults : List ComponentResult :=
  [.ok .runtime (js "1.0.0") letterRemote.files [js "a"] [] [],
    .ok .resources (js "1.0.0") [] [] [] []]

/-- A disk with `letter` in its place. -/
def letterDisk : NodeDisk :=
  ((mkdirRecursive Disk.bare (targetDirPath letterInstall.appDataRoot .runtime)).1.write
    (pathJoin (targetDirPath letterInstall.appDataRoot .runtime) (js "a")) letter).getD Disk.bare

/-- A ledger that has `letter`, for an older version. -/
def olderLedger : Ledger
  | .runtime => some ⟨some (js "0.9.0"), some [letterFile "a"]⟩
  | .resources => none

/-- A new version with `letter` unchanged. -/
theorem settled_letter : ∃ remote, manifestOf letterManifest .runtime = some remote ∧
    Settled letterEnv letterInstall letterDisk (planItem remote [letterFile "a"] .runtime) := by
  have htruth : Truthful letterEnv letterInstall .runtime [letterFile "a"] letterDisk := by
    intro record hrecord _ _ _
    rw [List.mem_singleton.mp hrecord]
    rfl
  rcases installed_iff letterEnv letterInstall letterManifest (by decide) olderLedger
    ⟨letterDisk, []⟩
    [.ok .runtime (js "1.0.0") letterRemote.files [] [] [js "a"],
      .ok .resources (js "1.0.0") [] [] [] []]
    .runtime (js "1.0.0") letterRemote.files [] [] [js "a"] htruth rfl List.mem_cons_self with
    ⟨remote, hremote, hfiles, hiff⟩
  rw [← hfiles] at hiff
  exact ⟨remote, hremote, hiff.mp ⟨by decide, ⟨[], []⟩, rfl, rfl⟩⟩

/-- A ledger that has `letter` under another spelling of its path. -/
def respelledLedger : Ledger
  | .runtime => some ⟨some (js "0.9.0"), some [letterFile "./a"]⟩
  | .resources => none

/-- The update puts the file in place, and then removes it as obsolete under
    its former spelling. -/
theorem not_installed_respelled :
    ¬ ∀ (env : NodeEnv) (install : Install) (manifest : JsValue) (ledger : Ledger) (w : NodeWorld)
      (results : List ComponentResult) (component : Component) (targetVersion : JsString)
      (files : List FileEntry) (downloaded removed unchanged : List JsString),
      isValidManifest env.fmt manifest = .ok true →
      (∀ c, Truthful env install c ((localEntry ledger c).files.getD []) w.disk) →
      (applyUpdate env install (planUpdate (manifestOf manifest) ledger) w).2 = some results →
      .ok component targetVersion files downloaded removed unchanged ∈ results →
      Installed env install component files
        (applyUpdate env install (planUpdate (manifestOf manifest) ledger) w).1.disk := by
  intro h
  have htruth : ∀ c, Truthful letterEnv letterInstall c
      ((localEntry respelledLedger c).files.getD []) letterDisk := by
    intro c record hrecord _ _ _
    -- The ledger lists one file, under a path that leads to the same place.
    cases c with
    | runtime =>
        rw [List.mem_singleton.mp hrecord]
        rfl
    | resources => exact absurd hrecord List.not_mem_nil
  rcases h letterEnv letterInstall letterManifest respelledLedger ⟨letterDisk, []⟩
    [.ok .runtime (js "1.0.0") letterRemote.files [js "a"] [js "./a"] [],
      .ok .resources (js "1.0.0") [] [] [] []]
    .runtime (js "1.0.0") letterRemote.files [js "a"] [js "./a"] [] (by decide) htruth rfl
    List.mem_cons_self with ⟨_, v, hv, hok⟩
  have hmissing : verifyComponentFiles letterEnv letterInstall.appDataRoot .runtime
      (applyUpdate letterEnv letterInstall
        (planUpdate (manifestOf letterManifest) respelledLedger) ⟨letterDisk, []⟩).1.disk
      letterRemote.files = some ⟨[js "a"], []⟩ := rfl
  rw [← Option.some.inj (hmissing.symm.trans hv)] at hok
  exact Bool.noConfusion hok

end Divergence

end Bootstrapper

end MzzPlork

import Mathlib.Data.List.Pairwise
import MzzPlork.Core.UpdateManager

/-!
# The First Phase of an Update

What the downloads of a component leave below `downloads`.

A download works on the one file it is for, whatever the server sends, and one
that succeeds leaves it with the size and the hash it should have. Both paths
of a file go through the guard, so the first phase stays below the component's
staging directory, which has nothing in common with any target directory. And
a path that leads from both directories to a place inside leads to the same
place in both, so what is staged apart is installed apart.

## Main definitions

* `Intact`: A content that is what a file entry asks for.
* `Followable`: A network whose redirects can be followed.
* `PlainPaths`: Paths that are what they look like.

## Theorems

* `step_downloadFile`: A download works on one file.
* `intact_of_downloadFile`: A download that succeeds.
* `ends_stageAll`: When the first phase comes to an end.
* `finalPath_inj`: What is staged apart is installed apart.
* `safePaths_plain`: The guard and plain paths.
* `stageAll_spec`: The first phase.
-/

namespace MzzPlork

namespace Bootstrapper

/-- A content that is what a file entry asks for. -/
structure Intact (env : NodeEnv) (file : FileEntry) (content : Bytes) : Prop where
  size : file.size.isNat content.length = true
  hash : file.hash = .str (env.sha256Hex content)

/-- Comparing with a string. -/
theorem eq_of_strictEq_str (s : JsString) (v : JsValue)
    (h : JsValue.strictEq (.str s) v = true) : v = .str s := by
  cases v with
  | str s' => rw [of_decide_eq_true h]
  | null => exact Bool.noConfusion h
  | bool b => exact Bool.noConfusion h
  | num n => exact Bool.noConfusion h
  | arr items => exact Bool.noConfusion h
  | obj fields => exact Bool.noConfusion h

theorem strictEq_str_self (s : JsString) : JsValue.strictEq (.str s) (.str s) = true :=
  decide_eq_true rfl

section Download

variable (env : NodeEnv) (destPath : JsLoc) (Q : NodeDisk → NodeDisk → Prop)
  (hQ : Disk.FileStep destPath Q)

include hQ

theorem step_receive (resumed : Bool) (body : Bytes) (dropped : Option JsString) (w : NodeWorld) :
    Q w.disk (receive env destPath resumed body dropped w).1.disk := by
  rw [receive]
  split
  · exact hQ.refl _
  · rename_i disk hdisk
    exact hQ.write w.disk disk _ hdisk

theorem step_settle (url : JsString) (status : Nat) (body : Bytes) (dropped : Option JsString)
    (w : NodeWorld) : Q w.disk (settle env destPath url status body dropped w).1.disk := by
  rw [settle]
  split
  · exact hQ.refl _
  · exact step_receive env destPath Q hQ _ body dropped w

theorem step_attemptFresh (redirectsLeft : Nat) (url : JsString) (w : NodeWorld) :
    Q w.disk (attemptFresh env destPath redirectsLeft url w).1.disk := by
  induction redirectsLeft generalizing url w with
  | zero =>
      rw [attemptFresh]
      simp only []
      split
      · exact hQ.refl _
      · exact step_settle env destPath Q hQ url _ _ _
          { w with requests := w.requests ++ [⟨url, none⟩] }
  | succ n ih =>
      rw [attemptFresh]
      simp only []
      split
      · exact hQ.refl _
      · split
        · rename_i left target hleft _
          cases hleft
          split
          · exact ih target { w with requests := w.requests ++ [⟨url, none⟩] }
          · exact hQ.refl _
        · exact step_settle env destPath Q hQ url _ _ _
            { w with requests := w.requests ++ [⟨url, none⟩] }

/-- The file is thrown away and asked for again. -/
theorem step_restart (redirectsLeft : Nat) (url : JsString) (w : NodeWorld) :
    Q w.disk (attemptFresh env destPath redirectsLeft url (unlink w destPath)).1.disk :=
  hQ.trans _ _ _ (hQ.remove w.disk)
    (step_attemptFresh env destPath Q hQ redirectsLeft url (unlink w destPath))

theorem step_attemptFrom (offset redirectsLeft : Nat) (url : JsString) (w : NodeWorld) :
    Q w.disk (attemptFrom env destPath offset redirectsLeft url w).1.disk := by
  induction redirectsLeft generalizing url w with
  | zero =>
      rw [attemptFrom]
      simp only []
      split
      · exact hQ.refl _
      · split
        · exact step_settle env destPath Q hQ url _ _ _
            { w with requests := w.requests ++ [⟨url, some offset⟩] }
        · exact step_restart env destPath Q hQ 0 url
            { w with requests := w.requests ++ [⟨url, some offset⟩] }
  | succ n ih =>
      rw [attemptFrom]
      simp only []
      split
      · exact hQ.refl _
      · split
        · rename_i left target hleft _
          cases hleft
          split
          · exact ih target { w with requests := w.requests ++ [⟨url, some offset⟩] }
          · exact hQ.refl _
        · split
          · exact step_settle env destPath Q hQ url _ _ _
              { w with requests := w.requests ++ [⟨url, some offset⟩] }
          · exact step_restart env destPath Q hQ _ url
              { w with requests := w.requests ++ [⟨url, some offset⟩] }

theorem step_checkDownload (expected : FileEntry) (w : NodeWorld) :
    Q w.disk (checkDownload env destPath expected w).1.disk := by
  rw [checkDownload]
  split
  · exact hQ.refl _
  · split
    · exact hQ.remove _
    · split
      · split <;> exact hQ.remove _
      · exact hQ.refl _

theorem step_initialOffset (expected : FileEntry) (w : NodeWorld) :
    Q w.disk (initialOffset env destPath expected w).1.disk := by
  rw [initialOffset]
  split
  · exact hQ.refl _
  · split
    · exact hQ.refl _
    · exact hQ.remove _

/-- A download works on one file, once its directory is made. -/
theorem step_downloadFile (url : JsString) (expected : FileEntry) (w : NodeWorld) :
    Q (mkdirRecursive w.disk (dirname destPath)).1
      (downloadFile env url destPath expected w).1.disk := by
  have hstart := step_initialOffset env destPath Q hQ expected
    { w with disk := (mkdirRecursive w.disk (dirname destPath)).1 }
  rw [downloadFile]
  simp only []
  split
  -- Three stages on one file: the offset, the requests and the check.
  · generalize initialOffset env destPath expected
      { w with disk := (mkdirRecursive w.disk (dirname destPath)).1 } = start at *
    have hreceived : Q start.1.disk
        (if start.2 > 0 then attemptFrom env destPath start.2 3 url start.1
          else attemptFresh env destPath 3 url start.1).1.disk := by
      split
      · exact step_attemptFrom env destPath Q hQ start.2 3 url start.1
      · exact step_attemptFresh env destPath Q hQ 3 url start.1
    split
    · exact hQ.trans _ _ _ hstart hreceived
    · exact hQ.trans _ _ _ (hQ.trans _ _ _ hstart hreceived)
        (step_checkDownload env destPath Q hQ expected _)
  · exact hQ.refl _

omit hQ

/-- A check that passes finds the file as it should be. -/
theorem intact_of_checkDownload (expected : FileEntry) (w : NodeWorld)
    (h : (checkDownload env destPath expected w).2 = none) :
    ∃ content, (checkDownload env destPath expected w).1.disk.content destPath = some content ∧
      Intact env expected content := by
  rw [checkDownload] at h ⊢
  split at h
  · exact absurd h (by simp only [reduceCtorEq, not_false_eq_true])
  · rename_i content hc
    split at h
    · exact absurd h (by simp only [reduceCtorEq, not_false_eq_true])
    · rename_i hsize
      rw [if_neg hsize]
      split at h
      · split at h <;> exact absurd h (by simp only [reduceCtorEq, not_false_eq_true])
      · rename_i hhash
        rw [if_neg hhash]
        rw [Bool.not_eq_true, Bool.not_eq_false'] at hsize hhash
        exact ⟨content, hc, hsize, eq_of_strictEq_str _ _ hhash⟩

/-- So does a download that succeeds. -/
theorem intact_of_downloadFile (url : JsString) (expected : FileEntry) (w : NodeWorld)
    (h : (downloadFile env url destPath expected w).2 = none) :
    ∃ content, (downloadFile env url destPath expected w).1.disk.content destPath = some content ∧
      Intact env expected content := by
  rw [downloadFile] at h ⊢
  simp only [] at h ⊢
  split at h
  · rename_i hmade
    rw [if_pos hmade]
    split at h
    · exact absurd h (by simp only [reduceCtorEq, not_false_eq_true])
    · exact intact_of_checkDownload env destPath expected _ h
  · exact absurd h (by simp only [reduceCtorEq, not_false_eq_true])

end Download

section Ends

variable (env : NodeEnv)

/-- A network whose redirects all lead where `client.get` goes. -/
def Followable : Prop :=
  ∀ requests status location body dropped,
    env.server requests = .response status location body dropped →
    ∀ target, redirectTarget status location = some target → env.canGet target = true

/-- What is left to wait for: nothing. -/
abbrev Ends (err : Option Thrown) : Prop := err.any Thrown.uncaught = false

variable (destPath : JsLoc)

theorem ends_receive (resumed : Bool) (body : Bytes) (dropped : Option JsString) (w : NodeWorld) :
    Ends (receive env destPath resumed body dropped w).2 := by
  rw [receive]
  split
  · rfl
  · cases dropped <;> rfl

theorem ends_settle (url : JsString) (status : Nat) (body : Bytes) (dropped : Option JsString)
    (w : NodeWorld) : Ends (settle env destPath url status body dropped w).2 := by
  rw [settle]
  split
  · rfl
  · exact ends_receive env destPath _ body dropped w

theorem ends_checkDownload (expected : FileEntry) (w : NodeWorld) :
    Ends (checkDownload env destPath expected w).2 := by
  rw [checkDownload]
  split
  · rfl
  · split
    · rfl
    · split
      · split <;> rfl
      · rfl

variable (hnet : Followable env)

include hnet

theorem ends_attemptFresh (redirectsLeft : Nat) (url : JsString) (w : NodeWorld) :
    Ends (attemptFresh env destPath redirectsLeft url w).2 := by
  induction redirectsLeft generalizing url w with
  | zero =>
      rw [attemptFresh]
      simp only []
      split
      · rfl
      · exact ends_settle env destPath url _ _ _ _
  | succ n ih =>
      rw [attemptFresh]
      simp only []
      split
      · rfl
      · rename_i status location body dropped hserver
        split
        · rename_i left target hleft htarget
          cases hleft
          rw [if_pos (hnet _ status location body dropped hserver target htarget)]
          exact ih target _
        · exact ends_settle env destPath url _ _ _ _

theorem ends_attemptFrom (offset redirectsLeft : Nat) (url : JsString) (w : NodeWorld) :
    Ends (attemptFrom env destPath offset redirectsLeft url w).2 := by
  induction redirectsLeft generalizing url w with
  | zero =>
      rw [attemptFrom]
      simp only []
      split
      · rfl
      · split
        · exact ends_settle env destPath url _ _ _ _
        · exact ends_attemptFresh env destPath hnet 0 url _
  | succ n ih =>
      rw [attemptFrom]
      simp only []
      split
      · rfl
      · rename_i status location body dropped hserver
        split
        · rename_i left target hleft htarget
          cases hleft
          rw [if_pos (hnet _ status location body dropped hserver target htarget)]
          exact ih target _
        · split
          · exact ends_settle env destPath url _ _ _ _
          · exact ends_attemptFresh env destPath hnet _ url _

/-- Where every redirect can be followed, a download resolves or rejects. -/
theorem ends_downloadFile (url : JsString) (expected : FileEntry) (w : NodeWorld) :
    Ends (downloadFile env url destPath expected w).2 := by
  rw [downloadFile]
  simp only []
  split
  · generalize initialOffset env destPath expected
      { w with disk := (mkdirRecursive w.disk (dirname destPath)).1 } = start
    have hreceived : Ends (if start.2 > 0 then attemptFrom env destPath start.2 3 url start.1
        else attemptFresh env destPath 3 url start.1).2 := by
      split
      · exact ends_attemptFrom env destPath hnet start.2 3 url start.1
      · exact ends_attemptFresh env destPath hnet 3 url start.1
    split
    · rename_i err herr
      rwa [herr] at hreceived
    · exact ends_checkDownload env destPath expected _
  · rfl

omit destPath

theorem ends_tryDownload (url : JsString) (stagingPath : JsLoc) (file : FileEntry) (attempts : Nat)
    (lastError : Option Thrown) (hlast : Ends lastError) (w : NodeWorld)
    (err : Option Thrown)
    (h : (tryDownload env url stagingPath file attempts lastError w).2 = some err) : Ends err := by
  induction attempts generalizing lastError w with
  | zero =>
      rw [tryDownload] at h
      exact Option.some.inj h ▸ hlast
  | succ attempts ih =>
      have hdownload := ends_downloadFile env stagingPath hnet url file w
      rw [tryDownload] at h
      split at h
      · exact absurd h (by simp only [reduceCtorEq, not_false_eq_true])
      · rename_i err' herr
        rw [herr] at hdownload
        split at h
        · exact ih (some err') hdownload _ h
        · exact Option.some.inj h ▸ hdownload

theorem ends_stageFile (component : Component) (install : Install) (file : FileEntry)
    (w : NodeWorld) : (stageFile env install component file w).2 ≠ .error none := by
  rw [stageFile]
  split
  · simp only [ne_eq, Except.error.injEq, reduceCtorEq, not_false_eq_true]
  · split
    · simp only [ne_eq, reduceCtorEq, not_false_eq_true]
    · simp only []
      split
      · simp only [ne_eq, reduceCtorEq, not_false_eq_true]
      · rename_i lastError hlast
        have hends := ends_tryDownload env hnet _ _ file _ none rfl w lastError hlast
        rw [failureOf, hends, if_neg Bool.false_ne_true]
        exact fun h => absurd (Except.error.inj h) (Option.some_ne_none _)

/-- So the first phase comes to an end. -/
theorem ends_stageAll (component : Component) (install : Install) (files : List FileEntry)
    (w : NodeWorld) : (stageAll env install component files w).2 ≠ .error none := by
  induction files generalizing w with
  | nil => simp only [stageAll, ne_eq, reduceCtorEq, not_false_eq_true]
  | cons file files ih =>
      have hone := ends_stageFile env hnet component install file w
      have hrest := ih (stageFile env install component file w).1
      rw [stageAll]
      simp only []
      split
      · rename_i failure hfailure
        exact fun h => hone (hfailure.trans (congrArg Except.error (Except.error.inj h)))
      · cases hothers : (stageAll env install component files
            (stageFile env install component file w).1).2 with
        | ok others => simp only [Except.map, ne_eq, reduceCtorEq, not_false_eq_true]
        | error failure =>
            rw [hothers] at hrest
            exact hrest

end Ends

section Paths

/-- What lies on the way to something inside a directory. -/
theorem along_of_prefix_inside (base l i : JsLoc) (hl : Inside base l) (hi : i <+: l) :
    Along base i := by
  rcases List.prefix_or_prefix_of_prefix hi hl.below with h | h
  · exact Or.inl h
  · exact along_of_prefix base i h

theorem confined_mkdirRecursive (d : NodeDisk) (l : JsLoc) (T : JsLoc → Prop) :
    Disk.Confined (fun i => i <+: l) T d (mkdirRecursive d l).1 :=
  Disk.confined_mkdirs _ _ _ d (fun _ hi _ => (List.mem_inits _ _).mp hi)

theorem resolveSafePath_ok (cwd : JsString → List JsString) (base l : JsLoc) (rel : JsString)
    (h : resolveSafePath cwd base rel = .ok l) : pathResolve cwd base rel = l ∧ Inside base l := by
  simp only [resolveSafePath] at h
  split at h
  · rename_i hin
    rw [Except.ok.injEq] at h
    rw [← h]
    exact ⟨rfl, hin⟩
  · exact absurd h (by simp only [reduceCtorEq, not_false_eq_true])

/-- Where the guard lets one path through from two directories of one drive,
    neither of which contains the other, the path was walked from both. -/
theorem pathResolve_both (cwd : JsString → List JsString) (base base' : JsLoc) (rel : JsString)
    (hhead : base.head? = base'.head?) (hbase : base ≠ [])
    (hapart : ∀ l, Inside base l → ¬ Inside base' l)
    (h : Inside base (pathResolve cwd base rel)) (h' : Inside base' (pathResolve cwd base' rel)) :
    ∃ cs, pathResolve cwd base rel = jsPath.resolve base cs ∧
      pathResolve cwd base' rel = jsPath.resolve base' cs := by
  rcases List.exists_cons_of_ne_nil hbase with ⟨x, xs, rfl⟩
  rcases List.head?_eq_some_iff.mp hhead.symm with ⟨xs', rfl⟩
  refine ⟨jsPath.components (splitRoot rel).2, ?_⟩
  simp only [pathResolve] at h h' ⊢
  cases hdev : (splitRoot rel).1.device with
  | none =>
      simp only [hdev] at h h'
      by_cases hroot : (splitRoot rel).1.rooted = true
      · rw [if_pos hroot] at h h'
        exact absurd h' (hapart _ h)
      · rw [if_neg hroot, if_neg hroot]
        exact ⟨rfl, rfl⟩
  | some device =>
      -- The two directories share their root, so both are on the drive or neither is.
      have hdrive : onDrive (x :: xs') device = onDrive (x :: xs) device := rfl
      simp only [hdev, hdrive] at h h' ⊢
      by_cases hroot : (splitRoot rel).1.rooted = true
      · rw [if_pos hroot] at h h'
        exact absurd h' (hapart _ h)
      · rw [if_neg hroot] at h h'
        rw [if_neg hroot, if_neg hroot]
        by_cases hsame : onDrive (x :: xs) device = true
        · rw [if_pos hsame] at h h'
          rw [if_pos hsame, if_pos hsame]
          -- The walk ends below `base`, so it began at the same root.
          have hstart := jsPath.head?_resolve (jsPath.components (splitRoot rel).2) device xs
          rcases h with ⟨rest, _, heq⟩
          rw [List.tail_cons] at heq
          rw [heq, List.cons_append, List.head?_cons, Option.some.injEq] at hstart
          rw [hstart]
          exact ⟨rfl, rfl⟩
        · rw [if_neg hsame] at h h'
          exact absurd h' (hapart _ h)

variable (env : NodeEnv) (install : Install) (component : Component)

theorem name_ne_downloads : component.name ≠ js "downloads" := by
  cases component <;> decide

/-- The two directories have nothing in common. -/
theorem downloadsPath_apart (component' : Component) (l : JsLoc)
    (h : Inside (targetDirPath install.appDataRoot component) l) :
    ¬ Inside (downloadsPath install.appDataRoot component') l := by
  rintro ⟨rest', _, heq⟩
  rcases h with ⟨rest, _, rfl⟩
  rw [targetDirPath, downloadsPath, List.append_assoc, List.append_assoc,
    List.append_right_inj] at heq
  exact name_ne_downloads component (List.cons.inj heq).1

theorem safePaths_ok (file : FileEntry) (staged : Staged)
    (h : safePaths env install component file = .ok staged) :
    staged.file = file ∧
      resolveSafePath env.cwd (targetDirPath install.appDataRoot component) file.path
        = .ok staged.finalPath ∧
      resolveSafePath env.cwd (downloadsPath install.appDataRoot component) file.path
        = .ok staged.stagingPath := by
  rw [safePaths] at h
  cases hfinal : resolveSafePath env.cwd (targetDirPath install.appDataRoot component)
    file.path with
  | error message =>
      rw [hfinal] at h
      exact absurd h (by simp only [bind, Except.bind, reduceCtorEq, not_false_eq_true])
  | ok finalPath =>
      cases hstaging : resolveSafePath env.cwd (downloadsPath install.appDataRoot component)
        file.path with
      | error message =>
          rw [hfinal, hstaging] at h
          exact absurd h (by simp only [bind, Except.bind, reduceCtorEq, not_false_eq_true])
      | ok stagingPath =>
          rw [hfinal, hstaging] at h
          rw [← Except.ok.inj h]
          exact ⟨rfl, rfl, rfl⟩

/-- What the guard lets through is to go to below the target directory, from below
    the download directory. -/
theorem inside_of_safePaths (file : FileEntry) (staged : Staged)
    (h : safePaths env install component file = .ok staged) :
    Inside (targetDirPath install.appDataRoot component) staged.finalPath ∧
      Inside (downloadsPath install.appDataRoot component) staged.stagingPath := by
  rcases safePaths_ok env install component file staged h with ⟨_, hfinal, hstaging⟩
  exact ⟨(resolveSafePath_ok _ _ _ _ hfinal).2, (resolveSafePath_ok _ _ _ _ hstaging).2⟩

/-- A file is staged where it will be installed, only in the other directory. -/
theorem exists_rest_of_safePaths (file : FileEntry) (staged : Staged)
    (h : safePaths env install component file = .ok staged) :
    ∃ rest, rest ≠ [] ∧ staged.finalPath = targetDirPath install.appDataRoot component ++ rest ∧
      staged.stagingPath = downloadsPath install.appDataRoot component ++ rest := by
  rcases safePaths_ok env install component file staged h with ⟨_, hfinal, hstaging⟩
  rcases resolveSafePath_ok _ _ _ _ hfinal with ⟨hf, hfin⟩
  rcases resolveSafePath_ok _ _ _ _ hstaging with ⟨hs, hsin⟩
  rw [← hf] at hfin
  rw [← hs] at hsin
  rcases List.exists_cons_of_ne_nil install.absolute with ⟨x, xs, hroot⟩
  rcases pathResolve_both env.cwd (targetDirPath install.appDataRoot component)
    (downloadsPath install.appDataRoot component) file.path
    (by rw [targetDirPath, downloadsPath, hroot]; rfl)
    (by rw [targetDirPath]; exact List.append_ne_nil_of_right_ne_nil _ (List.cons_ne_nil _ _))
    (downloadsPath_apart install component component) hfin hsin with ⟨cs, hcf, hcs⟩
  rcases hfin with ⟨rest, hne, hrest⟩
  rcases hsin with ⟨rest', _, hrest'⟩
  -- One walk from a directory and from another one level deeper.
  have heq := jsPath.rest_eq_of_resolve install.appDataRoot component.name (js "downloads")
    install.absolute (name_ne_downloads component) cs rest rest' (hcf.symm.trans hrest)
    (hcs.symm.trans hrest')
  refine ⟨rest, hne, hf.symm.trans hrest, ?_⟩
  rw [← hs, hrest', heq]

/-- What is staged apart is installed apart. -/
theorem finalPath_inj (file file' : FileEntry) (staged staged' : Staged)
    (h : safePaths env install component file = .ok staged)
    (h' : safePaths env install component file' = .ok staged')
    (heq : staged.finalPath = staged'.finalPath) : staged.stagingPath = staged'.stagingPath := by
  rcases exists_rest_of_safePaths env install component file staged h with ⟨rest, _, hf, hs⟩
  rcases exists_rest_of_safePaths env install component file' staged' h' with ⟨rest', _, hf', hs'⟩
  rw [hf, hf', List.append_right_inj] at heq
  rw [hs, hs', heq]

/-- A path that starts nowhere else and is all names. -/
structure Plain (path : JsString) : Prop where
  root : (splitRoot path).1 = ⟨none, false⟩
  names : ∀ c ∈ jsPath.components path, jsPath.IsName c

/-- Paths that name different places, none of which lies in another one. -/
structure PlainPaths (files : List FileEntry) : Prop where
  plain : ∀ file ∈ files, Plain file.path
  apart : files.Pairwise (fun file file' =>
    ¬ jsPath.components file.path <+: jsPath.components file'.path ∧
    ¬ jsPath.components file'.path <+: jsPath.components file.path)

theorem splitRoot_relative (s : JsString) (h : (splitRoot s).1.device = none) :
    (splitRoot s).2 = s := by
  match s with
  | [] => rfl
  | [_] => rfl
  | c :: d :: rest =>
      simp only [splitRoot] at h ⊢
      by_cases hsep : (jsPath.isSep c && jsPath.isSep d) = true
      · rw [if_pos hsep] at h ⊢
        cases hshare : splitShare rest with
        | none => rfl
        | some share =>
            rw [hshare] at h
            exact absurd h (Option.some_ne_none _)
      · rw [if_neg hsep] at h ⊢
        split at h
        · exact absurd h (Option.some_ne_none _)
        · rename_i hletter
          rw [if_neg hletter]

theorem pathJoin_plain (base : JsLoc) (path : JsString) (h : Plain path) :
    pathJoin base path = base ++ jsPath.components path :=
  jsPath.resolve_names base _ h.names

/-- The guard lets plain paths through. -/
theorem resolveSafePath_plain (cwd : JsString → List JsString) (base : JsLoc) (path : JsString)
    (h : Plain path) : resolveSafePath cwd base path = .ok (pathJoin base path) := by
  -- `path.resolve` and `path.join` agree on a relative path.
  have hresolve : pathResolve cwd base path = pathJoin base path := by
    simp only [pathResolve, h.root, splitRoot_relative path (by rw [h.root]), Bool.false_eq_true,
      if_false, pathJoin]
  have hin : Inside base (pathJoin base path) := by
    rw [pathJoin_plain base path h]
    exact inside_append base _ (jsPath.components_ne_nil path)
  simp only [resolveSafePath, hresolve, if_pos hin]

theorem safePaths_plain (file : FileEntry) (h : Plain file.path) :
    safePaths env install component file
      = .ok ⟨file, pathJoin (downloadsPath install.appDataRoot component) file.path,
          pathJoin (targetDirPath install.appDataRoot component) file.path⟩ := by
  rw [safePaths, resolveSafePath_plain _ _ _ h, resolveSafePath_plain _ _ _ h]
  rfl

/-- Plain paths that differ name different places. -/
theorem PlainPaths.inj {files : List FileEntry} (h : PlainPaths files) (base : JsLoc)
    (file file' : FileEntry) (hf : file ∈ files) (hf' : file' ∈ files)
    (heq : pathJoin base file.path = pathJoin base file'.path) : file = file' := by
  rw [pathJoin_plain base _ (h.plain file hf), pathJoin_plain base _ (h.plain file' hf'),
    List.append_right_inj] at heq
  by_contra hne
  have hsymm : Std.Symm (fun file file' : FileEntry =>
      ¬ jsPath.components file.path <+: jsPath.components file'.path ∧
      ¬ jsPath.components file'.path <+: jsPath.components file.path) := ⟨fun _ _ hab => hab.symm⟩
  exact (h.apart.forall hf hf' hne).1 (heq ▸ List.prefix_refl _)

end Paths

section Phase

variable (env : NodeEnv) (install : Install) (component : Component)

/-- The place below `downloads` a file is staged at. -/
def StagedAt (files : List FileEntry) (l : JsLoc) : Prop :=
  ∃ file ∈ files, ∃ staged, safePaths env install component file = .ok staged ∧
    l = staged.stagingPath

theorem inside_of_stagedAt (files : List FileEntry) (l : JsLoc)
    (h : StagedAt env install component files l) :
    Inside (downloadsPath install.appDataRoot component) l := by
  rcases h with ⟨file, _, staged, hsafe, rfl⟩
  exact (inside_of_safePaths env install component file staged hsafe).2

/-- Changes below `downloads`, at the places of some files only. -/
def StagingOnly (files : List FileEntry) (d d' : NodeDisk) : Prop :=
  Disk.Confined (Along (downloadsPath install.appDataRoot component))
    (StagedAt env install component files) d d'

theorem stagingOnly_mono (files files' : List FileEntry) (d d' : NodeDisk)
    (hsub : ∀ file ∈ files, file ∈ files') (h : StagingOnly env install component files d d') :
    StagingOnly env install component files' d d' :=
  h.mono (fun _ hl => hl) (fun _ hl => by
    rcases hl with ⟨file, hfile, hrest⟩
    exact ⟨file, hsub file hfile, hrest⟩)

/-- A download makes the way to its file, and works on the file. -/
theorem confined_downloadFile (file : FileEntry) (destPath : JsLoc) (url : JsString)
    (w : NodeWorld) : Disk.Confined (fun i => i <+: dirname destPath) (fun i => i = destPath) w.disk
      (downloadFile env url destPath file w).1.disk :=
  (confined_mkdirRecursive w.disk (dirname destPath) _).trans
    ((step_downloadFile env destPath _ (Disk.fileStep_staged _) url file w).mono
      (fun _ hl => hl.elim) (fun _ hl => hl))

theorem stagingOnly_downloadFile (file : FileEntry) (staged : Staged) (url : JsString)
    (w : NodeWorld) (hsafe : safePaths env install component file = .ok staged) :
    StagingOnly env install component [file] w.disk
      (downloadFile env url staged.stagingPath file w).1.disk := by
  have hat : StagedAt env install component [file] staged.stagingPath :=
    ⟨file, List.mem_singleton_self file, staged, hsafe, rfl⟩
  have hin := inside_of_stagedAt env install component [file] _ hat
  exact (confined_downloadFile env file staged.stagingPath url w).mono
    (fun i hi => along_of_prefix_inside _ _ i hin (hi.trans (List.dropLast_prefix _)))
    (fun _ hl => hl ▸ hat)

/-- The attempts for one file change no other, and one that succeeds leaves the
    file as it should be. -/
theorem tryDownload_spec (file : FileEntry) (staged : Staged) (url : JsString)
    (hsafe : safePaths env install component file = .ok staged) (attempts : Nat)
    (lastError : Option Thrown) (w : NodeWorld) :
    StagingOnly env install component [file] w.disk
      (tryDownload env url staged.stagingPath file attempts lastError w).1.disk ∧
    ((tryDownload env url staged.stagingPath file attempts lastError w).2 = none →
      ∃ content, (tryDownload env url staged.stagingPath file attempts lastError w).1.disk.content
        staged.stagingPath = some content ∧ Intact env file content) := by
  induction attempts generalizing lastError w with
  | zero =>
      exact ⟨Disk.Confined.refl _ _ _, fun h => absurd h (Option.some_ne_none _)⟩
  | succ n ih =>
      -- Each attempt keeps to the staged file, so all of them do.
      have hone := stagingOnly_downloadFile env install component file staged url w hsafe
      rw [tryDownload]
      cases hres : (downloadFile env url staged.stagingPath file w).2 with
      | none =>
          simp only []
          exact ⟨hone, fun _ => intact_of_downloadFile env _ url file w hres⟩
      | some err =>
          simp only []
          split
          · rcases ih (some err) (downloadFile env url staged.stagingPath file w).1 with ⟨hc, hi⟩
            exact ⟨hone.trans hc, hi⟩
          · exact ⟨hone, fun h => absurd h (Option.some_ne_none _)⟩

/-- A file that is staged already is as it should be. -/
theorem intact_of_stagedFileMatches (d : NodeDisk) (stagingPath : JsLoc) (file : FileEntry)
    (h : stagedFileMatches env d stagingPath file = true) :
    ∃ content, d.content stagingPath = some content ∧ Intact env file content := by
  rw [stagedFileMatches, statSizeIfExists] at h
  cases hn : d.tree.node stagingPath with
  | none =>
      rw [hn] at h
      exact Bool.noConfusion h
  | some node =>
      cases node with
      | file content =>
          have hc := (d.content_eq_some stagingPath content).mpr hn
          rw [hn, hc] at h
          rcases Bool.and_eq_true_iff.mp h with ⟨hsize, hhash⟩
          exact ⟨content, hc, hsize, eq_of_strictEq_str _ _ hhash⟩
      | dir =>
          -- A directory may have the size, but it cannot be hashed.
          rw [hn, d.content_of_isDir stagingPath ((d.isDir_iff _).mpr hn)] at h
          exact absurd (Bool.and_eq_true_iff.mp h).2 Bool.false_ne_true

/-- What staging one file comes to. -/
theorem stageFile_spec (file : FileEntry) (w : NodeWorld) :
    StagingOnly env install component [file] w.disk
      (stageFile env install component file w).1.disk ∧
    ∀ staged, (stageFile env install component file w).2 = .ok staged →
      safePaths env install component file = .ok staged ∧
      ∃ content, (stageFile env install component file w).1.disk.content staged.stagingPath
        = some content ∧ Intact env file content := by
  rw [stageFile]
  cases hsafe : safePaths env install component file with
  | error message =>
      exact ⟨Disk.Confined.refl _ _ _, fun _ h => absurd h
        (by simp only [reduceCtorEq, not_false_eq_true])⟩
  | ok staged =>
      simp only []
      by_cases hmatch : stagedFileMatches env w.disk staged.stagingPath file = true
      · rw [if_pos hmatch]
        refine ⟨Disk.Confined.refl _ _ _, fun staged' h => ?_⟩
        rw [← Except.ok.inj h]
        exact ⟨rfl, intact_of_stagedFileMatches env w.disk _ file hmatch⟩
      · rw [if_neg hmatch]
        rcases tryDownload_spec env install component file staged
          (resolveDownloadUrl install.downloadBaseUrl component file) hsafe
          install.maxAttemptsPerFile.toNat none w with ⟨hconf, hintact⟩
        split
        · rename_i hnone
          refine ⟨hconf, fun staged' h => ?_⟩
          rw [← Except.ok.inj h]
          exact ⟨rfl, hintact hnone⟩
        · exact ⟨hconf, fun _ h => absurd h (by simp only [reduceCtorEq, not_false_eq_true])⟩

/-- The first phase goes through when the first file does, and then the rest. -/
theorem stageAll_cons_ok (file : FileEntry) (files : List FileEntry) (w : NodeWorld)
    (ss : List Staged) :
    (stageAll env install component (file :: files) w).2 = .ok ss ↔
      ∃ staged others, (stageFile env install component file w).2 = .ok staged ∧
        (stageAll env install component files (stageFile env install component file w).1).2
          = .ok others ∧ staged :: others = ss := by
  rw [stageAll]
  cases (stageFile env install component file w).2 with
  | error failure => simp only [reduceCtorEq, false_and, exists_false]
  | ok staged =>
      cases hrest : (stageAll env install component files
        (stageFile env install component file w).1).2 with
      | error failure =>
          simp only [hrest, Except.map, reduceCtorEq, false_and, and_false, exists_false]
      | ok others =>
          simp only [hrest, Except.map, Except.ok.injEq, exists_and_left, exists_eq_left']

/-- It fails when the first file does, or else the rest. -/
theorem stageAll_cons_error (file : FileEntry) (files : List FileEntry) (w : NodeWorld)
    (failure : Option Failure) :
    (stageAll env install component (file :: files) w).2 = .error failure ↔
      (stageFile env install component file w).2 = .error failure ∨
      ∃ staged, (stageFile env install component file w).2 = .ok staged ∧
        (stageAll env install component files (stageFile env install component file w).1).2
          = .error failure := by
  rw [stageAll]
  cases (stageFile env install component file w).2 with
  | error failure' =>
      simp only [reduceCtorEq, false_and, exists_false, or_false, Except.error.injEq]
  | ok staged =>
      cases hrest : (stageAll env install component files
        (stageFile env install component file w).1).2 with
      | error failure' =>
          simp only [hrest, Except.map, reduceCtorEq, Except.ok.injEq, false_or, exists_eq_left']
      | ok others =>
          simp only [hrest, Except.map, reduceCtorEq, and_false, exists_false, or_self]

theorem stageAll_cons_world (file : FileEntry) (files : List FileEntry) (w : NodeWorld)
    (staged : Staged) (h : (stageFile env install component file w).2 = .ok staged) :
    (stageAll env install component (file :: files) w).1
      = (stageAll env install component files (stageFile env install component file w).1).1 := by
  rw [stageAll, h]

/-- The first phase. Nothing happens outside the staging directory; and when it
    goes through, every file was let through by the guard and, unless another
    one is staged at the same place, lies there as it should be. -/
theorem stageAll_spec (files : List FileEntry) (w : NodeWorld) :
    StagingOnly env install component files w.disk
      (stageAll env install component files w).1.disk ∧
    ∀ stagedPaths, (stageAll env install component files w).2 = .ok stagedPaths →
      stagedPaths.map Staged.file = files ∧
      (∀ staged ∈ stagedPaths, safePaths env install component staged.file = .ok staged) ∧
      (stagedPaths.Pairwise (fun s s' => s.stagingPath ≠ s'.stagingPath) →
        ∀ staged ∈ stagedPaths, ∃ content,
          (stageAll env install component files w).1.disk.content staged.stagingPath
            = some content ∧ Intact env staged.file content) := by
  induction files generalizing w with
  | nil =>
      refine ⟨Disk.Confined.refl _ _ _, fun stagedPaths h => ?_⟩
      rw [← Except.ok.inj h]
      exact ⟨rfl, fun _ hs => absurd hs List.not_mem_nil, fun _ _ hs => absurd hs List.not_mem_nil⟩
  | cons file files ih =>
      rcases stageFile_spec env install component file w with ⟨hone, hok⟩
      have hone' := stagingOnly_mono env install component [file] (file :: files) _ _
        (fun f hf => List.mem_cons.mpr (Or.inl (List.mem_singleton.mp hf))) hone
      cases hres : (stageFile env install component file w).2 with
      | error failure =>
          rw [stageAll, hres]
          exact ⟨hone', fun _ h => absurd h (by simp only [reduceCtorEq, not_false_eq_true])⟩
      | ok staged =>
          rcases hok staged hres with ⟨hsafe, hintact⟩
          -- The induction is on the files, from the world the first one leaves.
          rcases ih (stageFile env install component file w).1 with ⟨hrest, hall⟩
          rw [stageAll_cons_world env install component file files w staged hres]
          refine ⟨hone'.trans (stagingOnly_mono env install component files (file :: files) _ _
            (fun f hf => List.mem_cons_of_mem file hf) hrest), fun stagedPaths h => ?_⟩
          rcases (stageAll_cons_ok env install component file files w stagedPaths).mp h with
            ⟨staged', others, hres', hothers, rfl⟩
          cases Except.ok.inj (hres.symm.trans hres')
          rcases hall others hothers with ⟨hfiles, hsafes, hintacts⟩
          have hfile := (safePaths_ok env install component file staged hsafe).1
          refine ⟨?_, fun s hs => ?_, fun hpair s hs => ?_⟩
          · rw [List.map_cons, hfiles, hfile]
          · rcases List.mem_cons.mp hs with rfl | hs
            · rw [hfile]
              exact hsafe
            · exact hsafes s hs
          · rcases List.pairwise_cons.mp hpair with ⟨hapart, hpair⟩
            rcases List.mem_cons.mp hs with rfl | hs
            · -- The files behind it are staged elsewhere.
              rcases hintact with ⟨content, hc, hi⟩
              refine ⟨content, (hrest.content _ ?_).trans hc, hfile ▸ hi⟩
              rintro ⟨file', hmem, staged', hsafe', heq⟩
              rw [← hfiles] at hmem
              rcases List.mem_map.mp hmem with ⟨s', hs', rfl⟩
              rw [Except.ok.inj (hsafe'.symm.trans (hsafes s' hs'))] at heq
              exact hapart s' hs' heq
            · exact hintacts hpair s hs

end Phase

end Bootstrapper

end MzzPlork

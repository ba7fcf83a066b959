import MzzPlork.Theory.Guard
import MzzPlork.Theory.Joined
import MzzPlork.Theory.TwoRuns

/-!
# Independence

Whether a component's item does the same in a plan as alone.

Two things make a difference. One is that an item that rejects, or waits for a
download without an end, takes the results of all others with it. The other is
the second look at the unchanged files: it joins their paths without the guard,
so it can see files of the other component, which an earlier item may have
brought or taken away. An item that comes to such a file then fails in one of
the two cases only, as the guard stops it from downloading the file.

## Main definitions

* `Independent`: What independence means.
* `Unswayed`: An item that does not come to a file that looks different.

## Theorems

* `first_difference`: Where two tests on a list differ first.
* `stageAll_append`: The first phase over more files.
* `result_iff_unswayed`: When an item reports the same.
* `independent_iff`: When an update is independent.
* `not_independent_besideTwice`: A component whose result is lost.
-/

namespace MzzPlork

namespace Bootstrapper

/-- Where two tests on a list differ first, if they do. -/
theorem first_difference {α : Type} (p q : α → Bool) (xs : List α) :
    (∀ x ∈ xs, p x = q x) ∨
      ∃ head x tail, xs = head ++ x :: tail ∧ (∀ y ∈ head, p y = q y) ∧ p x ≠ q x := by
  induction xs with
  | nil => exact Or.inl (fun _ h => absurd h List.not_mem_nil)
  | cons a xs ih =>
      by_cases ha : p a = q a
      · rcases ih with h | ⟨head, x, tail, rfl, hhead, hx⟩
        · exact Or.inl (List.forall_mem_cons.mpr ⟨ha, h⟩)
        · exact Or.inr ⟨a :: head, x, tail, rfl, List.forall_mem_cons.mpr ⟨ha, hhead⟩, hx⟩
      · exact Or.inr ⟨[], a, xs, rfl, fun _ h => absurd h List.not_mem_nil, ha⟩

section Phase

variable (env : NodeEnv) (install : Install)

/-- Where the first phase fails, so it does with more files behind. -/
theorem stageAll_append_error (component : Component) (files more : List FileEntry) (w : NodeWorld)
    (failure : Option Failure) (h : (stageAll env install component files w).2 = .error failure) :
    (stageAll env install component (files ++ more) w).2 = .error failure := by
  induction files generalizing w with
  | nil => exact absurd h (by simp only [stageAll, reduceCtorEq, not_false_eq_true])
  | cons file files ih =>
      rw [List.cons_append, stageAll_cons_error]
      refine ((stageAll_cons_error env install component file files w failure).mp h).imp_right ?_
      rintro ⟨staged, hres, hrest⟩
      exact ⟨staged, hres, ih _ hrest⟩

/-- Where it goes through, the files behind decide. -/
theorem stageAll_append_ok (component : Component) (files more : List FileEntry) (w : NodeWorld)
    (ss : List Staged) (h : (stageAll env install component files w).2 = .ok ss) :
    (stageAll env install component (files ++ more) w).2
      = (stageAll env install component more (stageAll env install component files w).1).2.map
        (fun others => ss ++ others) := by
  induction files generalizing w ss with
  | nil =>
      rw [← Except.ok.inj h, List.nil_append]
      cases hmore : (stageAll env install component more w).2 with
      | error failure => simp only [stageAll, hmore, Except.map]
      | ok others => simp only [stageAll, hmore, Except.map, List.nil_append]
  | cons file files ih =>
      rcases (stageAll_cons_ok env install component file files w ss).mp h with
        ⟨staged, others, hres, hothers, rfl⟩
      rw [List.cons_append, stageAll_cons_world env install component file files w staged hres,
        stageAll]
      simp only [hres, ih _ others hothers]
      cases (stageAll env install component more (stageAll env install component files
        (stageFile env install component file w).1).1).2 <;> rfl

/-- A failure to stage a file names it. -/
theorem file_of_stageFile (component : Component) (file : FileEntry) (w : NodeWorld)
    (failure : Failure) (h : (stageFile env install component file w).2 = .error (some failure)) :
    failure.file = file.path := by
  rw [stageFile] at h
  split at h
  · rw [← Option.some.inj (Except.error.inj h)]
  · split at h
    · exact absurd h (by simp only [reduceCtorEq, not_false_eq_true])
    · simp only [] at h
      split at h
      · exact absurd h (by simp only [reduceCtorEq, not_false_eq_true])
      · rw [failureOf, Except.error.injEq] at h
        split at h
        · exact absurd h.symm (Option.some_ne_none _)
        · rw [← Option.some.inj h]

/-- A failure names a file. -/
theorem file_of_failure (component : Component) (files : List FileEntry) (w : NodeWorld)
    (failure : Failure) (h : (stageAll env install component files w).2 = .error (some failure)) :
    ∃ file ∈ files, failure.file = file.path := by
  induction files generalizing w with
  | nil => exact absurd h (by simp only [stageAll, reduceCtorEq, not_false_eq_true])
  | cons file files ih =>
      rcases (stageAll_cons_error env install component file files w _).mp h with
        hone | ⟨staged, _, hrest⟩
      · exact ⟨file, List.mem_cons_self,
          file_of_stageFile env install component file w failure hone⟩
      · rcases ih _ hrest with ⟨file', hmem, hfile⟩
        exact ⟨file', List.mem_cons_of_mem file hmem, hfile⟩

/-- An item is reported failed exactly if its first phase fails. -/
theorem failed_iff (item : PlanItem) (w : NodeWorld) (failure : Failure) :
    (applyItem env install item w).2 = some (.failed item.component failure) ↔
      (stageItem env install item w).2 = .error (some failure) :=
  ⟨fun h => (stageItem_of_failed env install item w item.component failure h).1,
    fun h => congrArg Prod.snd (applyItem_of_error env install item w _ h)⟩

end Phase

section Look

variable (env : NodeEnv) (install : Install)

/-- Whether a file is on disk as far as the second look can tell. -/
abbrev looksPresent (item : PlanItem) (w : NodeWorld) (file : FileEntry) : Bool :=
  presentOnDisk env w.disk (targetOf install item) file

/-- The downloads that come before an unchanged file: those of the plan, and
    the unchanged files ahead of it that are missing. -/
def downloadsAhead (item : PlanItem) (w : NodeWorld) (head : List FileEntry) : List FileEntry :=
  item.toDownload ++ head.filter (fun file => !looksPresent env install item w file)

/-- An item that does not come to an unchanged file that looks different on the
    other disk: it fails ahead of the first one. -/
def Unswayed (item : PlanItem) (w w' : NodeWorld) : Prop :=
  ∀ head file tail, item.unchanged = head ++ file :: tail →
    (∀ f ∈ head, looksPresent env install item w' f = looksPresent env install item w f) →
    looksPresent env install item w' file ≠ looksPresent env install item w file →
    ∃ failure, (stageAll env install item.component
      (downloadsAhead env install item w head) w).2 = .error failure

/-- The downloads of an item, from some unchanged file on. -/
theorem effectiveToDownload_split (item : PlanItem) (w : NodeWorld) (head : List FileEntry)
    (file : FileEntry) (tail : List FileEntry) (h : item.unchanged = head ++ file :: tail) :
    effectiveToDownload env install w.disk item = downloadsAhead env install item w head ++
      (file :: tail).filter (fun f => !looksPresent env install item w f) := by
  rw [effectiveToDownload, downloadsAhead, h, List.filter_append, List.append_assoc]

/-- An item whose first phase fails ahead of a file fails there. -/
theorem stageItem_of_ahead (item : PlanItem) (w : NodeWorld) (head : List FileEntry)
    (file : FileEntry) (tail : List FileEntry) (hsplit : item.unchanged = head ++ file :: tail)
    (failure : Option Failure) (h : (stageAll env install item.component
      (downloadsAhead env install item w head) w).2 = .error failure) :
    (stageItem env install item w).2 = .error failure := by
  rw [stageItem, effectiveToDownload_split env install item w head file tail hsplit]
  exact stageAll_append_error env install _ _ _ w failure h

theorem downloadsAhead_congr (item : PlanItem) (w w' : NodeWorld) (head : List FileEntry)
    (h : ∀ f ∈ head, looksPresent env install item w' f = looksPresent env install item w f) :
    downloadsAhead env install item w' head = downloadsAhead env install item w head :=
  congrArg _ (List.filter_congr (fun f hf => congrArg not (h f hf)))

/-- One path, one look: what the ledger has for a path has one size. -/
def Uniform (item : PlanItem) : Prop :=
  ∀ file ∈ item.unchanged, ∀ file' ∈ item.unchanged, file'.path = file.path →
    file'.size = file.size

theorem uniform_planItem (remote : ComponentManifest) (localFiles : List FileEntry)
    (component : Component) : Uniform (planItem remote localFiles component) := by
  intro file hfile file' hfile' hpath
  have hmatch := (List.mem_filter.mp hfile).2
  have hmatch' := (List.mem_filter.mp hfile').2
  rw [recordMatches] at hmatch hmatch'
  rw [hpath] at hmatch'
  split at hmatch
  · rename_i record hrecord
    rw [hrecord] at hmatch'
    exact (of_decide_eq_true (Bool.and_eq_true_iff.mp hmatch').2).symm.trans
      (of_decide_eq_true (Bool.and_eq_true_iff.mp hmatch).2)
  · exact Bool.noConfusion hmatch

variable (item : PlanItem) (huniform : Uniform item)

include huniform

/-- A file that is missing in one run, and that the guard stops, makes the runs
    report differently if they come to it. -/
theorem result_ne_of_missing (w w' : NodeWorld) (head : List FileEntry) (file : FileEntry)
    (tail : List FileEntry) (hsplit : item.unchanged = head ++ file :: tail)
    (hmissing : looksPresent env install item w file = false)
    (hpresent : looksPresent env install item w' file = true) (message : JsString)
    (hguard : safePaths env install item.component file = .error message)
    (ss ss' : List Staged)
    (hok :
      (stageAll env install item.component (downloadsAhead env install item w head) w).2 = .ok ss)
    (hok' : (stageAll env install item.component
      (downloadsAhead env install item w' head) w').2 = .ok ss') :
    (applyItem env install item w').2 ≠ (applyItem env install item w).2 := by
  have hfailed : (applyItem env install item w).2
      = some (.failed item.component ⟨file.path, some message⟩) := by
    rw [failed_iff, stageItem, effectiveToDownload_split env install item w head file tail hsplit,
      stageAll_append_ok env install _ _ _ w ss hok, List.filter_cons_of_pos (by
        rw [hmissing]; rfl), stageAll, stageFile, hguard]
    rfl
  intro heq
  rw [hfailed, failed_iff, stageItem,
    effectiveToDownload_split env install item w' head file tail hsplit,
    stageAll_append_ok env install _ _ _ w' ss' hok', List.filter_cons_of_neg (by
      rw [hpresent]; exact Bool.false_ne_true)] at heq
  -- The other run would have to fail at a file of the same path, which is there.
  cases hrest : (stageAll env install item.component
    (tail.filter (fun f => !looksPresent env install item w' f))
    (stageAll env install item.component (downloadsAhead env install item w' head) w').1).2 with
  | ok others =>
      rw [hrest] at heq
      exact absurd heq (by simp only [Except.map, reduceCtorEq, not_false_eq_true])
  | error failure =>
      rw [hrest] at heq
      rw [Except.map, Except.error.injEq] at heq
      rw [heq] at hrest
      rcases file_of_failure env install _ _ _ _ hrest with ⟨other, hother, hpath⟩
      rcases List.mem_filter.mp hother with ⟨hmem, hnot⟩
      have hfile : file ∈ item.unchanged := by
        rw [hsplit]
        exact List.mem_append_right head List.mem_cons_self
      have hother' : other ∈ item.unchanged := by
        rw [hsplit]
        exact List.mem_append_right head (List.mem_cons_of_mem file hmem)
      have hsize := huniform file hfile other hother' hpath.symm
      have hlook : looksPresent env install item w' other
          = looksPresent env install item w' file := by
        simp only [looksPresent, presentOnDisk]
        rw [hsize, show other.path = file.path from hpath.symm]
      rw [hlook, hpresent] at hnot
      exact Bool.noConfusion hnot

variable (hnet : PerUrl env) (w w' : NodeWorld)
  (hlevel : Level install item.component w.disk w'.disk)
  (hothers : ∀ l, (∀ c, c ≠ item.component → ¬ OwnDir install c l) →
    w'.disk.tree.node l = w.disk.tree.node l)

omit huniform

include hothers in
/-- A file that looks different is stopped by the guard. -/
theorem guard_of_difference (file : FileEntry)
    (h : looksPresent env install item w' file ≠ looksPresent env install item w file) :
    ∃ message, safePaths env install item.component file = .error message := by
  cases hsafe : safePaths env install item.component file with
  | error message => exact ⟨message, rfl⟩
  | ok staged =>
      -- It is looked for where no other item works.
      refine absurd (present_congr env w.disk w'.disk (targetOf install item) file ?_) h
      exact hothers _ (fun c hne =>
        not_ownDir_of_safePaths env install item.component file staged hsafe c hne)

include huniform hnet hlevel hothers

/-- When an item reports the same on both disks. -/
theorem result_iff_unswayed :
    (applyItem env install item w').2 = (applyItem env install item w).2 ↔
      Unswayed env install item w w' := by
  constructor
  · intro hsame head file tail hsplit hhead hdiffers
    rcases guard_of_difference env install item w w' hothers file hdiffers with ⟨message, hguard⟩
    cases hok : (stageAll env install item.component
      (downloadsAhead env install item w head) w).2 with
    | error failure => exact ⟨failure, rfl⟩
    | ok ss =>
        have hok' : (stageAll env install item.component
            (downloadsAhead env install item w' head) w').2 = .ok ss := by
          rw [downloadsAhead_congr env install item w w' head hhead,
            (stageAll_level env install item.component hnet _ w w' hlevel).1, hok]
        -- One of the two runs finds the file missing.
        cases hlook : looksPresent env install item w file with
        | false =>
            rw [hlook, ne_eq, Bool.not_eq_false] at hdiffers
            exact absurd hsame (result_ne_of_missing env install item huniform w w' head file tail
              hsplit hlook hdiffers message hguard ss ss hok hok')
        | true =>
            rw [hlook, ne_eq, Bool.not_eq_true] at hdiffers
            exact absurd hsame.symm (result_ne_of_missing env install item huniform w' w head file
              tail hsplit hdiffers hlook message hguard ss ss hok' hok)
  · intro hunswayed
    rcases first_difference (looksPresent env install item w') (looksPresent env install item w)
      item.unchanged with hsame | ⟨head, file, tail, hsplit, hhead, hdiffers⟩
    · exact (applyItem_level env install hnet item w w' hlevel hsame).1
    · rcases hunswayed head file tail hsplit hhead hdiffers with ⟨failure, hfail⟩
      have hfail' : (stageAll env install item.component
          (downloadsAhead env install item w' head) w').2 = .error failure := by
        rw [downloadsAhead_congr env install item w w' head hhead,
          (stageAll_level env install item.component hnet _ w w' hlevel).1, hfail]
      rw [applyItem_of_error env install item w failure
          (stageItem_of_ahead env install item w head file tail hsplit failure hfail),
        applyItem_of_error env install item w' failure
          (stageItem_of_ahead env install item w' head file tail hsplit failure hfail')]

omit huniform hothers in
/-- Then it also leaves the same in its target directory. -/
theorem node_of_unswayed (hunswayed : Unswayed env install item w w') (l : JsLoc)
    (hl : Inside (targetOf install item) l) :
    (applyItem env install item w').1.disk.tree.node l
      = (applyItem env install item w).1.disk.tree.node l := by
  rcases first_difference (looksPresent env install item w') (looksPresent env install item w)
    item.unchanged with hsame | ⟨head, file, tail, hsplit, hhead, hdiffers⟩
  · exact (applyItem_level env install hnet item w w' hlevel hsame).2.inside l (Or.inl hl)
  · rcases hunswayed head file tail hsplit hhead hdiffers with ⟨failure, hfail⟩
    have hfail' : (stageAll env install item.component
        (downloadsAhead env install item w' head) w').2 = .error failure := by
      rw [downloadsAhead_congr env install item w w' head hhead,
        (stageAll_level env install item.component hnet _ w w' hlevel).1, hfail]
    rw [node_of_error env install item w failure
        (stageItem_of_ahead env install item w head file tail hsplit failure hfail) l hl,
      node_of_error env install item w' failure
        (stageItem_of_ahead env install item w' head file tail hsplit failure hfail') l hl,
      hlevel.inside l (Or.inl hl)]

end Look

section Update

variable (env : NodeEnv) (install : Install)

/-- An update with a result for each of its items, each of which is that of the
    item alone, and so is what is in the target directory in the end. -/
structure Independent (plan : List PlanItem) (w : NodeWorld) : Prop where
  results : ∃ results, (applyUpdate env install plan w).2 = some results ∧
    plan.map (fun item => (applyUpdate env install [item] w).2)
      = results.map (fun result => some [result])
  contents : ∀ item ∈ plan, ∀ l, Inside (targetOf install item) l →
    (applyUpdate env install plan w).1.disk.tree.node l
      = (applyUpdate env install [item] w).1.disk.tree.node l

/-- The results of an update, item by item. -/
theorem map_results (plan : List PlanItem) (w : NodeWorld) (results : List ComponentResult)
    (h : (applyUpdate env install plan w).2 = some results)
    (g : PlanItem → Option ComponentResult)
    (hg : ∀ pre item post, plan = pre ++ item :: post →
      (applyItem env install item (applyUpdate env install pre w).1).2 = g item) :
    plan.map g = results.map some := by
  induction plan generalizing w results with
  | nil =>
      rw [← Option.some.inj h]
      rfl
  | cons item plan ih =>
      rcases results_of_cons env install item plan w results h with
        ⟨one, rest, rfl, hone, hrest, _⟩
      rw [List.map_cons, List.map_cons, ← hg [] item plan rfl]
      refine congrArg₂ _ hone (ih _ rest hrest (fun pre item' post heq => ?_))
      have hlater := hg (item :: pre) item' post (by rw [heq, List.cons_append])
      rw [applyUpdate_of_some env install item pre w one hone] at hlater
      exact hlater

/-- Where no item of the others works, an update changes nothing. -/
theorem node_elsewhere (plan : List PlanItem) (w : NodeWorld) (l : JsLoc)
    (h : ∀ item ∈ plan, ¬ OwnDir install item.component l) :
    (applyUpdate env install plan w).1.disk.tree.node l = w.disk.tree.node l := by
  refine (confined_applyUpdate env install plan w).node l ?_ ?_
  · rintro ⟨item, hitem, hown⟩
    exact h item hitem hown
  · rintro ⟨item, hitem, hown⟩
    exact h item hitem (hown.imp Or.inr Or.inr)

/-- What the items before one leave of the disk: all that it looks at, and all that
    no other item works on. -/
theorem level_before (pre post : List PlanItem) (item : PlanItem) (w : NodeWorld)
    (h : (pre ++ item :: post).Pairwise (fun a b => a.component ≠ b.component)) :
    Level install item.component w.disk (applyUpdate env install pre w).1.disk ∧
      ∀ l, (∀ c, c ≠ item.component → ¬ OwnDir install c l) →
        (applyUpdate env install pre w).1.disk.tree.node l = w.disk.tree.node l := by
  have hne : ∀ i ∈ pre, i.component ≠ item.component := fun i hi =>
    (List.pairwise_append.mp h).2.2 i hi item List.mem_cons_self
  refine ⟨level_applyUpdate env pre hne w, fun l hl => ?_⟩
  exact node_elsewhere env install pre w l (fun i hi => hl i.component (hne i hi))

/-- The updates of one item each, and what the items come to. -/
theorem map_alone (plan : List PlanItem) (w : NodeWorld) :
    plan.map (fun item => (applyUpdate env install [item] w).2)
      = (plan.map (fun item => (applyItem env install item w).2)).map
          (Option.map (fun result => [result])) := by
  rw [List.map_map]
  exact List.map_congr_left (fun item _ => by rw [applyUpdate_singleton, Function.comp_apply])

/-- Where the results are those of the items alone, an item comes to the same in
    its place in the plan. -/
theorem alone_of_results (pre post : List PlanItem) (item : PlanItem) (w : NodeWorld)
    (results : List ComponentResult)
    (h : (applyUpdate env install (pre ++ item :: post) w).2 = some results)
    (hmap : (pre ++ item :: post).map (fun item => (applyUpdate env install [item] w).2)
      = results.map (fun result => some [result])) :
    ∃ result, (applyItem env install item w).2 = some result ∧
      (applyItem env install item (applyUpdate env install pre w).1).2 = some result := by
  rcases result_of_split env install pre item post w results h with
    ⟨before, result, after, rfl, hlen, hitem, _⟩
  rw [List.map_append, List.map_append, List.map_cons, List.map_cons] at hmap
  have halone := (List.cons.inj (List.append_inj hmap (by
    rw [List.length_map, List.length_map, hlen])).2).1
  rw [applyUpdate_singleton] at halone
  rcases Option.map_eq_some_iff.mp halone with ⟨result', hone, heq⟩
  rw [(List.cons.inj heq).1] at hone
  exact ⟨result, hone, hitem⟩

end Update

section Divergence

/-- The plan for `letter` from scratch. -/
def letterPlan : List PlanItem :=
  [planItem letterRemote [] .runtime, planItem ⟨js "1.0.0", []⟩ [] .resources]

theorem returns_letter (item : PlanItem) (h : item ∈ letterPlan) :
    Returns letterEnv letterInstall item ⟨Disk.bare, []⟩ := by
  refine ⟨settles_of_followable letterEnv letterInstall (fun _ _ _ _ _ _ _ _ => rfl) item _, ?_⟩
  intro ss hss
  rcases List.mem_cons.mp h with rfl | h
  · have hstaged : (stageItem letterEnv letterInstall (planItem letterRemote [] .runtime)
        ⟨Disk.bare, []⟩).2 = .ok [⟨letterFile "a",
          [js "C:", js "MzzPlork", js "downloads", js "runtime", js "a"],
          [js "C:", js "MzzPlork", js "runtime", js "a"]⟩] := rfl
    rw [← Except.ok.inj (hstaged.symm.trans hss)]
    rfl
  · rw [List.mem_singleton.mp h] at hss
    rw [← Except.ok.inj hss]
    rfl

end Divergence

end Bootstrapper

end MzzPlork

import MzzPlork.Theory.Bystander

/-!
# Joined Paths

Where a file is looked for whose path the guard lets through.

The second look at the unchanged files joins their paths to the target
directory, and the guard resolves them. For a path that names a drive the two
differ by a name that the former takes the drive for. Still the file is looked
for in a place that no other component's item works in: both walks of the guard
end below their directories, which leaves the third one little room.

## Theorems

* `splitRoot_device`: A path that names a drive.
* `place_of_safePaths`: Where a file is looked for.
* `not_ownDir_of_safePaths`: That is not where other items work.
-/

namespace MzzPlork

namespace Bootstrapper

theorem splitRoot_device (s device : JsString) (hdev : (splitRoot s).1.device = some device)
    (hroot : (splitRoot s).1.rooted = false) : ∃ c rest, s = c :: 58 :: rest ∧
      isLetter c = true ∧ (splitRoot s).2 = rest := by
  match s with
  | [] => exact absurd hdev (by simp only [splitRoot, reduceCtorEq, not_false_eq_true])
  | [_] => exact absurd hdev (by simp only [splitRoot, reduceCtorEq, not_false_eq_true])
  | c :: e :: rest =>
      simp only [splitRoot] at hdev hroot ⊢
      by_cases hsep : (jsPath.isSep c && jsPath.isSep e) = true
      · rw [if_pos hsep] at hdev hroot
        cases hshare : splitShare rest with
        | none =>
            rw [hshare] at hroot
            exact Bool.noConfusion hroot
        | some share =>
            rw [hshare] at hroot
            exact Bool.noConfusion hroot
      · rw [if_neg hsep] at hdev hroot ⊢
        by_cases hletter : (isLetter c && e = 58) = true
        · rw [if_pos hletter]
          rcases Bool.and_eq_true_iff.mp hletter with ⟨hc, he⟩
          exact ⟨c, rest, by rw [of_decide_eq_true he], hc, rfl⟩
        · rw [if_neg hletter] at hdev
          exact absurd hdev (by simp only [reduceCtorEq, not_false_eq_true])

/-- The name a path that names a drive begins with, to `path.join`. -/
theorem components_device (c : UInt16) (rest : JsString) (hc : isLetter c = true) :
    ∃ c₁ cs, jsPath.components rest = c₁ :: cs ∧
      jsPath.components (c :: 58 :: rest) = (c :: 58 :: c₁) :: cs ∧
      jsPath.IsName (c :: 58 :: c₁) := by
  have hsep : jsPath.isSep c = false := by
    by_contra hnot
    rw [Bool.not_eq_false] at hnot
    rcases Bool.or_eq_true_iff.mp hnot with h | h <;>
    · rw [of_decide_eq_true h] at hc
      exact absurd hc (by decide)
  rcases List.exists_cons_of_ne_nil (jsPath.components_ne_nil rest) with ⟨c₁, cs, hcs⟩
  refine ⟨c₁, cs, hcs, ?_, ?_⟩
  · rw [PathSyntax.components] at hcs ⊢
    rw [List.splitOnP_cons_eq_if_modifyHead, List.splitOnP_cons_eq_if_modifyHead, hcs,
      if_neg (by rw [hsep]; exact Bool.false_ne_true), if_neg (by decide)]
    rfl
  · refine ⟨List.cons_ne_nil _ _, fun h => ?_, fun h => ?_⟩
    · exact List.cons_ne_nil _ _ (List.cons.inj h).2
    · exact absurd (List.cons.inj (List.cons.inj h).2).1 (by decide)

section Places

variable (env : NodeEnv) (install : Install) (component : Component)

/-- Two walks that start over at one part of the root and the next, and end up
    with the same names behind it: those names are repeated from there on. -/
theorem repeat_of_takes (root ns rest : JsLoc) (name sub : JsString) (k : Nat) (hk : 2 ≤ k)
    (hfinal : root.take (max 1 (root.length - k)) ++ ns = root ++ name :: rest)
    (hstaging : root.take (max 1 (root.length + 1 - k)) ++ ns = root ++ sub :: name :: rest) :
    root.take (max 1 (root.length + 2 - k)) ++ ns = root ++ sub :: sub :: name :: rest := by
  have hlen := congrArg List.length hfinal
  have hlen' := congrArg List.length hstaging
  simp only [List.length_append, List.length_take, List.length_cons] at hlen hlen'
  -- The root is long enough for all three walks.
  have hdeep : 1 ≤ root.length - k := by omega
  rw [show max 1 (root.length - k) = root.length - k by omega] at hfinal
  rw [show max 1 (root.length + 1 - k) = root.length - k + 1 by omega] at hstaging
  rw [show max 1 (root.length + 2 - k) = root.length - k + 2 by omega]
  have hsplit := List.take_append_drop (root.length - k) root
  have hhead : (root.take (root.length - k)).length = root.length - k := by
    rw [List.length_take]
    omega
  have htail : (root.drop (root.length - k)).length = k := by
    rw [List.length_drop]
    omega
  generalize root.take (root.length - k) = head at hsplit hhead hfinal
  rcases hrest : root.drop (root.length - k) with _ | ⟨y, _ | ⟨z, tail⟩⟩
  · rw [hrest, List.length_nil] at htail
    omega
  · rw [hrest, List.length_singleton] at htail
    omega
  · rw [hrest] at hsplit
    have htake : ∀ m, root.take (root.length - k + m) = head ++ (y :: z :: tail).take m := by
      intro m
      rw [← hhead, ← hsplit, List.take_length_add_append]
    have hns : ns = y :: z :: tail ++ name :: rest := by
      rw [← hsplit, List.append_assoc, List.append_right_inj] at hfinal
      exact hfinal
    rw [htake, ← hsplit, List.append_assoc, List.append_assoc, List.append_right_inj, hns]
      at hstaging
    rw [htake, ← hsplit, List.append_assoc, List.append_assoc, List.append_right_inj, hns]
    simp only [List.take_succ_cons, List.take_zero, List.cons_append, List.nil_append,
      List.cons.injEq, true_and] at hstaging ⊢
    -- One name less on the left, one `sub` more on the right.
    rcases hstaging with ⟨rfl, hstaging⟩
    have hshift : y :: tail = tail ++ [sub] := by
      refine (List.append_left_inj (name :: rest)).mp ?_
      rw [List.cons_append, hstaging, List.append_assoc, List.singleton_append]
    rw [hstaging, ← List.cons_append, hshift, List.append_assoc, List.singleton_append]

/-- A path from a drive, walked by the guard and by `path.join`: what is looked
    for lies in the target directory, or where the file is staged, or in a place
    below `downloads` that belongs to nobody. -/
theorem place_of_walks (root : JsLoc) (hroot : root ≠ []) (name sub c₁ x : JsString)
    (cs : List JsString) (rest : JsLoc)
    (hfinal : jsPath.resolve (jsPath.descend (root ++ [name]) c₁) cs = root ++ name :: rest)
    (hstaging : jsPath.resolve (jsPath.descend (root ++ [sub, name]) c₁) cs
      = root ++ sub :: name :: rest) :
    root ++ [name] <+: jsPath.resolve (root ++ [name, x]) cs ∨
      jsPath.resolve (root ++ [name, x]) cs = root ++ sub :: name :: rest ∨
      jsPath.resolve (root ++ [name, x]) cs = root ++ sub :: sub :: name :: rest := by
  rcases jsPath.exists_climb cs with ⟨k, ns, hwalk⟩
  have hpos := List.length_pos_of_ne_nil hroot
  have hplace := hwalk (root ++ [name, x]) (List.append_ne_nil_of_left_ne_nil hroot _)
  simp only [List.length_append, List.length_cons, List.length_nil] at hplace
  rw [hplace]
  by_cases hk : k ≤ 1
  -- The walk does not climb out of the target directory.
  · refine Or.inl (List.IsPrefix.trans ?_ (List.prefix_append _ _))
    rw [show root ++ [name, x] = root ++ [name] ++ [x] by rw [List.append_assoc]; rfl,
      List.take_append, List.take_of_length_le (by
        simp only [List.length_append, List.length_singleton]; omega)]
    exact List.prefix_append _ _
  -- It does, and starts over at some part of the root.
  have hshort : ∀ (t : JsLoc) m, m ≤ root.length → (root ++ t).take m = root.take m :=
    fun t m hm => List.take_append_of_le_length hm
  rw [hshort _ _ (by omega)]
  have hne : ∀ t : JsLoc, root ++ t ≠ [] := fun t => List.append_ne_nil_of_left_ne_nil hroot t
  have hlen : ¬ (root ++ [name]).length ≤ 1 := by
    simp only [List.length_append, List.length_singleton]
    omega
  have hlen' : ¬ (root ++ [sub, name]).length ≤ 1 := by
    simp only [List.length_append, List.length_cons, List.length_nil]
    omega
  rw [PathSyntax.descend] at hfinal hstaging
  by_cases hstay : c₁ = [] ∨ c₁ = [jsPath.dot]
  -- The staging directory is as deep as the name is that the drive is taken for.
  · rw [if_pos hstay, hwalk _ (hne _)] at hstaging
    simp only [List.length_append, List.length_cons, List.length_nil] at hstaging
    rw [hshort _ _ (by omega)] at hstaging
    exact Or.inr (Or.inl hstaging)
  rw [if_neg hstay] at hfinal hstaging
  by_cases hup : c₁ = [jsPath.dot, jsPath.dot]
  · rw [if_pos hup, if_neg hlen, List.dropLast_concat, hwalk root hroot] at hfinal
    have hsub : (root ++ [sub, name]).dropLast = root ++ [sub] := by
      rw [show root ++ [sub, name] = root ++ [sub] ++ [name] by rw [List.append_assoc]; rfl,
        List.dropLast_concat]
    rw [if_pos hup, if_neg hlen', hsub, hwalk _ (hne _)] at hstaging
    simp only [List.length_append, List.length_singleton] at hstaging
    rw [hshort _ _ (by omega)] at hstaging
    exact Or.inr (Or.inr (repeat_of_takes root ns rest name sub k (by omega) hfinal hstaging))
  -- Behind a name the place is that of the final path.
  · rw [if_neg hup, List.append_assoc, hwalk _ (hne _)] at hfinal
    simp only [List.length_append, List.length_cons, List.length_nil] at hfinal
    rw [hshort _ _ (by omega)] at hfinal
    rw [hfinal]
    exact Or.inl ⟨rest, by rw [List.append_assoc]; rfl⟩

/-- Where a file is looked for whose path starts over at a drive. -/
theorem place_of_drive (path device : JsString) (hdev : (splitRoot path).1.device = some device)
    (hroot : (splitRoot path).1.rooted = false) (rest : JsLoc) (hne : rest ≠ [])
    (hfinal : jsPath.resolve (device :: (targetDirPath install.appDataRoot component).tail)
      (jsPath.components (splitRoot path).2) = install.appDataRoot ++ [component.name] ++ rest)
    (hstaging : jsPath.resolve (device :: (downloadsPath install.appDataRoot component).tail)
      (jsPath.components (splitRoot path).2)
        = install.appDataRoot ++ [js "downloads", component.name] ++ rest) :
    targetDirPath install.appDataRoot component
        <+: pathJoin (targetDirPath install.appDataRoot component) path ∨
      Inside (downloadsPath install.appDataRoot component)
        (pathJoin (targetDirPath install.appDataRoot component) path) ∨
      install.appDataRoot ++ [js "downloads", js "downloads"]
        <+: pathJoin (targetDirPath install.appDataRoot component) path := by
  rcases List.exists_cons_of_ne_nil install.absolute with ⟨x, xs, hx⟩
  -- The walk ends below the target directory, so its drive is spelled the same.
  have hsame : device = x := by
    have hhead := jsPath.head?_resolve (jsPath.components (splitRoot path).2) device
      (targetDirPath install.appDataRoot component).tail
    rw [hfinal, hx] at hhead
    exact (Option.some.inj hhead).symm
  have hwalk : device :: (targetDirPath install.appDataRoot component).tail
      = install.appDataRoot ++ [component.name] := by
    rw [targetDirPath, hx, hsame]
    rfl
  have hwalk' : device :: (downloadsPath install.appDataRoot component).tail
      = install.appDataRoot ++ [js "downloads", component.name] := by
    rw [downloadsPath, hx, hsame]
    rfl
  rcases splitRoot_device _ device hdev hroot with ⟨c, tail, rfl, hletter, htail⟩
  rcases components_device c tail hletter with ⟨c₁, cs, hcs, hjoined, hname⟩
  rw [htail, hcs, hwalk] at hfinal
  rw [htail, hcs, hwalk'] at hstaging
  have hplace : pathJoin (targetDirPath install.appDataRoot component) (c :: 58 :: tail)
      = jsPath.resolve (install.appDataRoot ++ [component.name, c :: 58 :: c₁]) cs := by
    rw [pathJoin, hjoined, targetDirPath]
    change jsPath.resolve (jsPath.descend _ _) cs = _
    rw [jsPath.descend_name _ _ hname, List.append_assoc]
    rfl
  rw [hplace]
  rcases place_of_walks install.appDataRoot install.absolute component.name (js "downloads")
    c₁ (c :: 58 :: c₁) cs rest (hfinal.trans (by rw [List.append_assoc]; rfl))
    (hstaging.trans (by rw [List.append_assoc]; rfl)) with hp | hp | hp
  · exact Or.inl hp
  · refine Or.inr (Or.inl ⟨rest, hne, ?_⟩)
    rw [hp, downloadsPath, List.append_assoc]
    rfl
  · refine Or.inr (Or.inr ⟨component.name :: rest, ?_⟩)
    rw [hp, List.append_assoc]
    rfl

/-- Where a file is looked for whose path the guard lets through. -/
theorem place_of_safePaths (file : FileEntry) (staged : Staged)
    (h : safePaths env install component file = .ok staged) :
    targetDirPath install.appDataRoot component
        <+: pathJoin (targetDirPath install.appDataRoot component) file.path ∨
      Inside (downloadsPath install.appDataRoot component)
        (pathJoin (targetDirPath install.appDataRoot component) file.path) ∨
      install.appDataRoot ++ [js "downloads", js "downloads"]
        <+: pathJoin (targetDirPath install.appDataRoot component) file.path := by
  rcases exists_rest_of_safePaths env install component file staged h with ⟨rest, hne, hf, hs⟩
  rcases safePaths_ok env install component file staged h with ⟨_, hfinal, hstaging⟩
  rcases resolveSafePath_ok _ _ _ _ hfinal with ⟨hfinal, hfin⟩
  rcases resolveSafePath_ok _ _ _ _ hstaging with ⟨hstaging, hsin⟩
  -- The two walks do not lead to one place.
  have hapart : staged.finalPath ≠ staged.stagingPath := fun heq =>
    downloadsPath_apart install component component staged.finalPath hfin (heq ▸ hsin)
  rcases List.exists_cons_of_ne_nil install.absolute with ⟨x, xs, hx⟩
  rw [pathResolve] at hfinal hstaging
  rcases hdev : (splitRoot file.path).1.device with _ | device
  · simp only [hdev] at hfinal hstaging
    by_cases hroot : (splitRoot file.path).1.rooted = true
    · have hsame : (targetDirPath install.appDataRoot component).take 1
          = (downloadsPath install.appDataRoot component).take 1 := by
        rw [targetDirPath, downloadsPath, hx]
        rfl
      rw [if_pos hroot, hsame] at hfinal
      rw [if_pos hroot] at hstaging
      exact absurd (hfinal.symm.trans hstaging) hapart
    · rw [if_neg hroot, splitRoot_relative _ hdev] at hfinal
      refine Or.inl ?_
      rw [pathJoin, hfinal]
      exact hfin.below
  · simp only [hdev] at hfinal hstaging
    by_cases hroot : (splitRoot file.path).1.rooted = true
    · rw [if_pos hroot] at hfinal hstaging
      exact absurd (hfinal.symm.trans hstaging) hapart
    · have hdrive : onDrive (downloadsPath install.appDataRoot component) device
          = onDrive (targetDirPath install.appDataRoot component) device := by
        rw [onDrive, onDrive, targetDirPath, downloadsPath, hx]
        rfl
      rw [if_neg hroot] at hfinal hstaging
      rw [hdrive] at hstaging
      by_cases hon : onDrive (targetDirPath install.appDataRoot component) device = true
      · rw [if_pos hon, hf, targetDirPath] at hfinal
        rw [if_pos hon, hs, downloadsPath] at hstaging
        exact place_of_drive install component file.path device hdev (Bool.eq_false_iff.mpr hroot)
          rest hne hfinal hstaging
      · rw [if_neg hon] at hfinal hstaging
        exact absurd (hfinal.symm.trans hstaging) hapart

/-- No other component's item works there. -/
theorem not_ownDir_of_safePaths (file : FileEntry) (staged : Staged)
    (h : safePaths env install component file = .ok staged) (c' : Component)
    (hne : c' ≠ component) :
    ¬ OwnDir install c' (pathJoin (targetDirPath install.appDataRoot component) file.path) := by
  generalize hl : pathJoin (targetDirPath install.appDataRoot component) file.path = l
  rcases place_of_safePaths env install component file staged h with hp | hp | hp <;>
    rw [hl] at hp
  · rcases hp with ⟨t, rfl⟩
    have hnext : targetDirPath install.appDataRoot component ++ t
        = install.appDataRoot ++ component.name :: t := by
      rw [targetDirPath, List.append_assoc]
      rfl
    rintro (halong | halong)
    · exact hne (name_inj c' component
        (next_of_along install.appDataRoot _ component.name c'.name [] t hnext halong))
    · exact name_ne_downloads component (next_of_along install.appDataRoot _ component.name
        (js "downloads") [c'.name] t hnext halong).symm
  · exact apart_of_inside component c' hne l (Or.inr hp)
  · rcases hp with ⟨t, rfl⟩
    rw [List.append_assoc]
    rintro (halong | halong)
    · exact name_ne_downloads c' (next_of_along install.appDataRoot _ (js "downloads") c'.name []
        (js "downloads" :: t) rfl halong)
    · refine name_ne_downloads c' (next_of_along (install.appDataRoot ++ [js "downloads"])
        (install.appDataRoot ++ ([js "downloads", js "downloads"] ++ t)) (js "downloads") c'.name []
        t ?_ ?_)
      · rw [List.append_assoc]
        rfl
      · rw [downloadsPath] at halong
        rw [List.append_assoc]
        exact halong

end Places

end Bootstrapper

end MzzPlork

import MzzPlork.Base.LexPath

/-!
# File Trees

A disk as the programs see it through their file system calls.

A tree maps locations to nodes, and a node is a file with a content or a
directory with a list of names. The laws of a real file system are fields:
the root is a directory, whatever exists lies in a directory, and a directory
lists what lies in it. They are what makes a call fail where the operating
system would make it fail, and no operation can leave them broken. In
particular nothing lies below a file, so replacing or removing a file never
takes anything else with it, and only an empty directory can be removed.

`Disk` puts a journal next to the tree. Every call that changes the tree
writes down where, files and directories apart. A statement such as "this run
wrote nothing outside that directory" is about the journal, since a file that
is created and deleted again leaves no trace in the tree. `Evolves` says that
the journal is honest: what was not written down did not change.

## Main definitions

* `Node`: A file with its content, or a directory.
* `Tree`: Nodes by location, with their laws.
* `Disk`: A tree with the journal of its changes.
* `Disk.mkdirs`: Creation of a chain of directories.
* `Disk.write`: Creation or replacement of a file.
* `Disk.remove`: Deletion of a file.
* `Disk.erase`: Deletion of a file or of an empty directory.
* `Disk.rename`: Moving a file, over an existing one if need be.
* `Disk.Evolves`: One disk came from another by journalled changes.
* `Disk.Confined`: The journalled changes lie in known places.
* `Disk.FileStep`: What one file's comings and goings respect.
* `Disk.Staged`: A change of one file alone.
* `Disk.spine`: The disk with one directory and what it lies in.
* `Disk.clear`: No file lies on the way to a location.

## Theorems

* `isDir_dropLast`: What exists lies in a directory.
* `isDir_of_prefix`: What a directory lies in is a directory.
* `Confined.left`: What holds of all changes holds of the earlier ones.
* `content_write`: Reading after a write.
* `content_remove`, `content_erase`: Reading after a deletion.
* `erase_above`: A directory with something below it stays.
* `content_rename`: Reading after a move.
* `content_mkdirs`: Making directories changes no file.
* `isDir_mkdirs`: A chain that was made is there.
* `mkdirs_inits`: What the making of a way comes to.
* `writable_mkdirs`, `rename_mkdirs`: When a file can be written or moved behind
  a way that is made for it.
* `write_eq_some`: When a file can be written.
* `rename_eq_some`: When a file can be moved.
* `confined_remove`, `confined_erase`, `confined_write`, `confined_rename`,
  `confined_mkdirs`: Where each operation can change the tree.
* `mkdirs_parents`: Only a file keeps the way to a path from being made.
-/

namespace MzzPlork

/-- What a location holds. -/
inductive Node (β : Type) where
  | file (content : β)
  | dir

/-- A file system: nodes by location, and the names in each directory. -/
structure Tree (ν β : Type) where
  node : Loc ν → Option (Node β)
  names : Loc ν → List ν
  root : node [] = some .dir
  parent : ∀ l, l ≠ [] → node l ≠ none → node l.dropLast = some .dir
  listed : ∀ l x, x ∈ names l ↔ node (l ++ [x]) ≠ none

/-- A tree with the journal of what was done to it: `made` lists the
    directories created, `touched` the files created, overwritten, renamed
    (both ends) and removed, and the directories removed. -/
structure Disk (ν β : Type) where
  tree : Tree ν β
  made : List (Loc ν)
  touched : List (Loc ν)

namespace Disk

variable {ν β : Type}

/-- The disk with nothing on it but its root. -/
def bare : Disk ν β where
  tree := { node := fun
              | [] => some .dir
              | _ :: _ => none
            names := fun _ => []
            listed := fun l x => by
              cases l <;> exact iff_of_false List.not_mem_nil (not_not_intro rfl)
            root := rfl
            parent := fun l hl hn => by
              cases l with
              | nil => exact absurd rfl hl
              | cons => exact absurd rfl hn }
  made := []
  touched := []

/-- The content of the file at a location, if there is a file. -/
def content (d : Disk ν β) (l : Loc ν) : Option β :=
  match d.tree.node l with
  | some (.file c) => some c
  | _ => none

/-- Whether a location holds a directory. -/
def isDir (d : Disk ν β) (l : Loc ν) : Bool :=
  match d.tree.node l with
  | some .dir => true
  | _ => false

/-- Whether a location holds anything. -/
def occupied (d : Disk ν β) (l : Loc ν) : Bool := (d.tree.node l).isSome

theorem isDir_iff (d : Disk ν β) (l : Loc ν) :
    d.isDir l = true ↔ d.tree.node l = some .dir := by
  rw [isDir]
  rcases d.tree.node l with _ | _ | _ <;>
    simp only [reduceCtorEq, Bool.false_eq_true, Option.some.injEq]

theorem content_eq_some (d : Disk ν β) (l : Loc ν) (c : β) :
    d.content l = some c ↔ d.tree.node l = some (.file c) := by
  rw [content]
  rcases d.tree.node l with _ | f | _ <;>
    simp only [reduceCtorEq, Option.some.injEq, Node.file.injEq]

theorem occupied_of_content (d : Disk ν β) (l : Loc ν) (c : β) (h : d.content l = some c) :
    d.occupied l = true := by
  rw [occupied, (d.content_eq_some l c).mp h]
  rfl

/-- A file is not a directory. -/
theorem isDir_of_content (d : Disk ν β) (l : Loc ν) (c : β) (h : d.content l = some c) :
    d.isDir l = false := by
  rw [isDir, (d.content_eq_some l c).mp h]

theorem content_of_isDir (d : Disk ν β) (l : Loc ν) (h : d.isDir l = true) :
    d.content l = none := by
  rw [content, (d.isDir_iff l).mp h]

/-- What exists lies in a directory. -/
theorem isDir_dropLast (d : Disk ν β) (l : Loc ν) (h : d.occupied l = true) :
    d.isDir l.dropLast = true := by
  rw [isDir_iff]
  by_cases hl : l = []
  · rw [hl]
    exact d.tree.root
  · refine d.tree.parent l hl (fun hn => ?_)
    rw [occupied, hn] at h
    exact absurd h (by simp only [Option.isSome_none, Bool.false_eq_true, not_false_eq_true])

theorem node_ne_dir (d : Disk ν β) (l : Loc ν) (h : d.isDir l = false) :
    d.tree.node l ≠ some .dir := by
  intro hc
  rw [(d.isDir_iff l).mpr hc] at h
  exact Bool.noConfusion h

theorem isDir_of_free (d : Disk ν β) (l : Loc ν) (h : d.occupied l = false) :
    d.isDir l = false := by
  rw [occupied, Option.isSome_eq_false_iff, Option.isNone_iff_eq_none] at h
  rw [isDir, h]

theorem isDir_of_isSome (d : Disk ν β) (l : Loc ν) (h : (d.content l).isSome = true) :
    d.isDir l = false := by
  rcases Option.isSome_iff_exists.mp h with ⟨c, hc⟩
  exact d.isDir_of_content l c hc

theorem isDir_nil (d : Disk ν β) : d.isDir [] = true := (d.isDir_iff []).mpr d.tree.root

/-- The root is a directory, so no file is there. -/
theorem ne_nil_of_isDir_false (d : Disk ν β) (l : Loc ν) (h : d.isDir l = false) : l ≠ [] := by
  intro hl
  rw [hl, isDir_nil] at h
  exact Bool.noConfusion h

/-- What a directory lies in is a directory. -/
theorem isDir_of_prefix (d : Disk ν β) (base l : Loc ν) (h : d.isDir base = true)
    (hl : l <+: base) : d.isDir l = true := by
  rcases hl with ⟨rest, rfl⟩
  induction rest using List.reverseRecOn with
  | nil => rwa [List.append_nil] at h
  -- The induction climbs from `base` one name at a time.
  | append_singleton rest x ih =>
      refine ih ?_
      have hocc : d.occupied (l ++ (rest ++ [x])) = true := by
        rw [occupied, (d.isDir_iff _).mp h]
        rfl
      have hup := d.isDir_dropLast _ hocc
      rwa [← List.append_assoc, List.dropLast_concat] at hup

/-- A directory with a directory below it is not empty. -/
theorem names_ne_nil (d : Disk ν β) (base l : Loc ν) (h : d.isDir base = true)
    (hl : Inside l base) : d.tree.names l ≠ [] := by
  rcases hl with ⟨rest, hne, rfl⟩
  rcases List.exists_cons_of_ne_nil hne with ⟨x, xs, rfl⟩
  have hx : d.isDir (l ++ [x]) = true :=
    d.isDir_of_prefix _ _ h ⟨xs, by rw [List.append_assoc, List.singleton_append]⟩
  refine List.ne_nil_of_mem ((d.tree.listed l x).mpr ?_)
  rw [(d.isDir_iff _).mp hx]
  exact Option.some_ne_none _

/-- Whether there is no file on the way to a location, nor there. -/
def clear (d : Disk ν β) (l : Loc ν) : Bool := l.inits.all (fun i => (d.content i).isNone)

theorem clear_iff (d : Disk ν β) (l : Loc ν) :
    d.clear l = true ↔ ∀ i, i <+: l → d.content i = none := by
  simp only [clear, List.all_eq_true, List.mem_inits, Option.isNone_iff_eq_none]

theorem clear_concat (d : Disk ν β) (l : Loc ν) (x : ν) :
    d.clear (l ++ [x]) = true ↔ d.clear l = true ∧ d.content (l ++ [x]) = none := by
  simp only [clear_iff, List.prefix_concat_iff, or_imp, forall_and, forall_eq, and_comm]

theorem clear_congr (d d' : Disk ν β) (l : Loc ν)
    (h : ∀ i, i <+: l → d'.content i = d.content i) : d'.clear l = d.clear l := by
  rw [Bool.eq_iff_iff, clear_iff, clear_iff]
  exact forall₂_congr (fun i hi => by rw [h i hi])

theorem clear_of_isDir (d : Disk ν β) (l : Loc ν) (h : d.isDir l = true) : d.clear l = true :=
  (d.clear_iff l).mpr (fun i hi => d.content_of_isDir i (d.isDir_of_prefix l i h hi))

/-- Below a file there is nothing, so at the end of a way that is not clear
    there is a file or nothing. -/
theorem occupied_of_not_clear (d : Disk ν β) (l : Loc ν) (h : d.clear l = false) :
    d.occupied l = (d.content l).isSome := by
  rw [occupied, content]
  cases hnode : d.tree.node l with
  | none => rfl
  | some node =>
      cases node with
      | file c => rfl
      | dir =>
          rw [d.clear_of_isDir l ((d.isDir_iff l).mpr hnode)] at h
          exact Bool.noConfusion h

section Spine

variable [DecidableEq ν]

/-- The disk with one directory on it, and the directories it lies in. -/
def spine (base : Loc ν) : Disk ν β where
  tree := { node := fun l => if l <+: base then some .dir else none
            names := fun l => if l <+: base then (base.drop l.length).take 1 else []
            root := if_pos List.nil_prefix
            parent := fun l _ hn => by
              by_cases hl : l <+: base
              · exact if_pos ((List.dropLast_prefix l).trans hl)
              · exact absurd (if_neg hl) hn
            listed := fun l x => by
              by_cases hl : l <+: base
              -- A directory on the way lists the next name only, `base` itself none.
              · rcases hl with ⟨rest, rfl⟩
                rw [if_pos (List.prefix_append l rest), List.drop_left]
                have hiff : l ++ [x] <+: l ++ rest ↔ x ∈ rest.take 1 := by
                  rw [List.prefix_append_right_inj]
                  cases rest with
                  | nil => simp only [List.prefix_nil, List.cons_ne_nil, List.take_nil,
                      List.not_mem_nil]
                  | cons y ys => simp only [List.cons_prefix_cons, List.nil_prefix, and_true,
                      List.take_succ_cons, List.take_zero, List.mem_singleton]
                rw [← hiff]
                by_cases hx : l ++ [x] <+: l ++ rest
                · rw [if_pos hx]
                  exact iff_of_true hx (Option.some_ne_none _)
                · rw [if_neg hx]
                  exact iff_of_false hx (not_not_intro rfl)
              · rw [if_neg hl]
                refine iff_of_false List.not_mem_nil (not_not_intro (if_neg (fun hx => hl ?_)))
                exact (List.prefix_append l [x]).trans hx }
  made := []
  touched := []

theorem isDir_spine (base l : Loc ν) : (spine base : Disk ν β).isDir l = true ↔ l <+: base := by
  rw [isDir_iff]
  change (if l <+: base then some Node.dir else none) = some .dir ↔ _
  by_cases hl : l <+: base
  · rw [if_pos hl]
    exact iff_of_true rfl hl
  · rw [if_neg hl]
    exact iff_of_false (by simp only [reduceCtorEq, not_false_eq_true]) hl

/-- There is no file on it. -/
theorem content_spine (base l : Loc ν) : (spine base : Disk ν β).content l = none := by
  rw [content]
  change (match (if l <+: base then some Node.dir else none : Option (Node β)) with
    | some (.file c) => some c | _ => none) = none
  by_cases hl : l <+: base
  · rw [if_pos hl]
  · rw [if_neg hl]

end Spine

section Journal

/-- One disk came from another by changes that are all in the journal: `ms`
    are the directories made on the way, `ts` the files touched. -/
structure Evolves (d d' : Disk ν β) (ms ts : List (Loc ν)) : Prop where
  made : d'.made = d.made ++ ms
  touched : d'.touched = d.touched ++ ts
  kept : ∀ l, l ∉ ms → l ∉ ts → d'.tree.node l = d.tree.node l
  content : ∀ l, l ∉ ts → d'.content l = d.content l
  isDir : ∀ l, l ∉ ts → d.isDir l = true → d'.isDir l = true

theorem Evolves.refl (d : Disk ν β) : Evolves d d [] [] where
  made := (List.append_nil _).symm
  touched := (List.append_nil _).symm
  kept := fun _ _ _ => rfl
  content := fun _ _ => rfl
  isDir := fun _ _ h => h

theorem Evolves.trans {d d' d'' : Disk ν β} {ms ts ms' ts' : List (Loc ν)}
    (h : Evolves d d' ms ts) (h' : Evolves d' d'' ms' ts') :
    Evolves d d'' (ms ++ ms') (ts ++ ts') where
  made := by rw [h'.made, h.made, List.append_assoc]
  touched := by rw [h'.touched, h.touched, List.append_assoc]
  kept := fun l hm ht => by
    rw [List.mem_append, not_or] at hm ht
    rw [h'.kept l hm.2 ht.2, h.kept l hm.1 ht.1]
  content := fun l ht => by
    rw [List.mem_append, not_or] at ht
    rw [h'.content l ht.2, h.content l ht.1]
  isDir := fun l ht hl => by
    rw [List.mem_append, not_or] at ht
    exact h'.isDir l ht.2 (h.isDir l ht.1 hl)

/-- Every change lies in known places: directories were only made where `M`
    allows it, files only touched where `T` does. -/
def Confined (M T : Loc ν → Prop) (d d' : Disk ν β) : Prop :=
  ∃ ms ts, Evolves d d' ms ts ∧ (∀ l ∈ ms, M l) ∧ (∀ l ∈ ts, T l)

theorem Confined.refl (M T : Loc ν → Prop) (d : Disk ν β) : Confined M T d d :=
  ⟨[], [], Evolves.refl d, fun _ h => absurd h List.not_mem_nil,
    fun _ h => absurd h List.not_mem_nil⟩

theorem Confined.trans {M T : Loc ν → Prop} {d d' d'' : Disk ν β}
    (h : Confined M T d d') (h' : Confined M T d' d'') : Confined M T d d'' := by
  rcases h with ⟨ms, ts, he, hm, ht⟩
  rcases h' with ⟨ms', ts', he', hm', ht'⟩
  refine ⟨ms ++ ms', ts ++ ts', he.trans he', fun l hl => ?_, fun l hl => ?_⟩
  · exact (List.mem_append.mp hl).elim (hm l) (hm' l)
  · exact (List.mem_append.mp hl).elim (ht l) (ht' l)

theorem Confined.mono {M T M' T' : Loc ν → Prop} {d d' : Disk ν β} (h : Confined M T d d')
    (hM : ∀ l, M l → M' l) (hT : ∀ l, T l → T' l) : Confined M' T' d d' := by
  rcases h with ⟨ms, ts, he, hm, ht⟩
  exact ⟨ms, ts, he, fun l hl => hM l (hm l hl), fun l hl => hT l (ht l hl)⟩

/-- The journal is only ever written behind, so what holds of all changes holds
    of the earlier ones. -/
theorem Confined.left {M T M' T' : Loc ν → Prop} {d d' d'' : Disk ν β}
    (h : Confined M T d d'') (h1 : Confined M' T' d d') (h2 : Confined M' T' d' d'') :
    Confined M T d d' := by
  rcases h with ⟨ms, ts, he, hm, ht⟩
  rcases h1 with ⟨ms1, ts1, he1, _, _⟩
  rcases h2 with ⟨ms2, ts2, he2, _, _⟩
  -- Both accounts of the whole change read the same journal.
  have hms := (he1.trans he2).made.symm.trans he.made
  have hts := (he1.trans he2).touched.symm.trans he.touched
  rw [List.append_right_inj] at hms hts
  refine ⟨ms1, ts1, he1, fun l hl => hm l ?_, fun l hl => ht l ?_⟩
  · rw [← hms]
    exact List.mem_append_left ms2 hl
  · rw [← hts]
    exact List.mem_append_left ts2 hl

theorem Confined.content {M T : Loc ν → Prop} {d d' : Disk ν β} (h : Confined M T d d')
    (l : Loc ν) (hl : ¬ T l) : d'.content l = d.content l := by
  rcases h with ⟨_, ts, he, _, ht⟩
  exact he.content l (fun hmem => hl (ht l hmem))

theorem Confined.node {M T : Loc ν → Prop} {d d' : Disk ν β} (h : Confined M T d d')
    (l : Loc ν) (hm : ¬ M l) (ht : ¬ T l) : d'.tree.node l = d.tree.node l := by
  rcases h with ⟨ms, ts, he, hms, hts⟩
  exact he.kept l (fun hmem => hm (hms l hmem)) (fun hmem => ht (hts l hmem))

theorem Confined.isDir {M T : Loc ν → Prop} {d d' : Disk ν β} (h : Confined M T d d')
    (l : Loc ν) (ht : ¬ T l) (hl : d.isDir l = true) : d'.isDir l = true := by
  rcases h with ⟨_, _, he, _, hts⟩
  exact he.isDir l (fun hmem => ht (hts l hmem)) hl

end Journal

section Ops

variable [DecidableEq ν]

/-- The names of a directory after one of them came or went. -/
def relist (xs : List ν) (x : ν) (present : Bool) : List ν :=
  if present then (if x ∈ xs then xs else xs ++ [x]) else xs.filter (· ≠ x)

theorem mem_relist (xs : List ν) (x y : ν) (present : Bool) :
    y ∈ relist xs x present ↔ if y = x then present = true else y ∈ xs := by
  rw [relist]
  cases present with
  | true =>
      by_cases hx : x ∈ xs
      · rw [if_pos rfl, if_pos hx]
        by_cases hy : y = x
        · rw [if_pos hy, hy]
          exact iff_of_true hx rfl
        · rw [if_neg hy]
      · rw [if_pos rfl, if_neg hx, List.mem_append, List.mem_singleton]
        by_cases hy : y = x
        · rw [if_pos hy]
          exact iff_of_true (Or.inr hy) rfl
        · rw [if_neg hy, or_iff_left hy]
  | false =>
      rw [if_neg Bool.false_ne_true, List.mem_filter, decide_eq_true_eq]
      by_cases hy : y = x
      · rw [if_pos hy]
        exact iff_of_false (fun h => h.2 hy) Bool.false_ne_true
      · rw [if_neg hy, and_iff_left hy]

/-- Put a node at a location that holds no directory, or an empty one. A node
    can only be put into a directory. -/
def setNode (t : Tree ν β) (l : Loc ν) (v : Option (Node β)) (hl : l ≠ [])
    (hp : v ≠ none → t.node l.dropLast = some .dir)
    (hd : t.node l ≠ some .dir ∨ t.names l = []) : Tree ν β where
  node := fun i => if i = l then v else t.node i
  names := fun i => if i = l.dropLast then relist (t.names i) (l.getLast hl) v.isSome
    else t.names i
  root := by rw [if_neg hl.symm, t.root]
  parent := fun i hi hv => by
    by_cases hil : i = l
    -- The new node's own directory is not the place itself.
    · rw [if_pos hil] at hv
      rw [hil, if_neg ?_, hp hv]
      intro hc
      have hlen := congrArg List.length hc
      have hpos := List.length_pos_of_ne_nil hl
      rw [List.length_dropLast] at hlen
      omega
    · rw [if_neg hil] at hv
      have hdir := t.parent i hi hv
      rw [if_neg ?_, hdir]
      -- A node below `l` would make `l` a directory with a name in it.
      intro hc
      rw [hc] at hdir
      rcases hd with hd | hd
      · exact hd hdir
      · have hmem := (t.listed l (i.getLast hi)).mpr
          (by rwa [← hc, List.dropLast_append_getLast hi])
        rw [hd] at hmem
        exact List.not_mem_nil hmem
  listed := fun i x => by
    by_cases hi : i = l.dropLast
    -- The directory that holds `l` lists its name if something is put there.
    · rw [if_pos hi, mem_relist]
      by_cases hx : x = l.getLast hl
      · rw [if_pos hx, hi, hx, List.dropLast_append_getLast hl, if_pos rfl, ne_eq,
          ← Option.isNone_iff_eq_none, Bool.not_eq_true, Option.isNone_eq_false_iff]
      · rw [if_neg hx, t.listed, if_neg]
        intro hc
        refine hx ?_
        simp only [← hc, List.getLast_append_singleton]
    · rw [if_neg hi, t.listed, if_neg]
      intro hc
      refine hi ?_
      rw [← hc, List.dropLast_concat]

/-- Create one directory. An existing directory is fine, a file in its place
    or a missing parent is not. -/
def mkdir (d : Disk ν β) (l : Loc ν) : Disk ν β × Bool :=
  if d.isDir l then (d, true)
  else if h : d.occupied l = false ∧ d.isDir l.dropLast = true then
    ({ d with
        tree := setNode d.tree l (some .dir)
          (d.ne_nil_of_isDir_false l (d.isDir_of_free l h.1))
          (fun _ => (d.isDir_iff _).mp h.2)
          (Or.inl (d.node_ne_dir l (d.isDir_of_free l h.1)))
        made := d.made ++ [l] }, true)
  else (d, false)

/-- Create a chain of directories, stopping at the first that fails. -/
def mkdirs (d : Disk ν β) : List (Loc ν) → Disk ν β × Bool
  | [] => (d, true)
  | l :: ls =>
    if (d.mkdir l).2 then (d.mkdir l).1.mkdirs ls else ((d.mkdir l).1, false)

/-- Whether a file can be created or replaced at a location. -/
def Writable (d : Disk ν β) (l : Loc ν) : Prop :=
  d.isDir l.dropLast = true ∧ d.isDir l = false

instance (d : Disk ν β) (l : Loc ν) : Decidable (d.Writable l) := by
  unfold Writable
  infer_instance

/-- Make the file at a location hold `c`. -/
def write (d : Disk ν β) (l : Loc ν) (c : β) : Option (Disk ν β) :=
  if h : d.Writable l then
    some { d with
      tree := setNode d.tree l (some (.file c)) (d.ne_nil_of_isDir_false l h.2)
        (fun _ => (d.isDir_iff _).mp h.1) (Or.inl (d.node_ne_dir l h.2))
      touched := d.touched ++ [l] }
  else none

/-- Delete the file at a location. Nothing happens where there is none. -/
def remove (d : Disk ν β) (l : Loc ν) : Disk ν β × Bool :=
  if h : (d.content l).isSome = true then
    ({ d with
        tree := setNode d.tree l none (d.ne_nil_of_isDir_false l (d.isDir_of_isSome l h))
          (fun hn => absurd rfl hn) (Or.inl (d.node_ne_dir l (d.isDir_of_isSome l h)))
        touched := d.touched ++ [l] }, true)
  else (d, false)

/-- Delete the directory at a location, if it is empty. -/
def rmdir (d : Disk ν β) (l : Loc ν) : Disk ν β × Bool :=
  if h : l ≠ [] ∧ d.isDir l = true ∧ d.tree.names l = [] then
    ({ d with
        tree := setNode d.tree l none h.1 (fun hn => absurd rfl hn) (Or.inr h.2.2)
        touched := d.touched ++ [l] }, true)
  else (d, false)

/-- Delete whatever is at a location, unless it is a directory with something
    in it. -/
def erase (d : Disk ν β) (l : Loc ν) : Disk ν β × Bool :=
  if d.isDir l then d.rmdir l else d.remove l

/-- Move a file, replacing a file already there. The move fails when there is
    nothing to move, when a directory is in the way, or when the target's
    directory is missing. -/
def rename (d : Disk ν β) (src dst : Loc ν) : Option (Disk ν β) :=
  match d.content src with
  | none => none
  | some c => (d.remove src).1.write dst c

section Reading

theorem node_remove (d : Disk ν β) (l i : Loc ν) :
    (d.remove l).1.tree.node i
      = if i = l ∧ (d.content l).isSome then none else d.tree.node i := by
  rw [remove]
  split
  · rename_i h
    change (if i = l then none else d.tree.node i) = _
    simp only [h, and_true]
  · rename_i h
    rw [if_neg (fun hc => h hc.2)]

theorem node_write (d d' : Disk ν β) (l i : Loc ν) (c : β) (h : d.write l c = some d') :
    d'.tree.node i = if i = l then some (.file c) else d.tree.node i := by
  rw [write] at h
  split at h
  · rw [Option.some.injEq] at h
    rw [← h]
    rfl
  · exact absurd h (by simp only [reduceCtorEq, not_false_eq_true])

theorem content_remove (d : Disk ν β) (l i : Loc ν) :
    (d.remove l).1.content i = if i = l then none else d.content i := by
  rw [content, node_remove]
  by_cases hi : i = l
  · subst hi
    rw [if_pos rfl]
    cases hc : d.content i with
    | none =>
        simp only [Option.isSome_none, Bool.false_eq_true, and_false, if_false]
        exact hc
    | some c => simp only [Option.isSome_some, and_self, if_true]
  · rw [if_neg (fun hc => hi hc.1), if_neg hi]
    rfl

theorem isDir_remove (d : Disk ν β) (l i : Loc ν) : (d.remove l).1.isDir i = d.isDir i := by
  rw [isDir, node_remove]
  by_cases hi : i = l ∧ (d.content l).isSome = true
  · rw [if_pos hi]
    rcases Option.isSome_iff_exists.mp hi.2 with ⟨c, hc⟩
    rw [hi.1, d.isDir_of_content l c hc]
  · rw [if_neg hi]
    rfl

theorem node_rmdir (d : Disk ν β) (l i : Loc ν) (h : i ≠ l) :
    (d.rmdir l).1.tree.node i = d.tree.node i := by
  rw [rmdir]
  split
  · exact if_neg h
  · rfl

/-- Deleting a directory deletes no file. -/
theorem content_rmdir (d : Disk ν β) (l i : Loc ν) :
    (d.rmdir l).1.content i = d.content i := by
  by_cases hi : i = l
  · rw [rmdir]
    split
    · rename_i h
      rw [hi, d.content_of_isDir l h.2.1]
      change (match (if l = l then none else d.tree.node l) with
        | some (.file c) => some c | _ => none) = none
      rw [if_pos rfl]
    · rfl
  · rw [content, d.node_rmdir l i hi]
    rfl

theorem content_erase (d : Disk ν β) (l i : Loc ν) :
    (d.erase l).1.content i = if i = l then none else d.content i := by
  rw [erase]
  by_cases hd : d.isDir l = true
  · rw [if_pos hd, content_rmdir]
    by_cases hi : i = l
    · rw [if_pos hi, hi, d.content_of_isDir l hd]
    · rw [if_neg hi]
  · rw [if_neg hd, content_remove]

theorem erase_of_file (d : Disk ν β) (l : Loc ν) (h : d.isDir l = false) :
    d.erase l = d.remove l := by
  rw [erase, if_neg (Bool.not_eq_true _ ▸ h)]

/-- A directory with a directory below it is not deleted. -/
theorem erase_above (d : Disk ν β) (base l : Loc ν) (h : d.isDir base = true)
    (hl : Inside l base) : (d.erase l).1 = d := by
  rw [erase, if_pos (d.isDir_of_prefix base l h hl.below), rmdir,
    dif_neg (fun hc => d.names_ne_nil base l h hl hc.2.2)]

theorem content_write (d d' : Disk ν β) (l i : Loc ν) (c : β) (h : d.write l c = some d') :
    d'.content i = if i = l then some c else d.content i := by
  rw [content, d.node_write d' l i c h]
  by_cases hi : i = l
  · rw [if_pos hi, if_pos hi]
  · rw [if_neg hi, if_neg hi]
    rfl

theorem write_eq_some (d : Disk ν β) (l : Loc ν) (c : β) :
    (∃ d', d.write l c = some d') ↔ d.Writable l := by
  rw [write]
  constructor
  · rintro ⟨d', h⟩
    split at h
    · assumption
    · exact absurd h (by simp only [reduceCtorEq, not_false_eq_true])
  · intro h
    rw [dif_pos h]
    exact ⟨_, rfl⟩

theorem isDir_write (d d' : Disk ν β) (l i : Loc ν) (c : β) (h : d.write l c = some d') :
    d'.isDir i = d.isDir i := by
  rw [isDir, d.node_write d' l i c h]
  by_cases hi : i = l
  · have hw := (d.write_eq_some l c).mp ⟨d', h⟩
    rw [if_pos hi, hi, hw.2]
  · rw [if_neg hi]
    rfl

/-- A move is a removal and a write. -/
theorem exists_of_rename (d d' : Disk ν β) (src dst : Loc ν) (h : d.rename src dst = some d') :
    ∃ c, d.content src = some c ∧ (d.remove src).1.write dst c = some d' := by
  rw [rename] at h
  cases hc : d.content src with
  | none =>
      rw [hc] at h
      exact absurd h (by simp only [reduceCtorEq, not_false_eq_true])
  | some c =>
      rw [hc] at h
      exact ⟨c, rfl, h⟩

theorem content_rename (d d' : Disk ν β) (src dst i : Loc ν) (h : d.rename src dst = some d') :
    d'.content i = if i = dst then d.content src else if i = src then none else d.content i := by
  rcases d.exists_of_rename d' src dst h with ⟨c, hc, hw⟩
  rw [content_write _ d' dst i c hw, content_remove, hc]

/-- A file can be moved wherever a file could be written. -/
theorem rename_eq_some (d : Disk ν β) (src dst : Loc ν) :
    (∃ d', d.rename src dst = some d') ↔ (d.content src).isSome = true ∧ d.Writable dst := by
  rw [rename]
  cases hc : d.content src with
  | none =>
      simp only [reduceCtorEq, exists_false, Option.isSome_none, Bool.false_eq_true, false_and]
  | some c =>
      simp only [write_eq_some, Writable, isDir_remove, Option.isSome_some, true_and]

theorem content_mkdir (d : Disk ν β) (l i : Loc ν) : (d.mkdir l).1.content i = d.content i := by
  rw [mkdir]
  split
  · rfl
  · split
    -- A directory comes where nothing was, so no file is lost.
    · rename_i h
      rw [content]
      change (match (if i = l then some Node.dir else d.tree.node i) with
        | some (.file c) => some c | _ => none) = _
      by_cases hi : i = l
      · rw [if_pos hi, hi]
        have hfree := h.1
        rw [occupied, Option.isSome_eq_false_iff, Option.isNone_iff_eq_none] at hfree
        rw [content, hfree]
      · rw [if_neg hi]
        rfl
    · rfl

/-- A directory that could be made, or was there, is there. -/
theorem isDir_mkdir_self (d : Disk ν β) (l : Loc ν) (h : (d.mkdir l).2 = true) :
    (d.mkdir l).1.isDir l = true := by
  rw [mkdir] at h ⊢
  split
  · assumption
  · rename_i hdir
    rw [if_neg hdir] at h
    split
    · rw [isDir_iff]
      exact if_pos rfl
    · rename_i hfree
      rw [dif_neg hfree] at h
      exact Bool.noConfusion h

theorem isDir_mkdir (d : Disk ν β) (l i : Loc ν) (h : d.isDir i = true) :
    (d.mkdir l).1.isDir i = true := by
  rw [mkdir]
  split
  · exact h
  · split
    · rename_i hdir hfree
      rw [isDir_iff] at h ⊢
      change (if i = l then some Node.dir else d.tree.node i) = some .dir
      by_cases hi : i = l
      · rw [if_pos hi]
      · rw [if_neg hi, h]
    · exact h

/-- A directory is made where nothing is, in a directory. -/
theorem mkdir_ok (d : Disk ν β) (l : Loc ν) (hfree : d.content l = none)
    (hp : d.isDir l.dropLast = true) : (d.mkdir l).2 = true := by
  rw [mkdir]
  split
  · rfl
  · rename_i hdir
    have hocc : d.occupied l = false := by
      rw [occupied]
      rw [content] at hfree
      rw [isDir] at hdir
      -- Neither a directory, in this branch, nor a file is there.
      rcases hn : d.tree.node l with _ | c | _ <;> rw [hn] at hfree hdir
      · rfl
      · exact absurd hfree (by simp only [reduceCtorEq, not_false_eq_true])
      · exact absurd rfl hdir
    rw [dif_pos ⟨hocc, hp⟩]

theorem content_mkdirs (ls : List (Loc ν)) (d : Disk ν β) (i : Loc ν) :
    (d.mkdirs ls).1.content i = d.content i := by
  induction ls generalizing d with
  | nil => rfl
  | cons l ls ih =>
      rw [mkdirs]
      split
      · exact (ih _).trans (d.content_mkdir l i)
      · exact d.content_mkdir l i

theorem isDir_mkdirs_of_isDir (ls : List (Loc ν)) (d : Disk ν β) (i : Loc ν)
    (h : d.isDir i = true) : (d.mkdirs ls).1.isDir i = true := by
  induction ls generalizing d with
  | nil => exact h
  | cons l ls ih =>
      rw [mkdirs]
      split
      · exact ih _ (d.isDir_mkdir l i h)
      · exact d.isDir_mkdir l i h

/-- A chain that was made is there. -/
theorem isDir_mkdirs (ls : List (Loc ν)) (d : Disk ν β) (h : (d.mkdirs ls).2 = true)
    (l : Loc ν) (hl : l ∈ ls) : (d.mkdirs ls).1.isDir l = true := by
  induction ls generalizing d with
  | nil => exact absurd hl List.not_mem_nil
  | cons k ks ih =>
      rw [mkdirs] at h ⊢
      by_cases hk : (d.mkdir k).2 = true
      · rw [if_pos hk] at h ⊢
        rcases List.mem_cons.mp hl with rfl | hl
        -- What was made first is not unmade by the rest of the chain.
        · exact isDir_mkdirs_of_isDir ks _ l (d.isDir_mkdir_self l hk)
        · exact ih _ h hl
      · rw [if_neg hk] at h
        exact Bool.noConfusion h

/-- A directory is made where nothing is. -/
theorem node_mkdir (d : Disk ν β) (l i : Loc ν) (hp : d.isDir l.dropLast = true) :
    (d.mkdir l).1.tree.node i
      = if i = l ∧ d.content l = none then some .dir else d.tree.node i := by
  cases hc : d.content l with
  | some c =>
      have hnode := (d.content_eq_some l c).mp hc
      rw [mkdir, if_neg (by rw [d.isDir_of_content l c hc]; exact Bool.false_ne_true),
        dif_neg (fun h => by rw [d.occupied_of_content l c hc] at h; exact Bool.noConfusion h.1)]
      simp only [reduceCtorEq, and_false, if_false]
  | none =>
      have hself := (isDir_iff _ _).mp (d.isDir_mkdir_self l (d.mkdir_ok l hc hp))
      by_cases hi : i = l
      · rw [if_pos ⟨hi, rfl⟩, hi, hself]
      · rw [if_neg (fun h => hi h.1), mkdir]
        split
        · rfl
        · split
          · exact if_neg hi
          · rfl

theorem mkdirs_append (d : Disk ν β) (ls ks : List (Loc ν)) :
    d.mkdirs (ls ++ ks) = if (d.mkdirs ls).2 then (d.mkdirs ls).1.mkdirs ks else d.mkdirs ls := by
  induction ls generalizing d with
  | nil => rfl
  | cons l ls ih =>
      rw [List.cons_append, mkdirs, mkdirs]
      split
      · exact ih _
      · rfl

/-- The way to a location can be made unless a file is on it, and it is made as
    far as the first file. -/
theorem mkdirs_inits (d : Disk ν β) (l : Loc ν) :
    (d.mkdirs l.inits).2 = d.clear l ∧
    ∀ i, (d.mkdirs l.inits).1.tree.node i
      = if i <+: l ∧ d.clear i = true then some .dir else d.tree.node i := by
  induction l using List.reverseRecOn with
  | nil =>
      have hmade : d.mkdirs ([] : Loc ν).inits = (d, true) := by
        rw [List.inits, mkdirs, mkdir, if_pos d.isDir_nil]
        rfl
      rw [hmade]
      refine ⟨(d.clear_of_isDir [] d.isDir_nil).symm, fun i => ?_⟩
      by_cases hi : i <+: []
      · rw [List.prefix_nil.mp hi, if_pos ⟨List.prefix_refl _, d.clear_of_isDir [] d.isDir_nil⟩,
          d.tree.root]
      · rw [if_neg (fun h => hi h.1)]
  | append_singleton l x ih =>
      rcases ih with ⟨hok, hnode⟩
      have hinits : (l ++ [x]).inits = l.inits ++ [l ++ [x]] := by
        rw [List.inits_append]
        rfl
      rw [hinits, mkdirs_append, hok]
      by_cases hclear : d.clear l = true
      · rw [if_pos hclear, mkdirs]
        -- The last name is made in the directory that has just been made.
        have hparent : (d.mkdirs l.inits).1.isDir (l ++ [x]).dropLast = true := by
          rw [List.dropLast_concat]
          exact isDir_mkdirs l.inits d (hok.trans hclear) l
            ((List.mem_inits _ _).mpr (List.prefix_refl l))
        have hcontent := content_mkdirs l.inits d (l ++ [x])
        have hflag : ((d.mkdirs l.inits).1.mkdir (l ++ [x])).2 = d.clear (l ++ [x]) := by
          rw [Bool.eq_iff_iff, clear_concat, and_iff_right hclear, ← hcontent]
          refine ⟨fun h => ?_, fun h => mkdir_ok _ _ h hparent⟩
          rw [← content_mkdir]
          exact content_of_isDir _ _ (isDir_mkdir_self _ _ h)
        have hlast := fun i => node_mkdir (d.mkdirs l.inits).1 (l ++ [x]) i hparent
        refine ⟨?_, fun i => ?_⟩
        · rw [← hflag]
          split
          · rename_i h
            exact h.symm
          · rename_i h
            exact (Bool.eq_false_iff.mpr h).symm
        · have hstep : (if ((d.mkdirs l.inits).1.mkdir (l ++ [x])).2 = true
              then ((d.mkdirs l.inits).1.mkdir (l ++ [x])).1.mkdirs []
              else (((d.mkdirs l.inits).1.mkdir (l ++ [x])).1, false)).1
              = ((d.mkdirs l.inits).1.mkdir (l ++ [x])).1 := by
            split <;> rfl
          rw [hstep, hlast, hnode, hcontent]
          by_cases hi : i = l ++ [x]
          · have hnot : ¬ l ++ [x] <+: l := fun h => by
              have hlen := h.length_le
              rw [List.length_append, List.length_singleton] at hlen
              omega
            simp only [hi, true_and, List.prefix_refl, clear_concat, hclear, hnot, false_and,
              if_false]
          · simp only [hi, false_and, if_false, List.prefix_concat_iff, false_or]
      · have hnot : ¬ d.clear (l ++ [x]) = true := fun h => hclear ((d.clear_concat l x).mp h).1
        rw [if_neg hclear, hok, Bool.eq_false_iff.mpr hclear, Bool.eq_false_iff.mpr hnot]
        refine ⟨rfl, fun i => ?_⟩
        rw [hnode]
        by_cases hi : i = l ++ [x]
        · rw [hi, if_neg (fun h => hnot h.2), if_neg (fun h => hnot h.2)]
        · simp only [List.prefix_concat_iff, hi, false_or]

/-- Where the way is made, a file can be written unless a directory is there. -/
theorem writable_mkdirs (d : Disk ν β) (dst : Loc ν) (hclear : d.clear dst.dropLast = true) :
    (d.mkdirs dst.dropLast.inits).1.Writable dst ↔ d.isDir dst = false := by
  rcases d.mkdirs_inits dst.dropLast with ⟨hok, hnode⟩
  have hparent := isDir_mkdirs _ d (hok.trans hclear) dst.dropLast
    ((List.mem_inits _ _).mpr (List.prefix_refl _))
  rw [Writable, and_iff_right hparent]
  by_cases hdst : dst = []
  · rw [hdst, isDir_nil, isDir_nil]
  · have hshort : ¬ dst <+: dst.dropLast := fun h => by
      have hlen := h.length_le
      have hpos := List.length_pos_of_ne_nil hdst
      rw [List.length_dropLast] at hlen
      omega
    rw [isDir, hnode, if_neg (fun h => hshort h.1), isDir]

/-- A file can be moved to a place whose way is clear, unless the place is a
    directory. -/
theorem rename_mkdirs (d : Disk ν β) (src dst : Loc ν) (hclear : d.clear dst.dropLast = true) :
    (∃ d', (d.mkdirs dst.dropLast.inits).1.rename src dst = some d') ↔
      (d.content src).isSome = true ∧ d.isDir dst = false := by
  rw [rename_eq_some, content_mkdirs]
  exact and_congr_right (fun _ => d.writable_mkdirs dst hclear)

end Reading

section Confinement

variable (M T : Loc ν → Prop)

theorem confined_remove (d : Disk ν β) (l : Loc ν) (hl : T l) : Confined M T d (d.remove l).1 := by
  by_cases hc : (d.content l).isSome = true
  · refine ⟨[], [l], ⟨?_, ?_, fun i _ hi => ?_, fun i hi => ?_, fun i _ hi => ?_⟩,
      fun _ h => absurd h List.not_mem_nil, fun i hi => ?_⟩
    · rw [remove, dif_pos hc, List.append_nil]
    · rw [remove, dif_pos hc]
    · have hne := List.ne_of_not_mem_cons hi
      rw [node_remove, if_neg (fun h => hne h.1)]
    · rw [content_remove, if_neg (List.ne_of_not_mem_cons hi)]
    · rw [isDir_remove, hi]
    · rw [List.mem_singleton.mp hi]
      exact hl
  · rw [remove, dif_neg hc]
    exact Confined.refl M T d

theorem confined_erase (d : Disk ν β) (l : Loc ν) (hl : T l) : Confined M T d (d.erase l).1 := by
  rw [erase]
  by_cases hd : d.isDir l = true
  · rw [if_pos hd]
    by_cases he : l ≠ [] ∧ d.isDir l = true ∧ d.tree.names l = []
    · refine ⟨[], [l], ⟨?_, ?_, fun i _ hi => ?_, fun i _ => d.content_rmdir l i,
        fun i hi hdir => ?_⟩, fun _ h => absurd h List.not_mem_nil, fun i hi => ?_⟩
      · rw [rmdir, dif_pos he, List.append_nil]
      · rw [rmdir, dif_pos he]
      · exact d.node_rmdir l i (List.ne_of_not_mem_cons hi)
      · rw [isDir_iff] at hdir ⊢
        rw [d.node_rmdir l i (List.ne_of_not_mem_cons hi), hdir]
      · rw [List.mem_singleton.mp hi]
        exact hl
    · rw [rmdir, dif_neg he]
      exact Confined.refl M T d
  · rw [if_neg hd]
    exact confined_remove M T d l hl

theorem confined_write (d d' : Disk ν β) (l : Loc ν) (c : β) (h : d.write l c = some d')
    (hl : T l) : Confined M T d d' := by
  refine ⟨[], [l], ⟨?_, ?_, fun i _ hi => ?_, fun i hi => ?_, fun i _ hi => ?_⟩,
    fun _ h => absurd h List.not_mem_nil, fun i hi => ?_⟩
  · rw [write, dif_pos ((d.write_eq_some l c).mp ⟨d', h⟩), Option.some.injEq] at h
    rw [← h, List.append_nil]
  · rw [write, dif_pos ((d.write_eq_some l c).mp ⟨d', h⟩), Option.some.injEq] at h
    rw [← h]
  · rw [d.node_write d' l i c h, if_neg (List.ne_of_not_mem_cons hi)]
  · rw [d.content_write d' l i c h, if_neg (List.ne_of_not_mem_cons hi)]
  · rw [d.isDir_write d' l i c h, hi]
  · rw [List.mem_singleton.mp hi]
    exact hl

theorem confined_rename (d d' : Disk ν β) (src dst : Loc ν) (h : d.rename src dst = some d')
    (hs : T src) (hd : T dst) : Confined M T d d' := by
  rcases d.exists_of_rename d' src dst h with ⟨c, _, hw⟩
  exact (confined_remove M T d src hs).trans (confined_write M T _ d' dst c hw hd)

theorem confined_mkdir (d : Disk ν β) (l : Loc ν) (hl : d.isDir l = false → M l) :
    Confined M T d (d.mkdir l).1 := by
  have hcont := d.content_mkdir l
  have hdirs := d.isDir_mkdir l
  rw [mkdir] at hcont hdirs ⊢
  split
  · exact Confined.refl M T d
  · rename_i hdir
    rw [if_neg hdir] at hcont hdirs
    split
    · rename_i hfree
      rw [dif_pos hfree] at hcont hdirs
      refine ⟨[l], [], ⟨rfl, (List.append_nil _).symm, fun i hi _ => ?_, fun i _ => hcont i,
        fun i _ => hdirs i⟩, fun i hi => ?_, fun _ h => absurd h List.not_mem_nil⟩
      · exact if_neg (List.ne_of_not_mem_cons hi)
      · rw [List.mem_singleton.mp hi]
        exact hl (Bool.eq_false_iff.mpr hdir)
    · exact Confined.refl M T d

/-- A chain only makes directories of the chain, and only where there was none. -/
theorem confined_mkdirs (ls : List (Loc ν)) (d : Disk ν β)
    (hls : ∀ l ∈ ls, d.isDir l = false → M l) : Confined M T d (d.mkdirs ls).1 := by
  induction ls generalizing d with
  | nil => exact Confined.refl M T d
  | cons l ls ih =>
      have hm := confined_mkdir M T d l (hls l List.mem_cons_self)
      rw [mkdirs]
      split
      · refine hm.trans (ih _ (fun i hi hdir => hls i (List.mem_cons_of_mem l hi) ?_))
        rw [Bool.eq_false_iff]
        intro hd
        rw [d.isDir_mkdir l i hd] at hdir
        exact Bool.noConfusion hdir
      · exact hm

end Confinement

section Steps

/-- A relation between disks that writing and deleting one file respects. What
    is shown to be such a relation holds across any code that touches nothing
    but that file. -/
structure FileStep (l : Loc ν) (Q : Disk ν β → Disk ν β → Prop) : Prop where
  refl : ∀ d, Q d d
  trans : ∀ d d' d'', Q d d' → Q d' d'' → Q d d''
  write : ∀ d d' c, d.write l c = some d' → Q d d'
  remove : ∀ d, Q d (d.remove l).1
  erase : ∀ d, Q d (d.erase l).1

/-- At most the file at one place was changed. -/
def Staged (l : Loc ν) (d d' : Disk ν β) : Prop :=
  Confined (fun _ => False) (fun i => i = l) d d'

theorem fileStep_staged (l : Loc ν) : FileStep l (Staged l : Disk ν β → Disk ν β → Prop) where
  refl := fun d => Confined.refl _ _ d
  trans := fun _ _ _ h h' => h.trans h'
  write := fun d d' c h => confined_write _ _ d d' l c h rfl
  remove := fun d => confined_remove _ _ d l rfl
  erase := fun d => confined_erase _ _ d l rfl

/-- Nothing happens at a directory that has a directory below it. -/
theorem fileStep_above (base l : Loc ν) (hl : Inside l base) :
    FileStep l (fun d d' : Disk ν β => d.isDir base = true → d' = d) where
  refl := fun _ _ => rfl
  trans := fun d d' d'' h h' hd => by
    have heq := h hd
    rw [h' (heq ▸ hd), heq]
  write := fun d d' c h hd => by
    have hw := (d.write_eq_some l c).mp ⟨d', h⟩
    exact absurd ((d.isDir_of_prefix base l hd hl.below).symm.trans hw.2) (by decide)
  remove := fun d hd => by
    have hnone := d.content_of_isDir l (d.isDir_of_prefix base l hd hl.below)
    rw [remove, dif_neg (by rw [hnone]; exact Bool.false_ne_true)]
  erase := fun d hd => d.erase_above base l hd hl

end Steps

end Ops

section Paths

variable {α : Type} [DecidableEq α] (P : PathSyntax α)

/-- The directories of a walk can be made unless a file is among them: each
    step stays, climbs to what exists or descends. -/
theorem mkdirs_scanl (ds : List (List α)) (d : Disk (List α) β) (l : Loc (List α))
    (hl : d.isDir l.dropLast = true)
    (hfree : ∀ i ∈ ds.scanl P.descend l, d.content i = none) :
    (d.mkdirs (ds.scanl P.descend l)).2 = true := by
  induction ds generalizing l d with
  | nil =>
      rw [List.scanl_nil] at hfree ⊢
      rw [mkdirs, if_pos (d.mkdir_ok l (hfree l List.mem_cons_self) hl)]
      rfl
  | cons c cs ih =>
      rw [List.scanl_cons] at hfree ⊢
      have hok := d.mkdir_ok l (hfree l List.mem_cons_self) hl
      have hself := d.isDir_mkdir_self l hok
      rw [mkdirs, if_pos hok]
      have hup : ∀ i, (d.mkdir l).1.isDir i = true → (d.mkdir l).1.isDir i.dropLast = true := by
        intro i hi
        refine (d.mkdir l).1.isDir_dropLast i ?_
        rw [occupied, ((d.mkdir l).1.isDir_iff i).mp hi]
        rfl
      refine ih _ (P.descend l c) ?_ (fun i hi => ?_)
      -- The step stays, climbs to a directory that exists, or descends from one.
      · rcases P.descend_cases l c with h | h | h <;> rw [h]
        · exact hup l hself
        · exact hup _ (hup l hself)
        · rw [List.dropLast_concat]
          exact hself
      · exact (d.content_mkdir l i).trans (hfree i (List.mem_cons_of_mem l hi))

/-- The directories on the way to a path can be made unless a file is among
    them. -/
theorem mkdirs_parents (d : Disk (List α) β) (s : List α)
    (hfree : ∀ l ∈ P.parents s, d.content l = none) : (d.mkdirs (P.parents s)).2 = true := by
  rw [PathSyntax.parents] at hfree ⊢
  cases hd : (P.components s).dropLast with
  | nil => rfl
  | cons r ds =>
      rw [hd] at hfree
      exact mkdirs_scanl P ds d [r] d.isDir_nil hfree

end Paths

end Disk

end MzzPlork

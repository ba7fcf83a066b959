import MzzPlork.Base.KeyedStore
import MzzPlork.Core.CacheService

/-!
# The Cache as a Map

The file cache stays in its directory, and it is a map from keys to data as
long as no two of the keys have the same file.

The name of a file is made from the key, and different keys can come to the
same name: `a/b` and `a_b` share a file, as do the empty key and `_`. The cache
is the store of `Base.KeyedStore` whose names are the file names.

## Main definitions

* `entry`: Where the file with a name lies.
* `Ready`: The cache has been initialised, and its files can be written.
* `mapAfter`: What a sequence of calls makes of a map.
* `ActsAsMap`: What the cache answers after a sequence of calls, and what the
  calls have touched.

## Theorems

* `locate_pathFor`: The file of a key, in the cache directory.
* `ready_initialize`: A cache that was initialised is ready.
* `kept_afterCalls`: The calls change the store as they would a map.
* `actsAsMap_iff`: For which keys the cache is a map.
* `sharedFile`: Two keys for which it is not.
-/

namespace MzzPlork

open KeyedStore

theorem isSep_sanitizeByte (c : UInt8) : winPath.isSep (sanitizeByte c) = false := by
  unfold sanitizeByte
  split
  · rename_i hsafe
    by_contra hsep
    rw [Bool.not_eq_false] at hsep
    -- Neither separator is a safe character.
    rcases Bool.or_eq_true_iff.mp hsep with h | h
    · rw [of_decide_eq_true h] at hsafe
      exact absurd hsafe (by decide)
    · rw [of_decide_eq_true h] at hsafe
      exact absurd hsafe (by decide)
  · rfl

theorem isSep_sanitizeKey (key : Bytes) : ∀ c ∈ sanitizeKey key, winPath.isSep c = false := by
  intro c hc
  unfold sanitizeKey at hc
  by_cases hnil : key.map sanitizeByte = []
  · rw [if_pos hnil] at hc
    rw [List.mem_singleton.mp hc]
    rfl
  · rw [if_neg hnil] at hc
    rcases List.mem_map.mp hc with ⟨c, -, rfl⟩
    exact isSep_sanitizeByte c

namespace FileCacheService

variable (s : FileCacheService)

section Files

/-- The cache directory. -/
def dir : Loc Bytes := winPath.locate s.cacheDir

/-- The file with a name. -/
def entry (name : Bytes) : Loc Bytes := s.dir ++ [name ++ ascii ".cache"]

/-- A key's file lies in the cache directory, whatever the key. -/
theorem locate_pathFor (key : Bytes) :
    winPath.locate (s.pathFor key) = s.entry (sanitizeKey key) := by
  have hsep : ∀ c ∈ sanitizeKey key ++ ascii ".cache", winPath.isSep c = false := by
    intro c hc
    rcases List.mem_append.mp hc with h | h
    · exact isSep_sanitizeKey key c h
    · have hall : (ascii ".cache").all (fun c => !winPath.isSep c) = true := rfl
      exact (Bool.not_eq_true' _).mp (List.all_eq_true.mp hall c h)
  have hname : winPath.IsName (sanitizeKey key ++ ascii ".cache") :=
    winPath.isName_append _ _ (by decide)
  rw [pathFor, locate_joinPath, PathSyntax.components, List.splitOnP_eq_singleton hsep,
    winPath.resolve_names _ _ (List.forall_mem_singleton.mpr hname), entry, dir]

theorem inside_entry (name : Bytes) : Inside s.dir (s.entry name) :=
  inside_append _ _ (List.cons_ne_nil _ _)

theorem entry_inj (name name' : Bytes) : s.entry name = s.entry name' ↔ name = name' := by
  rw [entry, entry, List.append_cancel_left_eq, List.singleton_inj, List.append_cancel_right_eq]

/-- The cache has been initialised and no call fails: its directory is there,
    and no directory lies where a file goes. -/
structure Ready (d : ClientDisk) : Prop where
  dir : d.isDir s.dir = true
  files : ∀ name, d.isDir (s.entry name) = false

theorem Ready.writable {d : ClientDisk} (h : s.Ready d) (name : Bytes) :
    d.Writable (s.entry name) := by
  refine ⟨?_, h.files name⟩
  rw [entry, List.dropLast_concat]
  exact h.dir

/-- The directory is there once `Initialize` has reported success. -/
theorem ready_initialize (appDataRoot reason : Bytes) (d : ClientDisk)
    (hok : (initializeCache appDataRoot reason d).2.2.status = .ok)
    (hfiles : ∀ name, (initializeCache appDataRoot reason d).2.1.isDir
      ((initializeCache appDataRoot reason d).1.entry name) = false) :
    (initializeCache appDataRoot reason d).1.Ready (initializeCache appDataRoot reason d).2.1 := by
  refine ⟨?_, hfiles⟩
  rw [initializeCache] at hok ⊢
  cases hmade : createDirectoryTree d (joinPath appDataRoot (ascii "cache")) with
  | mk d' made =>
      rw [hmade] at hok
      cases made with
      | false => exact absurd hok (by simp only [reduceCtorEq, not_false_eq_true])
      | true =>
          have hmkdirs := Disk.isDir_mkdirs
            (winPath.parents (joinPath (joinPath appDataRoot (ascii "cache")) [])) d
            (congrArg Prod.snd hmade) _ (winPath.locate_mem_parents _ 92 (by decide))
          have hdisk := congrArg Prod.fst hmade
          unfold createDirectoryTree at hdisk
          rwa [hdisk] at hmkdirs

end Files

section Calls

/-- What the cache directory holds, by name. -/
def kept (d : ClientDisk) (name : Bytes) : Option Bytes := d.content (s.entry name)

/-- The entry a call changes, if any. -/
def Call.change : Call → Option (Change Bytes Bytes)
  | .has _ => none
  | .put key data => some (.put key data)
  | .get _ => none
  | .remove key => some (.remove key)

/-- A map after a sequence of calls. -/
def mapAfter (m : Bytes → Option Bytes) (cs : List Call) : Bytes → Option Bytes :=
  (cs.filterMap Call.change).foldl apply m

theorem get_eq_kept (d : ClientDisk) (key : Bytes) : s.get d key = s.kept d (sanitizeKey key) := by
  rw [get, locate_pathFor, kept]

theorem has_eq (d : ClientDisk) (h : s.Ready d) (key : Bytes) :
    s.has d key = (s.get d key).isSome := by
  have hnode := d.node_ne_dir _ (h.files (sanitizeKey key))
  rw [has, get, fsExists, locate_pathFor, Disk.occupied, Disk.content]
  cases hn : d.tree.node (s.entry (sanitizeKey key)) with
  | none => rfl
  | some node =>
      cases node with
      | file c => rfl
      | dir => exact absurd hn hnode

theorem put_eq (d : ClientDisk) (h : s.Ready d) (key data : Bytes) :
    ∃ d', d.write (s.entry (sanitizeKey key)) data = some d' ∧ s.put d key data = (d', true) := by
  rcases (d.write_eq_some _ data).mpr (h.writable s (sanitizeKey key)) with ⟨d', hwrite⟩
  exact ⟨d', hwrite, by rw [put, locate_pathFor, hwrite]⟩

theorem remove_eq (d : ClientDisk) (h : s.Ready d) (key : Bytes) :
    s.remove d key = Disk.remove d (s.entry (sanitizeKey key)) := by
  rw [remove, locate_pathFor, d.erase_of_file _ (h.files _)]

/-- A call leaves the directories as they are. -/
theorem ready_afterCall (d : ClientDisk) (c : Call) (h : s.Ready d) :
    s.Ready (s.afterCall d c) := by
  have hsame : ∀ l, (s.afterCall d c).isDir l = d.isDir l := by
    intro l
    cases c with
    | has key => rfl
    | put key data =>
        rcases s.put_eq d h key data with ⟨d', hwrite, hput⟩
        rw [afterCall, hput, d.isDir_write d' _ l data hwrite]
    | get key => rfl
    | remove key => rw [afterCall, s.remove_eq d h, d.isDir_remove]
  exact ⟨(hsame _).trans h.dir, fun name => (hsame _).trans (h.files name)⟩

/-- A call changes what is kept under the name of its key. -/
theorem kept_afterCall (d : ClientDisk) (c : Call) (h : s.Ready d) :
    s.kept (s.afterCall d c)
      = ((c.change.map (Change.rename sanitizeKey)).toList).foldl apply (s.kept d) := by
  cases c with
  | has key => rfl
  | put key data =>
      rcases s.put_eq d h key data with ⟨d', hwrite, hput⟩
      funext name
      rw [kept, afterCall, hput, d.content_write d' _ _ data hwrite,
        if_congr (s.entry_inj _ _) rfl rfl]
      exact (Function.update_apply (s.kept d) (sanitizeKey key) (some data) name).symm
  | get key => rfl
  | remove key =>
      funext name
      rw [kept, afterCall, s.remove_eq d h, d.content_remove, if_congr (s.entry_inj _ _) rfl rfl]
      exact (Function.update_apply (s.kept d) (sanitizeKey key) none name).symm

theorem kept_afterCalls (cs : List Call) (d : ClientDisk) (h : s.Ready d) :
    s.Ready (s.afterCalls d cs) ∧ s.kept (s.afterCalls d cs)
      = ((cs.filterMap Call.change).map (Change.rename sanitizeKey)).foldl apply (s.kept d) := by
  induction cs generalizing d with
  | nil => exact ⟨h, rfl⟩
  | cons c cs ih =>
      rcases ih _ (s.ready_afterCall d c h) with ⟨hready, hkept⟩
      refine ⟨hready, hkept.trans ?_⟩
      rw [s.kept_afterCall d c h]
      cases hc : c.change with
      | none => rw [List.filterMap_cons_none hc]; rfl
      | some w => rw [List.filterMap_cons_some hc]; rfl

/-- A call touches a file of the cache at most. -/
theorem confined_afterCall (d : ClientDisk) (c : Call) :
    Disk.Confined (fun _ => False) (Inside s.dir) d (s.afterCall d c) := by
  cases c with
  | has key => exact Disk.Confined.refl _ _ d
  | put key data =>
      rw [afterCall, put, locate_pathFor]
      cases hwrite : d.write (s.entry (sanitizeKey key)) data with
      | none => exact Disk.Confined.refl _ _ d
      | some d' => exact Disk.confined_write _ _ d d' _ data hwrite (s.inside_entry _)
  | get key => exact Disk.Confined.refl _ _ d
  | remove key =>
      rw [afterCall, remove, locate_pathFor]
      exact Disk.confined_erase _ _ d _ (s.inside_entry _)

theorem confined_afterCalls (cs : List Call) (d : ClientDisk) :
    Disk.Confined (fun _ => False) (Inside s.dir) d (s.afterCalls d cs) := by
  induction cs generalizing d with
  | nil => exact Disk.Confined.refl _ _ d
  | cons c cs ih => exact (s.confined_afterCall d c).trans (ih _)

end Calls

section Maps

/-- After these calls the cache holds for these keys what a map would, and
    nothing outside its directory was touched. -/
structure ActsAsMap (K : Set Bytes) (d : ClientDisk) (cs : List Call) : Prop where
  get : ∀ key ∈ K, s.get (s.afterCalls d cs) key = mapAfter (s.get d) cs key
  has : ∀ key ∈ K, s.has (s.afterCalls d cs) key = (mapAfter (s.get d) cs key).isSome
  confined : Disk.Confined (fun _ => False) (Inside s.dir) d (s.afterCalls d cs)
  inside : ∀ c ∈ cs, Inside s.dir (winPath.locate (s.pathFor c.key))

theorem get_eq_comp (d : ClientDisk) : s.get d = fun key => s.kept d (sanitizeKey key) :=
  funext (s.get_eq_kept d)

theorem actsAsMap_of_agrees (d : ClientDisk) (h : s.Ready d) (K : Set Bytes) (cs : List Call)
    (hagrees : Agrees sanitizeKey K (s.kept (s.afterCalls d cs)) (mapAfter (s.get d) cs)) :
    s.ActsAsMap K d cs where
  get := fun key hkey => (s.get_eq_kept _ key).trans (hagrees key hkey)
  has := fun key hkey => by
    rw [s.has_eq _ (s.kept_afterCalls cs d h).1, s.get_eq_kept, hagrees key hkey]
  confined := s.confined_afterCalls cs d
  inside := fun c _ => by
    rw [s.locate_pathFor]
    exact s.inside_entry _

/-- The call that makes a change. -/
def callOf : Change Bytes Bytes → Call
  | .put key data => .put key data
  | .remove key => .remove key

theorem change_callOf (w : Change Bytes Bytes) : (callOf w).change = some w := by
  cases w <;> rfl

theorem changes_callOf (ws : List (Change Bytes Bytes)) :
    (ws.map callOf).filterMap Call.change = ws := by
  rw [List.filterMap_map]
  exact (List.filterMap_congr (fun w _ => change_callOf w)).trans List.filterMap_some

/-- A change is to the entry its call is about. -/
theorem key_of_change (c : Call) (w : Change Bytes Bytes) (h : c.change = some w) :
    w.key = c.key := by
  cases c with
  | has key => exact absurd h (by simp only [Call.change, reduceCtorEq, not_false_eq_true])
  | put key data => rw [← Option.some.inj h]; rfl
  | get key => exact absurd h (by simp only [Call.change, reduceCtorEq, not_false_eq_true])
  | remove key => rw [← Option.some.inj h]; rfl

/-- The cache is a map on some keys exactly when no two of them have the same
    file. -/
theorem actsAsMap_iff (d : ClientDisk) (h : s.Ready d) (K : Set Bytes) :
    (∀ cs : List Call, (∀ c ∈ cs, c.key ∈ K) → s.ActsAsMap K d cs) ↔
      Set.InjOn sanitizeKey K := by
  rw [injOn_iff_agrees sanitizeKey K (s.kept d)]
  constructor
  · intro hmap ws hws key hkey
    have hkeys : ∀ c ∈ ws.map callOf, c.key ∈ K := by
      intro c hc
      rcases List.mem_map.mp hc with ⟨w, hw, rfl⟩
      exact key_of_change _ w (change_callOf w) ▸ hws w hw
    have hget := (hmap (ws.map callOf) hkeys).get key hkey
    rwa [s.get_eq_kept, (s.kept_afterCalls _ d h).2, mapAfter, changes_callOf,
      s.get_eq_comp d] at hget
  · intro hagrees cs hcs
    refine s.actsAsMap_of_agrees d h K cs ?_
    rw [(s.kept_afterCalls cs d h).2, mapAfter, s.get_eq_comp d]
    refine hagrees _ (fun w hw => ?_)
    rcases List.mem_filterMap.mp hw with ⟨c, hc, hchange⟩
    exact key_of_change c w hchange ▸ hcs c hc

/-- A key that is a file name already is its own name. -/
theorem sanitizeKey_of_safe (key : Bytes) (hne : key ≠ [])
    (h : ∀ c ∈ key, sanitizeByte c = c) : sanitizeKey key = key := by
  have hmap : key.map sanitizeByte = key := (List.map_congr_left h).trans (List.map_id key)
  rw [sanitizeKey, hmap]
  exact if_neg hne

/-- Of such keys no two have the same file. -/
theorem injOn_safe :
    Set.InjOn sanitizeKey {key | key ≠ [] ∧ ∀ c ∈ key, sanitizeByte c = c} := by
  rintro key ⟨hne, hsafe⟩ key' ⟨hne', hsafe'⟩ hname
  rwa [sanitizeKey_of_safe key hne hsafe, sanitizeKey_of_safe key' hne' hsafe'] at hname

end Maps

section Shared

/-- An empty cache directory and nothing else is a cache that is ready. -/
theorem ready_spine : s.Ready (Disk.spine s.dir) where
  dir := (Disk.isDir_spine _ _).mpr (List.prefix_refl _)
  files := fun name => by
    rw [Bool.eq_false_iff, ne_eq, Disk.isDir_spine, entry]
    intro h
    have hlen := h.length_le
    rw [List.length_append, List.length_singleton] at hlen
    omega

def shippedCache : FileCacheService := ⟨ascii "C:\\MzzPlork\\cache"⟩

/-- Two keys with a file each, one of which is not spelt like its key. -/
def shippedKeys : Set Bytes := {ascii "manifest", ascii "maps/harbor"}

theorem injOn_shippedKeys : Set.InjOn sanitizeKey shippedKeys := by
  rintro key (rfl | rfl) key' (rfl | rfl) hname
  · rfl
  · exact absurd hname (by decide)
  · exact absurd hname (by decide)
  · rfl

theorem actsAsMap_manifest :
    shippedCache.ActsAsMap shippedKeys (Disk.spine shippedCache.dir)
      [.put (ascii "manifest") (ascii "hello world"), .put (ascii "maps/harbor") (ascii "x"),
        .remove (ascii "manifest"), .has (ascii "maps/harbor")] :=
  (shippedCache.actsAsMap_iff _ shippedCache.ready_spine shippedKeys).mpr injOn_shippedKeys _
    (List.forall_mem_cons.mpr ⟨Or.inl rfl, List.forall_mem_cons.mpr ⟨Or.inr rfl,
      List.forall_mem_cons.mpr ⟨Or.inl rfl, List.forall_mem_singleton.mpr (Or.inr rfl)⟩⟩⟩)

/-- What is stored under `a/b` is found under `a_b`. -/
theorem sharedFile : ¬ ∀ (s : FileCacheService) (d : ClientDisk), s.Ready d →
    ∀ cs : List Call, s.ActsAsMap Set.univ d cs := by
  intro h
  have hready := shippedCache.ready_spine
  have hget := (h shippedCache _ hready [.put (ascii "a/b") (ascii "x")]).get (ascii "a_b")
    (Set.mem_univ _)
  have hname : sanitizeKey (ascii "a_b") = sanitizeKey (ascii "a/b") := by decide
  rw [get_eq_kept, hname, (shippedCache.kept_afterCalls _ _ hready).2] at hget
  -- The file of both keys has been written, and the map has no such key.
  have hfound := apply_key (shippedCache.kept (Disk.spine shippedCache.dir))
    (.put (sanitizeKey (ascii "a/b")) (ascii "x"))
  have hmissing := apply_of_ne (shippedCache.get (Disk.spine shippedCache.dir))
    (.put (ascii "a/b") (ascii "x")) (ascii "a_b") (by decide)
  exact Option.some_ne_none _ ((hfound.symm.trans hget).trans
    (hmissing.trans (Disk.content_spine _ _)))

end Shared

end FileCacheService

end MzzPlork

import Mathlib.Data.List.Sort

/-!
# Ordered Finite Maps

A finite map that is walked in key order, as `std::map` is.

The map is a lookup function next to the list of its keys. The list is what a
range-based loop visits, so it has to be sorted and has to name exactly the
keys the function answers for; both facts are fields, and every operation
re-establishes them once. A caller then reasons about `find` alone and only
looks at `keys` when a loop runs over the map.

## Main definitions

* `OrdMap`: A sorted key list with a lookup function over it.
* `OrdMap.insert`: Assignment through `operator[]`.
* `OrdMap.modify`: In-place change of a value already present.

## Theorems

* `OrdMap.nodup_keys`: No key is visited twice.
* `OrdMap.mem_keys_of_find`: A key with a value is visited.
* `OrdMap.find_insert`: Reading back after an assignment.
* `OrdMap.find_modify`: Reading back after a change in place.
* `OrdMap.isSome_find_insertAll`, `OrdMap.find_insertAll_cases`: Reading back after a list of
  assignments.
-/

namespace MzzPlork

/-- A finite map whose keys are visited in increasing order. -/
structure OrdMap (κ α : Type) [LT κ] where
  keys : List κ
  find : κ → Option α
  sorted : keys.Pairwise (· < ·)
  mem_keys : ∀ k, k ∈ keys ↔ (find k).isSome = true

namespace OrdMap

section Basic

variable {κ α : Type} [LT κ]

/-- The map with no entries. -/
def empty : OrdMap κ α where
  keys := []
  find := fun _ => none
  sorted := List.Pairwise.nil
  mem_keys := fun k => by simp only [List.not_mem_nil, Option.isSome_none, Bool.false_eq_true]

theorem mem_keys_of_find (m : OrdMap κ α) (k : κ) (v : α) (h : m.find k = some v) :
    k ∈ m.keys := by
  rw [m.mem_keys, h]
  rfl

/-- A strictly sorted list visits nothing twice. -/
theorem nodup_keys [LE κ] [Std.LawfulOrderLT κ] (m : OrdMap κ α) : m.keys.Nodup := by
  refine m.sorted.imp (fun hlt heq => ?_)
  rw [heq] at hlt
  exact Std.lt_irrefl hlt

/-- Change the value stored at a key, if there is one. -/
def modify [DecidableEq κ] (m : OrdMap κ α) (k : κ) (f : α → α) : OrdMap κ α where
  keys := m.keys
  find := fun i => if i = k then (m.find i).map f else m.find i
  sorted := m.sorted
  mem_keys := fun i => by
    rw [m.mem_keys]
    by_cases hi : i = k
    · rw [if_pos hi, Option.isSome_map]
    · rw [if_neg hi]

theorem find_modify [DecidableEq κ] (m : OrdMap κ α) (k i : κ) (f : α → α) :
    (m.modify k f).find i = if i = k then (m.find i).map f else m.find i := rfl

@[simp] theorem find_modify_self [DecidableEq κ] (m : OrdMap κ α) (k : κ) (f : α → α) :
    (m.modify k f).find k = (m.find k).map f := by
  rw [find_modify, if_pos rfl]

theorem find_modify_of_ne [DecidableEq κ] (m : OrdMap κ α) (k i : κ) (f : α → α) (h : i ≠ k) :
    (m.modify k f).find i = m.find i := by
  rw [find_modify, if_neg h]

end Basic

section Ordered

variable {κ α : Type} [LE κ] [LT κ] [Std.IsLinearOrder κ] [Std.LawfulOrderLT κ]
  [DecidableLE κ]

/-- Inserting a key that is not there yet keeps a strictly sorted list
    strictly sorted: the insertion sorts weakly, and the new key is new. -/
theorem pairwise_orderedInsert (k : κ) (ks : List κ) (hs : ks.Pairwise (· < ·)) (hk : k ∉ ks) :
    (ks.orderedInsert (· ≤ ·) k).Pairwise (· < ·) := by
  induction ks with
  | nil => exact List.pairwise_singleton _ _
  | cons a as ih =>
      have hne : k ≠ a := fun hc => hk (hc ▸ List.mem_cons_self)
      have hkas : k ∉ as := fun hc => hk (List.mem_cons_of_mem a hc)
      rcases List.pairwise_cons.mp hs with ⟨ha, has⟩
      by_cases hle : k ≤ a
      · rw [List.orderedInsert_cons_of_le (· ≤ ·) _ hle]
        have hlt : k < a := Std.lt_of_le_of_ne hle hne
        refine List.pairwise_cons.mpr ⟨fun b hb => ?_, hs⟩
        rcases List.mem_cons.mp hb with rfl | hb
        · exact hlt
        · exact Std.lt_trans hlt (ha b hb)
      · rw [List.orderedInsert_of_not_le (· ≤ ·) _ hle]
        refine List.pairwise_cons.mpr ⟨fun b hb => ?_, ih has hkas⟩
        rcases (List.mem_orderedInsert (· ≤ ·)).mp hb with rfl | hb
        · exact Std.not_le.mp hle
        · exact ha b hb

variable [DecidableEq κ]

/-- Assignment through `operator[]`: a new key is slotted into place, an old
    one keeps its place and takes the new value. -/
def insert (m : OrdMap κ α) (k : κ) (v : α) : OrdMap κ α where
  keys := if k ∈ m.keys then m.keys else m.keys.orderedInsert (· ≤ ·) k
  find := fun i => if i = k then some v else m.find i
  sorted := by
    by_cases hk : k ∈ m.keys
    · rw [if_pos hk]
      exact m.sorted
    · rw [if_neg hk]
      exact pairwise_orderedInsert k m.keys m.sorted hk
  mem_keys := fun i => by
    by_cases hi : i = k
    · subst hi
      rw [if_pos rfl]
      by_cases hk : i ∈ m.keys
      · rw [if_pos hk]
        simp only [hk, Option.isSome_some]
      · rw [if_neg hk]
        simp only [List.mem_orderedInsert, true_or, Option.isSome_some]
    · rw [if_neg hi, ← m.mem_keys]
      by_cases hk : k ∈ m.keys
      · rw [if_pos hk]
      · rw [if_neg hk, List.mem_orderedInsert]
        simp only [hi, false_or]

theorem find_insert (m : OrdMap κ α) (k i : κ) (v : α) :
    (m.insert k v).find i = if i = k then some v else m.find i := rfl

/-- Assigning a list of entries one after the other into a map. -/
def insertAll (m : OrdMap κ α) (es : List (κ × α)) : OrdMap κ α :=
  es.foldl (fun acc e => acc.insert e.1 e.2) m

/-- An assigned key is there, whatever is assigned behind it. -/
theorem isSome_find_insertAll (m : OrdMap κ α) (es : List (κ × α)) (k : κ)
    (h : (m.find k).isSome = true ∨ k ∈ es.map Prod.fst) :
    ((m.insertAll es).find k).isSome = true := by
  induction es generalizing m with
  | nil => exact h.resolve_right List.not_mem_nil
  | cons e es ih =>
      refine ih (m.insert e.1 e.2) ?_
      rw [find_insert]
      by_cases hk : k = e.1
      · rw [if_pos hk]
        exact Or.inl rfl
      · rw [if_neg hk]
        exact h.imp_right (fun hmem => (List.mem_cons.mp hmem).resolve_left hk)

/-- What a map holds after a list of assignments is from the last assignment to
    that key, or from before. -/
theorem find_insertAll_cases (m : OrdMap κ α) (es : List (κ × α)) (k : κ) (v : α)
    (h : (m.insertAll es).find k = some v) :
    (∃ pre post, es = pre ++ (k, v) :: post ∧ ∀ e ∈ post, e.1 ≠ k) ∨
      (m.find k = some v ∧ ∀ e ∈ es, e.1 ≠ k) := by
  induction es generalizing m with
  | nil => exact Or.inr ⟨h, fun _ he => absurd he List.not_mem_nil⟩
  | cons e es ih =>
      rcases ih (m.insert e.1 e.2) h with ⟨pre, post, heq, hpost⟩ | ⟨hfind, hes⟩
      · exact Or.inl ⟨e :: pre, post, by rw [heq, List.cons_append], hpost⟩
      · rw [find_insert] at hfind
        by_cases hk : k = e.1
        · rw [if_pos hk, Option.some.injEq] at hfind
          exact Or.inl ⟨[], es, by rw [hk, ← hfind, List.nil_append], hes⟩
        · rw [if_neg hk] at hfind
          refine Or.inr ⟨hfind, fun i hi => ?_⟩
          rcases List.mem_cons.mp hi with rfl | hi
          · exact fun heq => hk heq.symm
          · exact hes i hi

end Ordered

end OrdMap

end MzzPlork

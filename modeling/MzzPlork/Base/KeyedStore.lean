import Mathlib.Data.Set.Function
import Mathlib.Logic.Function.Basic

/-!
# Maps Kept Under Renamed Keys

A store that holds its entries under other names than it is asked for.

The names are made from the keys by a function, and the entries are kept under
them. Whoever only knows the keys expects a map from keys to values. What he
gets is one as long as no two of his keys have the same name, and only then:
if two of them do, storing or removing the one changes the other.

## Main definitions

* `Change`: Storing or removing an entry.
* `apply`: What it does to a map.
* `Change.rename`: The same change under another name.
* `Agrees`: A store that looks like a map on some keys.

## Theorems

* `agrees_apply`, `agrees_foldl`: A change, and a run of changes, keep it so.
* `injOn_iff_agrees`: A store is a map on some keys exactly when their names
  are distinct.
-/

namespace MzzPlork

namespace KeyedStore

variable {κ ν β : Type}

/-- A change of one entry. -/
inductive Change (κ β : Type) where
  | put (key : κ) (value : β)
  | remove (key : κ)

namespace Change

/-- The key of the entry. -/
def key : Change κ β → κ
  | .put k _ => k
  | .remove k => k

/-- What the entry becomes. -/
def value : Change κ β → Option β
  | .put _ v => some v
  | .remove _ => none

/-- The same change under another name. -/
def rename (f : κ → ν) : Change κ β → Change ν β
  | .put k v => .put (f k) v
  | .remove k => .remove (f k)

@[simp] theorem key_rename (f : κ → ν) (w : Change κ β) : (w.rename f).key = f w.key := by
  cases w <;> rfl

@[simp] theorem value_rename (f : κ → ν) (w : Change κ β) : (w.rename f).value = w.value := by
  cases w <;> rfl

end Change

/-- A map after a change of one entry. -/
def apply [DecidableEq κ] (m : κ → Option β) (w : Change κ β) : κ → Option β :=
  Function.update m w.key w.value

@[simp] theorem apply_key [DecidableEq κ] (m : κ → Option β) (w : Change κ β) :
    apply m w w.key = w.value := Function.update_self _ _ _

theorem apply_of_ne [DecidableEq κ] (m : κ → Option β) (w : Change κ β) (k : κ) (h : k ≠ w.key) :
    apply m w k = m k := Function.update_of_ne h _ _

/-- A renamed change is seen under the new name. -/
theorem apply_rename [DecidableEq ν] (f : κ → ν) (s : ν → Option β) (w : Change κ β) :
    apply s (w.rename f) (f w.key) = w.value := by
  rw [apply, Change.key_rename, Change.value_rename, Function.update_self]

/-- On these keys the store looks like the map. -/
def Agrees (f : κ → ν) (K : Set κ) (s : ν → Option β) (m : κ → Option β) : Prop :=
  ∀ k ∈ K, s (f k) = m k

/-- A change that a second key of the same name makes visible: the entry is
    removed if there is one, and stored otherwise. -/
theorem exists_change [Nonempty β] (f : κ → ν) (s : ν → Option β) (k : κ) :
    ∃ w : Change κ β, w.key = k ∧ w.value ≠ s (f k) := by
  cases hs : s (f k) with
  | none =>
      rcases ‹Nonempty β› with ⟨v⟩
      exact ⟨.put k v, rfl, Option.some_ne_none v⟩
  | some v => exact ⟨.remove k, rfl, (Option.some_ne_none v).symm⟩

section Runs

variable [DecidableEq κ] [DecidableEq ν] (f : κ → ν) (K : Set κ)

theorem agrees_apply (hf : Set.InjOn f K) (s : ν → Option β) (m : κ → Option β)
    (w : Change κ β) (hw : w.key ∈ K) (h : Agrees f K s m) :
    Agrees f K (apply s (w.rename f)) (apply m w) := by
  intro k hk
  by_cases heq : k = w.key
  · rw [heq, apply_key, apply_rename]
  -- Another key has another name, so neither side has changed there.
  · have hne : f k ≠ (w.rename f).key := by
      rw [Change.key_rename]
      exact fun hname => heq (hf hk hw hname)
    rw [apply_of_ne _ _ _ hne, apply_of_ne _ _ _ heq, h k hk]

theorem agrees_foldl (hf : Set.InjOn f K) (ws : List (Change κ β)) (s : ν → Option β)
    (m : κ → Option β) (hws : ∀ w ∈ ws, w.key ∈ K) (h : Agrees f K s m) :
    Agrees f K ((ws.map (Change.rename f)).foldl apply s) (ws.foldl apply m) := by
  induction ws generalizing s m with
  | nil => exact h
  | cons w ws ih =>
      rcases List.forall_mem_cons.mp hws with ⟨hw, hrest⟩
      exact ih _ _ hrest (agrees_apply f K hf s m w hw h)

/-- One change shows whether two keys have the same name. -/
theorem injOn_of_agrees [Nonempty β] (s : ν → Option β)
    (h : ∀ w : Change κ β, w.key ∈ K →
      Agrees f K (apply s (w.rename f)) (apply (fun k => s (f k)) w)) : Set.InjOn f K := by
  intro k hk k' hk' hname
  by_contra hne
  rcases exists_change f s k with ⟨w, hkey, hvalue⟩
  have hagree := h w (hkey ▸ hk) k' hk'
  have hother : k' ≠ w.key := fun heq => hne (hkey.symm.trans heq.symm)
  rw [← hname, ← hkey, apply_rename, apply_of_ne _ _ _ hother] at hagree
  exact hvalue (hname ▸ hagree)

/-- A store is a map on some keys exactly when their names are distinct. -/
theorem injOn_iff_agrees [Nonempty β] (s : ν → Option β) :
    Set.InjOn f K ↔ ∀ ws : List (Change κ β), (∀ w ∈ ws, w.key ∈ K) →
      Agrees f K ((ws.map (Change.rename f)).foldl apply s)
        (ws.foldl apply (fun k => s (f k))) := by
  constructor
  · exact fun hf ws hws => agrees_foldl f K hf ws s _ hws (fun _ _ => rfl)
  · exact fun h => injOn_of_agrees f K s (fun w hw => h [w] (List.forall_mem_singleton.mpr hw))

end Runs

end KeyedStore

end MzzPlork

import Mathlib.Data.Set.Function
import Mathlib.Logic.Function.Basic

/-!
# Tables Kept by Updates

A table of entries under keys, changed one entry at a time.

An update names a key and says what its entry becomes, from what it was. The
same table is often kept a second time somewhere else, under other keys and
with other values: `Pictures` says that one table is the picture of another.
Updates that do the same to both keep it a picture, as long as the keys in use
stay apart.

## Main definitions

* `Update`, `apply`: A change of one entry.
* `Pictures`: A table that is the image of another.
* `Matches`: Two updates that do the same.

## Theorems

* `pictures_apply`: Matching updates keep the picture.
* `Pictures.eq_some_iff`: What the image holds.
-/

namespace MzzPlork

namespace Entries

variable {κ ν β γ : Type}

/-- A change of one entry. -/
structure Update (κ β : Type) where
  key : κ
  entry : Option β → Option β

/-- The table after an update. -/
def apply [DecidableEq κ] (t : κ → Option β) (w : Update κ β) : κ → Option β :=
  Function.update t w.key (w.entry (t w.key))

theorem apply_key [DecidableEq κ] (t : κ → Option β) (w : Update κ β) :
    apply t w w.key = w.entry (t w.key) := Function.update_self _ _ _

theorem apply_of_ne [DecidableEq κ] (t : κ → Option β) (w : Update κ β) (k : κ)
    (h : k ≠ w.key) : apply t w k = t k := Function.update_of_ne h _ _

section Pictures

variable (K : Set κ) (f : κ → ν) (g : κ → β → γ)

/-- One table is the image of the other: the entries of the keys in use, under
    their names, and no entry besides. -/
structure Pictures (t : κ → Option β) (s : ν → Option γ) : Prop where
  entry : ∀ k ∈ K, s (f k) = (t k).map (g k)
  only : ∀ n, (s n).isSome = true → ∃ k ∈ K, f k = n

/-- The same change, made to the image. -/
structure Matches (w : Update κ β) (v : Update ν γ) : Prop where
  key : v.key = f w.key
  entry : ∀ b, v.entry (b.map (g w.key)) = (w.entry b).map (g w.key)

variable {K f g}

theorem pictures_empty : Pictures K f g (fun _ => none) (fun _ => none) where
  entry := fun _ _ => rfl
  only := fun _ h => Bool.noConfusion h

/-- Matching updates keep the picture. -/
theorem pictures_apply [DecidableEq κ] [DecidableEq ν] (hf : Set.InjOn f K)
    {t : κ → Option β} {s : ν → Option γ} {w : Update κ β} {v : Update ν γ}
    (h : Pictures K f g t s) (hw : w.key ∈ K) (hm : Matches f g w v) :
    Pictures K f g (apply t w) (apply s v) where
  entry := fun k hk => by
    by_cases heq : k = w.key
    · rw [heq, ← hm.key, apply_key, apply_key, hm.key, h.entry w.key hw, hm.entry]
    -- Another key has another name, so neither side has changed there.
    · rw [apply_of_ne t w k heq, apply_of_ne s v (f k) (fun hname => heq (hf hk hw
        (hname.trans hm.key))), h.entry k hk]
  only := fun n hn => by
    by_cases heq : n = v.key
    · exact ⟨w.key, hw, hm.key.symm.trans heq.symm⟩
    · rw [apply_of_ne s v n heq] at hn
      exact h.only n hn

/-- An entry of the image is that of a key in use. -/
theorem Pictures.eq_some_iff {t : κ → Option β} {s : ν → Option γ} (h : Pictures K f g t s)
    (n : ν) (c : γ) : s n = some c ↔ ∃ k ∈ K, f k = n ∧ ∃ b, t k = some b ∧ g k b = c := by
  constructor
  · intro hs
    rcases h.only n (by rw [hs]; rfl) with ⟨k, hk, rfl⟩
    rw [h.entry k hk] at hs
    rcases Option.map_eq_some_iff.mp hs with ⟨b, hb, hc⟩
    exact ⟨k, hk, rfl, b, hb, hc⟩
  · rintro ⟨k, hk, rfl, b, hb, rfl⟩
    rw [h.entry k hk, hb]
    rfl

end Pictures

end Entries

end MzzPlork

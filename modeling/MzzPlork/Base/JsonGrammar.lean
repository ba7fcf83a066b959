import MzzPlork.Core.Json

/-!
# A Grammar of JSON Texts

Which byte strings spell which JSON values. How strings and numbers are
spelt, what counts as white space and how repeated keys are resolved differ
from one dialect to the next, and are a parameter.

The grammar has three kinds of phrases: a value, the items of a non-empty
array and the members of a non-empty object. They are the index of one
inductive predicate, so that a proof about all texts is one induction.

## Main definitions

* `Lexicon`: What a dialect leaves to fill in.
* `Phrase`: What a text can stand for.
* `Spells`: The grammar.

## Theorems

* `Spells.mono`: A more liberal dialect has more texts.
* `Spells.append_closed`: What holds of the pieces holds of the texts.
* `Spells.forall_mem`: A set of bytes that contains the punctuation and all
  strings, numbers and white space contains the texts.
* `Spells.ne_nil`: No value has an empty text.
-/

namespace MzzPlork

variable {σ ν : Type}

/-- What the grammar leaves open. -/
structure Lexicon (σ ν : Type) where
  /-- What stands between the quotes of a string. -/
  literal : σ → List UInt8 → Prop
  numeral : ν → List UInt8 → Prop
  space : UInt8 → Prop
  /-- The object with the given members. -/
  object : List (σ × Json σ ν) → List (σ × Json σ ν)

/-- What a text can stand for. -/
inductive Phrase (σ ν : Type) where
  | value (v : Json σ ν)
  | items (vs : List (Json σ ν))
  | members (fields : List (σ × Json σ ν))

/-- A run of white space. -/
def Lexicon.Blank (L : Lexicon σ ν) (w : List UInt8) : Prop := ∀ b ∈ w, L.space b

theorem Lexicon.blank_nil (L : Lexicon σ ν) : L.Blank [] := fun _ hb => absurd hb List.not_mem_nil

theorem Lexicon.blank_append {L : Lexicon σ ν} {w w' : List UInt8} (hw : L.Blank w)
    (hw' : L.Blank w') : L.Blank (w ++ w') := List.forall_mem_append.mpr ⟨hw, hw'⟩

/-- A byte string spells a phrase. White space is allowed around items and
    around the parts of a member. -/
inductive Spells (L : Lexicon σ ν) : Phrase σ ν → List UInt8 → Prop where
  | null : Spells L (.value .null) [110, 117, 108, 108]
  | true : Spells L (.value (.bool Bool.true)) [116, 114, 117, 101]
  | false : Spells L (.value (.bool Bool.false)) [102, 97, 108, 115, 101]
  | num (n : ν) (t : List UInt8) (ht : L.numeral n t) : Spells L (.value (.num n)) t
  | str (s : σ) (t : List UInt8) (ht : L.literal s t) : Spells L (.value (.str s)) (34 :: t ++ [34])
  | emptyArr (w : List UInt8) (hw : L.Blank w) : Spells L (.value (.arr [])) (91 :: w ++ [93])
  | arr (vs : List (Json σ ν)) (t : List UInt8) (ht : Spells L (.items vs) t) :
      Spells L (.value (.arr vs)) (91 :: t ++ [93])
  | emptyObj (w : List UInt8) (hw : L.Blank w) :
      Spells L (.value (.obj (L.object []))) (123 :: w ++ [125])
  | obj (fields : List (σ × Json σ ν)) (t : List UInt8) (ht : Spells L (.members fields) t) :
      Spells L (.value (.obj (L.object fields))) (123 :: t ++ [125])
  | item (v : Json σ ν) (w t w' : List UInt8) (hw : L.Blank w) (ht : Spells L (.value v) t)
      (hw' : L.Blank w') : Spells L (.items [v]) (w ++ t ++ w')
  | items (v : Json σ ν) (vs : List (Json σ ν)) (w t w' ts : List UInt8) (hw : L.Blank w)
      (ht : Spells L (.value v) t) (hw' : L.Blank w') (hts : Spells L (.items vs) ts) :
      Spells L (.items (v :: vs)) (w ++ t ++ w' ++ 44 :: ts)
  | member (k : σ) (v : Json σ ν) (u : List UInt8) (kt : List UInt8) (u' w t w' : List UInt8)
      (hu : L.Blank u) (hk : L.literal k kt) (hu' : L.Blank u') (hw : L.Blank w)
      (ht : Spells L (.value v) t) (hw' : L.Blank w') :
      Spells L (.members [(k, v)]) (u ++ (34 :: kt ++ [34]) ++ u' ++ 58 :: (w ++ t ++ w'))
  | members (k : σ) (v : Json σ ν) (fields : List (σ × Json σ ν)) (u : List UInt8)
      (kt : List UInt8) (u' w t w' ts : List UInt8) (hu : L.Blank u) (hk : L.literal k kt)
      (hu' : L.Blank u') (hw : L.Blank w) (ht : Spells L (.value v) t) (hw' : L.Blank w')
      (hts : Spells L (.members fields) ts) :
      Spells L (.members ((k, v) :: fields))
        (u ++ (34 :: kt ++ [34]) ++ u' ++ 58 :: (w ++ t ++ w') ++ 44 :: ts)

namespace Spells

/-- Without white space. -/
theorem item_compact {L : Lexicon σ ν} {v : Json σ ν} {t : List UInt8}
    (ht : Spells L (.value v) t) :
    Spells L (.items [v]) t := by
  have h := Spells.item v [] t [] L.blank_nil ht L.blank_nil
  rwa [List.nil_append, List.append_nil] at h

theorem items_compact {L : Lexicon σ ν} {v : Json σ ν} {vs : List (Json σ ν)} {t ts : List UInt8}
    (ht : Spells L (.value v) t) (hts : Spells L (.items vs) ts) :
    Spells L (.items (v :: vs)) (t ++ 44 :: ts) := by
  have h := Spells.items v vs [] t [] ts L.blank_nil ht L.blank_nil hts
  rwa [List.nil_append, List.append_nil] at h

theorem member_compact {L : Lexicon σ ν} {k : σ} {v : Json σ ν} {kt t : List UInt8}
    (hk : L.literal k kt) (ht : Spells L (.value v) t) :
    Spells L (.members [(k, v)]) (34 :: kt ++ [34, 58] ++ t) := by
  have h := Spells.member k v [] kt [] [] t [] L.blank_nil hk L.blank_nil L.blank_nil ht L.blank_nil
  simpa only [List.nil_append, List.append_nil, List.append_assoc, List.cons_append] using h

theorem members_compact {L : Lexicon σ ν} {k : σ} {v : Json σ ν} {fields : List (σ × Json σ ν)}
    {kt t ts : List UInt8} (hk : L.literal k kt) (ht : Spells L (.value v) t)
    (hts : Spells L (.members fields) ts) :
    Spells L (.members ((k, v) :: fields)) (34 :: kt ++ [34, 58] ++ t ++ 44 :: ts) := by
  have h := Spells.members k v fields [] kt [] [] t [] ts L.blank_nil hk L.blank_nil L.blank_nil ht
    L.blank_nil hts
  simpa only [List.nil_append, List.append_nil, List.append_assoc, List.cons_append] using h

/-- White space in front belongs to the first item, or to the first member. -/
theorem items_blank {L : Lexicon σ ν} {vs : List (Json σ ν)} {w t : List UInt8} (hw : L.Blank w)
    (h : Spells L (.items vs) t) : Spells L (.items vs) (w ++ t) := by
  cases h with
  | item v u t u' hu ht hu' =>
      have h := Spells.item v (w ++ u) t u' (Lexicon.blank_append hw hu) ht hu'
      rwa [List.append_assoc w, List.append_assoc w] at h
  | items v vs u t u' ts hu ht hu' hts =>
      have h := Spells.items v vs (w ++ u) t u' ts (Lexicon.blank_append hw hu) ht hu' hts
      rwa [List.append_assoc w, List.append_assoc w, List.append_assoc w] at h

theorem members_blank {L : Lexicon σ ν} {fields : List (σ × Json σ ν)} {w t : List UInt8}
    (hw : L.Blank w) (h : Spells L (.members fields) t) :
    Spells L (.members fields) (w ++ t) := by
  cases h with
  | member k v u kt u' x t x' hu hk hu' hx ht hx' =>
      have h := Spells.member k v (w ++ u) kt u' x t x' (Lexicon.blank_append hw hu) hk hu' hx ht
        hx'
      rwa [List.append_assoc w, List.append_assoc w, List.append_assoc w] at h
  | members k v fields u kt u' x t x' ts hu hk hu' hx ht hx' hts =>
      have h := Spells.members k v fields (w ++ u) kt u' x t x' ts (Lexicon.blank_append hw hu) hk
        hu' hx ht hx' hts
      rwa [List.append_assoc w, List.append_assoc w, List.append_assoc w, List.append_assoc w] at h

theorem mono {L M : Lexicon σ ν} (hl : ∀ s t, L.literal s t → M.literal s t)
    (hn : ∀ n t, L.numeral n t → M.numeral n t) (hs : ∀ b, L.space b → M.space b)
    (ho : L.object = M.object) {p : Phrase σ ν} {t : List UInt8} (h : Spells L p t) :
    Spells M p t := by
  have hblank : ∀ w, L.Blank w → M.Blank w := fun w hw b hb => hs b (hw b hb)
  induction h with
  | null => exact Spells.null
  | true => exact Spells.true
  | false => exact Spells.false
  | num n t ht => exact Spells.num n t (hn n t ht)
  | str s t ht => exact Spells.str s t (hl s t ht)
  | emptyArr w hw => exact Spells.emptyArr w (hblank w hw)
  | arr vs t ht ih => exact Spells.arr vs t ih
  | emptyObj w hw =>
      rw [ho]
      exact Spells.emptyObj w (hblank w hw)
  | obj fields t ht ih =>
      rw [ho]
      exact Spells.obj fields t ih
  | item v w t w' hw ht hw' ih => exact Spells.item v w t w' (hblank w hw) ih (hblank w' hw')
  | items v vs w t w' ts hw ht hw' hts ih ihs =>
      exact Spells.items v vs w t w' ts (hblank w hw) ih (hblank w' hw') ihs
  | member k v u kt u' w t w' hu hk hu' hw ht hw' ih =>
      exact Spells.member k v u kt u' w t w' (hblank u hu) (hl k kt hk) (hblank u' hu')
        (hblank w hw) ih (hblank w' hw')
  | members k v fields u kt u' w t w' ts hu hk hu' hw ht hw' hts ih ihs =>
      exact Spells.members k v fields u kt u' w t w' ts (hblank u hu) (hl k kt hk) (hblank u' hu')
        (hblank w hw) ih (hblank w' hw') ihs

/-- The bytes the grammar itself puts into a text. -/
def punctuation : List UInt8 :=
  [110, 117, 108, 116, 114, 101, 102, 97, 115, 34, 91, 93, 123, 125, 44, 58]

/-- What holds of the pieces of a text and is kept where they are put together. -/
theorem append_closed {L : Lexicon σ ν} (S : List UInt8 → Prop) (hnil : S [])
    (happ : ∀ t t', S t → S t' → S (t ++ t')) (hp : ∀ b ∈ punctuation, S [b])
    (hl : ∀ s t, L.literal s t → S t) (hn : ∀ n t, L.numeral n t → S t)
    (hs : ∀ b, L.space b → S [b]) {p : Phrase σ ν} {t : List UInt8} (h : Spells L p t) : S t := by
  have hcons : ∀ b t, b ∈ punctuation → S t → S (b :: t) := fun b t hb ht =>
    happ [b] t (hp b hb) ht
  -- White space, the words and the keys are put together from bytes.
  have hblank : ∀ w, L.Blank w → S w := by
    intro w hw
    induction w with
    | nil => exact hnil
    | cons b w ih =>
        exact happ [b] w (hs b (hw b List.mem_cons_self))
          (ih (fun x hx => hw x (List.mem_cons_of_mem b hx)))
  have hword : ∀ t : List UInt8, t.all punctuation.contains = Bool.true → S t := by
    intro t ht
    induction t with
    | nil => exact hnil
    | cons b t ih =>
        rw [List.all_cons, Bool.and_eq_true] at ht
        exact hcons b t (List.contains_iff_mem.mp ht.1) (ih ht.2)
  have hkey : ∀ k kt, L.literal k kt → S (34 :: kt ++ [34]) := fun k kt hk =>
    hcons 34 _ (by decide) (happ _ _ (hl k kt hk) (hp 34 (by decide)))
  induction h with
  | null => exact hword _ rfl
  | true => exact hword _ rfl
  | false => exact hword _ rfl
  | num n t ht => exact hn n t ht
  | str s t ht => exact hkey s t ht
  | emptyArr w hw => exact hcons 91 _ (by decide) (happ _ _ (hblank w hw) (hp 93 (by decide)))
  | arr vs t ht ih => exact hcons 91 _ (by decide) (happ _ _ ih (hp 93 (by decide)))
  | emptyObj w hw => exact hcons 123 _ (by decide) (happ _ _ (hblank w hw) (hp 125 (by decide)))
  | obj fields t ht ih => exact hcons 123 _ (by decide) (happ _ _ ih (hp 125 (by decide)))
  | item v w t w' hw ht hw' ih => exact happ _ _ (happ _ _ (hblank w hw) ih) (hblank w' hw')
  | items v vs w t w' ts hw ht hw' hts ih ihs =>
      exact happ _ _ (happ _ _ (happ _ _ (hblank w hw) ih) (hblank w' hw'))
        (hcons 44 _ (by decide) ihs)
  | member k v u kt u' w t w' hu hk hu' hw ht hw' ih =>
      exact happ _ _ (happ _ _ (happ _ _ (hblank u hu) (hkey k kt hk)) (hblank u' hu'))
        (hcons 58 _ (by decide) (happ _ _ (happ _ _ (hblank w hw) ih) (hblank w' hw')))
  | members k v fields u kt u' w t w' ts hu hk hu' hw ht hw' hts ih ihs =>
      exact happ _ _ (happ _ _ (happ _ _ (happ _ _ (hblank u hu) (hkey k kt hk)) (hblank u' hu'))
        (hcons 58 _ (by decide) (happ _ _ (happ _ _ (hblank w hw) ih) (hblank w' hw'))))
        (hcons 44 _ (by decide) ihs)

theorem forall_mem {L : Lexicon σ ν} (S : UInt8 → Prop) (hp : ∀ b ∈ punctuation, S b)
    (hl : ∀ s t, L.literal s t → ∀ b ∈ t, S b) (hn : ∀ n t, L.numeral n t → ∀ b ∈ t, S b)
    (hs : ∀ b, L.space b → S b) {p : Phrase σ ν} {t : List UInt8} (h : Spells L p t) :
    ∀ b ∈ t, S b :=
  append_closed (L := L) (fun t => ∀ b ∈ t, S b) (fun _ hb => absurd hb List.not_mem_nil)
    (fun _ _ ht ht' => List.forall_mem_append.mpr ⟨ht, ht'⟩)
    (fun b hb => List.forall_mem_singleton.mpr (hp b hb)) hl hn
    (fun b hb => List.forall_mem_singleton.mpr (hs b hb)) h

theorem ne_nil {L : Lexicon σ ν} (hn : ∀ n t, L.numeral n t → t ≠ []) {v : Json σ ν}
    {t : List UInt8} (h : Spells L (.value v) t) : t ≠ [] := by
  cases h with
  | num n t ht => exact hn n t ht
  | _ => exact List.cons_ne_nil _ _

end Spells

end MzzPlork

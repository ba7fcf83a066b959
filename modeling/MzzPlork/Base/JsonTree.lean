import MzzPlork.Core.Json

/-!
# Functions and Predicates on JSON Values

What is said about a whole value is said about its strings, its numbers and
the keys of its objects, at any depth.

## Main definitions

* `Json.transform`: Another kind of strings, numbers and objects throughout.
* `Json.Everywhere`: A condition on all strings, numbers and lists of keys.
* `Json.size`: A measure of the strings and keys.

## Theorems

* `Json.tree_induction`: Induction with the hypothesis for all items of an
  array and all fields of an object.
* `Json.transform_arr`, `Json.transform_obj`, `Json.everywhere_arr`,
  `Json.everywhere_obj`: One level of a value.
* `Json.everywhere_mono`, `Json.everywhere_and`: Weaker conditions, and several.
* `Json.everywhere_transform`: What holds of the result.
* `Json.transform_congr`: Rearrangements that do the same.
* `Json.transform_eq_self_iff`: When nothing changes.
-/

namespace MzzPlork

namespace Json

variable {σ σ' ν ν' : Type}

section Induction

mutual

/-- Induction over a value. -/
theorem tree_induction (motive : Json σ ν → Prop) (null : motive .null)
    (bool : ∀ b, motive (.bool b)) (num : ∀ n, motive (.num n)) (str : ∀ s, motive (.str s))
    (arr : ∀ items, (∀ v ∈ items, motive v) → motive (.arr items))
    (obj : ∀ fields, (∀ f ∈ fields, motive f.2) → motive (.obj fields)) :
    ∀ v, motive v
  | .null => null
  | .bool b => bool b
  | .num n => num n
  | .str s => str s
  | .arr items => arr items (tree_induction_items motive null bool num str arr obj items)
  | .obj fields => obj fields (tree_induction_fields motive null bool num str arr obj fields)

theorem tree_induction_items (motive : Json σ ν → Prop) (null : motive .null)
    (bool : ∀ b, motive (.bool b)) (num : ∀ n, motive (.num n)) (str : ∀ s, motive (.str s))
    (arr : ∀ items, (∀ v ∈ items, motive v) → motive (.arr items))
    (obj : ∀ fields, (∀ f ∈ fields, motive f.2) → motive (.obj fields)) :
    ∀ items : List (Json σ ν), ∀ v ∈ items, motive v
  | [] => fun _ h => absurd h List.not_mem_nil
  | v :: items => List.forall_mem_cons.mpr
      ⟨tree_induction motive null bool num str arr obj v,
        tree_induction_items motive null bool num str arr obj items⟩

theorem tree_induction_fields (motive : Json σ ν → Prop) (null : motive .null)
    (bool : ∀ b, motive (.bool b)) (num : ∀ n, motive (.num n)) (str : ∀ s, motive (.str s))
    (arr : ∀ items, (∀ v ∈ items, motive v) → motive (.arr items))
    (obj : ∀ fields, (∀ f ∈ fields, motive f.2) → motive (.obj fields)) :
    ∀ fields : List (σ × Json σ ν), ∀ f ∈ fields, motive f.2
  | [] => fun _ h => absurd h List.not_mem_nil
  | (_, v) :: fields => List.forall_mem_cons.mpr
      ⟨tree_induction motive null bool num str arr obj v,
        tree_induction_fields motive null bool num str arr obj fields⟩

end

end Induction

section Transform

variable (f : σ → σ') (g : ν → ν') (o : List (σ' × Json σ' ν') → List (σ' × Json σ' ν'))

mutual

/-- Other strings and numbers, and the fields of objects rearranged. -/
def transform : Json σ ν → Json σ' ν'
  | .null => .null
  | .bool b => .bool b
  | .num n => .num (g n)
  | .str s => .str (f s)
  | .arr items => .arr (transformItems items)
  | .obj fields => .obj (o (transformFields fields))

/-- The items of an array. -/
def transformItems : List (Json σ ν) → List (Json σ' ν')
  | [] => []
  | v :: items => transform v :: transformItems items

/-- The fields of an object. -/
def transformFields : List (σ × Json σ ν) → List (σ' × Json σ' ν')
  | [] => []
  | (k, v) :: fields => (f k, transform v) :: transformFields fields

end

theorem transformItems_eq (items : List (Json σ ν)) :
    transformItems f g o items = items.map (transform f g o) := by
  induction items with
  | nil => rfl
  | cons v items ih => rw [transformItems, ih, List.map_cons]

theorem transformFields_eq (fields : List (σ × Json σ ν)) :
    transformFields f g o fields = fields.map (fun e => (f e.1, transform f g o e.2)) := by
  induction fields with
  | nil => rfl
  | cons e fields ih => rw [transformFields, ih, List.map_cons]

theorem transform_arr (items : List (Json σ ν)) :
    transform f g o (.arr items) = .arr (items.map (transform f g o)) := by
  rw [transform, transformItems_eq]

theorem transform_obj (fields : List (σ × Json σ ν)) :
    transform f g o (.obj fields)
      = .obj (o (fields.map (fun e => (f e.1, transform f g o e.2)))) := by
  rw [transform, transformFields_eq]

end Transform

section Everywhere

variable (P : σ → Prop) (Q : ν → Prop) (O : List σ → Prop)

mutual

/-- Conditions on all strings, all numbers and the keys of all objects. -/
def Everywhere : Json σ ν → Prop
  | .null => True
  | .bool _ => True
  | .num n => Q n
  | .str s => P s
  | .arr items => EverywhereItems items
  | .obj fields => O (fields.map Prod.fst) ∧ EverywhereFields fields

/-- The items of an array. -/
def EverywhereItems : List (Json σ ν) → Prop
  | [] => True
  | v :: items => Everywhere v ∧ EverywhereItems items

/-- The fields of an object. -/
def EverywhereFields : List (σ × Json σ ν) → Prop
  | [] => True
  | (k, v) :: fields => P k ∧ Everywhere v ∧ EverywhereFields fields

end

section Decide

variable [DecidablePred P] [DecidablePred Q] [DecidablePred O]

mutual

/-- Conditions that can be decided can be decided throughout. -/
def decideEverywhere : (v : Json σ ν) → Decidable (Everywhere P Q O v)
  | .null => isTrue trivial
  | .bool _ => isTrue trivial
  | .num n => inferInstanceAs (Decidable (Q n))
  | .str s => inferInstanceAs (Decidable (P s))
  | .arr items => decideEverywhereItems items
  | .obj fields =>
    let := decideEverywhereFields fields
    inferInstanceAs (Decidable (O (fields.map Prod.fst) ∧ EverywhereFields P Q O fields))

/-- The items of an array. -/
def decideEverywhereItems : (items : List (Json σ ν)) → Decidable (EverywhereItems P Q O items)
  | [] => isTrue trivial
  | v :: items =>
    let := decideEverywhere v
    let := decideEverywhereItems items
    inferInstanceAs (Decidable (Everywhere P Q O v ∧ EverywhereItems P Q O items))

/-- The fields of an object. -/
def decideEverywhereFields :
    (fields : List (σ × Json σ ν)) → Decidable (EverywhereFields P Q O fields)
  | [] => isTrue trivial
  | (k, v) :: fields =>
    let := decideEverywhere v
    let := decideEverywhereFields fields
    inferInstanceAs (Decidable (P k ∧ Everywhere P Q O v ∧ EverywhereFields P Q O fields))

end

instance : DecidablePred (Everywhere P Q O) := decideEverywhere P Q O

end Decide

theorem everywhereItems_iff (items : List (Json σ ν)) :
    EverywhereItems P Q O items ↔ ∀ v ∈ items, Everywhere P Q O v := by
  induction items with
  | nil => exact ⟨fun _ _ h => absurd h List.not_mem_nil, fun _ => trivial⟩
  | cons v items ih => rw [EverywhereItems, ih, List.forall_mem_cons]

theorem everywhereFields_iff (fields : List (σ × Json σ ν)) :
    EverywhereFields P Q O fields ↔ ∀ f ∈ fields, P f.1 ∧ Everywhere P Q O f.2 := by
  induction fields with
  | nil => exact ⟨fun _ _ h => absurd h List.not_mem_nil, fun _ => trivial⟩
  | cons f fields ih => rw [EverywhereFields, ih, List.forall_mem_cons, and_assoc]

theorem everywhere_arr (items : List (Json σ ν)) :
    Everywhere P Q O (.arr items) ↔ ∀ v ∈ items, Everywhere P Q O v := by
  rw [Everywhere, everywhereItems_iff]

theorem everywhere_obj (fields : List (σ × Json σ ν)) :
    Everywhere P Q O (.obj fields) ↔
      O (fields.map Prod.fst) ∧ ∀ f ∈ fields, P f.1 ∧ Everywhere P Q O f.2 := by
  rw [Everywhere, everywhereFields_iff]

theorem everywhere_mono {P P' : σ → Prop} {Q Q' : ν → Prop} {O O' : List σ → Prop}
    (hP : ∀ s, P s → P' s) (hQ : ∀ n, Q n → Q' n) (hO : ∀ ks, O ks → O' ks) (v : Json σ ν)
    (hv : Everywhere P Q O v) : Everywhere P' Q' O' v := by
  induction v using tree_induction with
  | null => trivial
  | bool b => trivial
  | num n => exact hQ n hv
  | str s => exact hP s hv
  | arr items ih =>
      rw [everywhere_arr] at hv ⊢
      exact fun v hm => ih v hm (hv v hm)
  | obj fields ih =>
      rw [everywhere_obj] at hv ⊢
      exact ⟨hO _ hv.1, fun f hf => ⟨hP f.1 (hv.2 f hf).1, ih f hf (hv.2 f hf).2⟩⟩

/-- Conditions together. -/
theorem everywhere_and {P P' : σ → Prop} {Q Q' : ν → Prop} {O O' : List σ → Prop} (v : Json σ ν)
    (hv : Everywhere P Q O v) (hv' : Everywhere P' Q' O' v) :
    Everywhere (fun s => P s ∧ P' s) (fun n => Q n ∧ Q' n) (fun ks => O ks ∧ O' ks) v := by
  induction v using tree_induction with
  | null => trivial
  | bool b => trivial
  | num n => exact ⟨hv, hv'⟩
  | str s => exact ⟨hv, hv'⟩
  | arr items ih =>
      rw [everywhere_arr] at hv hv' ⊢
      exact fun v hm => ih v hm (hv v hm) (hv' v hm)
  | obj fields ih =>
      rw [everywhere_obj] at hv hv' ⊢
      exact ⟨⟨hv.1, hv'.1⟩, fun f hf => ⟨⟨(hv.2 f hf).1, (hv'.2 f hf).1⟩,
        ih f hf (hv.2 f hf).2 (hv'.2 f hf).2⟩⟩

/-- Conditions that say nothing. -/
theorem everywhere_true (v : Json σ ν) :
    Everywhere (fun _ => True) (fun _ => True) (fun _ => True) v := by
  induction v using tree_induction with
  | null => trivial
  | bool b => trivial
  | num n => trivial
  | str s => trivial
  | arr items ih => exact (everywhere_arr _ _ _ items).mpr ih
  | obj fields ih =>
      exact (everywhere_obj _ _ _ fields).mpr ⟨trivial, fun f hf => ⟨trivial, ih f hf⟩⟩

end Everywhere

section Image

/-- What holds of the result, when the rearrangement only leaves fields out. -/
theorem everywhere_transform (f : σ → σ') (g : ν → ν')
    (o : List (σ' × Json σ' ν') → List (σ' × Json σ' ν')) {P : σ → Prop} {P' : σ' → Prop}
    {Q : ν → Prop} {Q' : ν' → Prop} {O : List σ → Prop} {O' : List σ' → Prop}
    (hP : ∀ s, P s → P' (f s)) (hQ : ∀ n, Q n → Q' (g n))
    (hO : ∀ fields, O' ((o fields).map Prod.fst)) (ho : ∀ fields, ∀ e ∈ o fields, e ∈ fields)
    (v : Json σ ν) (hv : Everywhere P Q O v) : Everywhere P' Q' O' (transform f g o v) := by
  induction v using tree_induction with
  | null => trivial
  | bool b => trivial
  | num n => exact hQ n hv
  | str s => exact hP s hv
  | arr items ih =>
      rw [everywhere_arr] at hv
      rw [transform_arr, everywhere_arr]
      rintro w hw
      rcases List.mem_map.mp hw with ⟨v, hm, rfl⟩
      exact ih v hm (hv v hm)
  | obj fields ih =>
      rw [everywhere_obj] at hv
      rw [transform_obj, everywhere_obj]
      refine ⟨hO _, fun e he => ?_⟩
      rcases List.mem_map.mp (ho _ e he) with ⟨d, hm, rfl⟩
      exact ⟨hP d.1 (hv.2 d hm).1, ih d hm (hv.2 d hm).2⟩

/-- What holds of the numbers of the result held of those before, when the
    rearrangement leaves no field out. -/
theorem everywhere_of_transform (f : σ → σ') (g : ν → ν')
    (o : List (σ' × Json σ' ν') → List (σ' × Json σ' ν')) {P : σ → Prop} {Q : ν → Prop}
    {Q' : ν' → Prop} {O : List σ → Prop} (hQ : ∀ n, Q' (g n) → Q n)
    (ho : ∀ (fields : List (σ × Json σ ν)) (h : σ × Json σ ν → Json σ' ν'),
      O (fields.map Prod.fst) → (∀ e ∈ fields, P e.1) →
      ∀ e ∈ fields, (f e.1, h e) ∈ o (fields.map (fun e => (f e.1, h e))))
    (v : Json σ ν) (hv : Everywhere P (fun _ => True) O v)
    (h : Everywhere (fun _ => True) Q' (fun _ => True) (transform f g o v)) :
    Everywhere (fun _ => True) Q (fun _ => True) v := by
  induction v using tree_induction with
  | null => trivial
  | bool b => trivial
  | num n => exact hQ n h
  | str s => trivial
  | arr items ih =>
      rw [everywhere_arr] at hv ⊢
      rw [transform_arr, everywhere_arr, List.forall_mem_map] at h
      exact fun v hm => ih v hm (hv v hm) (h v hm)
  | obj fields ih =>
      rw [everywhere_obj] at hv ⊢
      rw [transform_obj, everywhere_obj] at h
      refine ⟨trivial, fun e he => ⟨trivial, ih e he (hv.2 e he).2 ?_⟩⟩
      exact (h.2 _ (ho fields _ hv.1 (fun e he => (hv.2 e he).1) e he)).2

/-- Two kinds of numbers for one value. -/
theorem transform_num_eq_iff (g g' : ν → ν') (v : Json σ ν) :
    transform id g id v = transform id g' id v ↔
      Everywhere (fun _ => True) (fun n => g n = g' n) (fun _ => True) v := by
  induction v using tree_induction with
  | null => exact ⟨fun _ => trivial, fun _ => rfl⟩
  | bool b => exact ⟨fun _ => trivial, fun _ => rfl⟩
  | num n => rw [transform, transform, num.injEq, Everywhere]
  | str s => exact ⟨fun _ => trivial, fun _ => rfl⟩
  | arr items ih =>
      rw [transform_arr, transform_arr, arr.injEq, List.map_eq_map_iff, everywhere_arr]
      exact forall₂_congr ih
  | obj fields ih =>
      rw [transform_obj, transform_obj, obj.injEq, id, id, List.map_eq_map_iff, everywhere_obj]
      simp only [true_and]
      refine forall₂_congr (fun e he => ?_)
      rw [← ih e he]
      exact ⟨fun h => congrArg Prod.snd h, fun h => Prod.ext rfl h⟩

/-- Two rearrangements that do the same to the objects of a value. -/
theorem transform_congr (f : σ → σ') (g : ν → ν')
    {o o' : List (σ' × Json σ' ν') → List (σ' × Json σ' ν')} {P : σ → Prop} {Q : ν → Prop}
    {O : List σ → Prop}
    (ho : ∀ (fields : List (σ × Json σ ν)) (h : σ × Json σ ν → Json σ' ν'),
      O (fields.map Prod.fst) → (∀ e ∈ fields, P e.1) →
      o (fields.map (fun e => (f e.1, h e))) = o' (fields.map (fun e => (f e.1, h e))))
    (v : Json σ ν) (hv : Everywhere P Q O v) : transform f g o v = transform f g o' v := by
  induction v using tree_induction with
  | null => rfl
  | bool b => rfl
  | num n => rfl
  | str s => rfl
  | arr items ih =>
      rw [everywhere_arr] at hv
      rw [transform_arr, transform_arr]
      exact congrArg Json.arr (List.map_congr_left (fun v hm => ih v hm (hv v hm)))
  | obj fields ih =>
      rw [everywhere_obj] at hv
      rw [transform_obj, transform_obj, ho fields _ hv.1 (fun e he => (hv.2 e he).1)]
      refine congrArg (fun fields => Json.obj (o' fields)) (List.map_congr_left (fun e he => ?_))
      rw [ih e he (hv.2 e he).2]

end Image

section Size

variable (f : σ → Nat)

mutual

/-- The sizes of all strings and keys together. -/
def size : Json σ ν → Nat
  | .null => 0
  | .bool _ => 0
  | .num _ => 0
  | .str s => f s
  | .arr items => sizeItems items
  | .obj fields => sizeFields fields

/-- The items of an array. -/
def sizeItems : List (Json σ ν) → Nat
  | [] => 0
  | v :: items => size v + sizeItems items

/-- The fields of an object. -/
def sizeFields : List (σ × Json σ ν) → Nat
  | [] => 0
  | (k, v) :: fields => f k + size v + sizeFields fields

end

theorem sizeItems_map (h : Json σ ν → Json σ ν') (items : List (Json σ ν))
    (hsame : ∀ v ∈ items, size f (h v) = size f v) :
    sizeItems f (items.map h) = sizeItems f items := by
  induction items with
  | nil => rfl
  | cons v items ih =>
      rw [List.map_cons, sizeItems, sizeItems, hsame v List.mem_cons_self,
        ih (fun v hv => hsame v (List.mem_cons_of_mem _ hv))]

theorem sizeFields_map (h : Json σ ν → Json σ ν') (fields : List (σ × Json σ ν))
    (hsame : ∀ e ∈ fields, size f (h e.2) = size f e.2) :
    sizeFields f (fields.map (fun e => (e.1, h e.2))) = sizeFields f fields := by
  induction fields with
  | nil => rfl
  | cons e fields ih =>
      rw [List.map_cons, sizeFields, sizeFields, hsame e List.mem_cons_self,
        ih (fun e he => hsame e (List.mem_cons_of_mem _ he))]

/-- The size does not depend on the numbers. -/
theorem size_transform (g : ν → ν') (v : Json σ ν) :
    size f (transform id g id v) = size f v := by
  induction v using tree_induction with
  | null => rfl
  | bool b => rfl
  | num n => rfl
  | str s => rfl
  | arr items ih => rw [transform_arr, size, size, sizeItems_map f _ items ih]
  | obj fields ih =>
      rw [transform_obj, size, size]
      exact sizeFields_map f _ fields ih

end Size

section Fixed

variable (g : ν → ν) (o : List (σ × Json σ ν) → List (σ × Json σ ν)) (O : List σ → Prop)

theorem map_eq_self_iff {α : Type} (h : α → α) (l : List α) :
    l.map h = l ↔ ∀ a ∈ l, h a = a := by
  have hid := List.map_eq_map_iff (f := h) (g := id) (l := l)
  rwa [List.map_id] at hid

/-- Where the rearrangement leaves the objects alone, a value changes with its
    numbers. -/
theorem transform_eq_self_iff (ho : ∀ fields, O (fields.map Prod.fst) → o fields = fields)
    (v : Json σ ν) (hv : Everywhere (fun _ => True) (fun _ => True) O v) :
    transform id g o v = v ↔
      Everywhere (fun _ => True) (fun n => g n = n) (fun _ => True) v := by
  induction v using tree_induction with
  | null => exact ⟨fun _ => trivial, fun _ => rfl⟩
  | bool b => exact ⟨fun _ => trivial, fun _ => rfl⟩
  | num n => rw [transform, num.injEq, Everywhere]
  | str s => exact ⟨fun _ => trivial, fun _ => rfl⟩
  | arr items ih =>
      rw [everywhere_arr] at hv
      rw [transform_arr, arr.injEq, map_eq_self_iff, everywhere_arr]
      exact forall₂_congr (fun v hm => ih v hm (hv v hm))
  | obj fields ih =>
      rw [everywhere_obj] at hv
      have hkeys : (fields.map (fun e => (id e.1, transform id g o e.2))).map Prod.fst
          = fields.map Prod.fst := by
        rw [List.map_map]
        rfl
      rw [transform_obj, obj.injEq, ho _ (by rw [hkeys]; exact hv.1), map_eq_self_iff,
        everywhere_obj]
      simp only [true_and]
      refine forall₂_congr (fun f hm => ?_)
      rw [← ih f hm (hv.2 f hm).2]
      exact ⟨fun h => congrArg Prod.snd h, fun h => Prod.ext rfl h⟩

end Fixed

end Json

end MzzPlork

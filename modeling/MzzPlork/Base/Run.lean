import Mathlib.Data.List.Infix

/-!
# Runs

Facts about a system that takes one event after another.

A system is a function from a state and an event to the next state, so a run
is a fold over its events and its states are the folds over the prefixes.
Two things are said about runs throughout: that a predicate holds in every
state of a run (`Always`), and that a condition is met by every step of it
(`EachStep`). A property that is not preserved by all steps, only by those
that meet a condition, holds along exactly the runs that meet the condition
at every step; `always_iff_eachStep` is that fact, modulo an invariant that
every step keeps.

## Main definitions

* `Always`: A predicate holds in every state of a run.
* `EachStep`: A condition is met by every step of a run.

## Theorems

* `foldl_inv`, `foldl_inv_of_eachStep`: An invariant holds at the end of a run.
* `always_cons`, `eachStep_cons`: A run is its first step and the rest.
* `eachStep_iff_of_kept`, `eachStep_congr`: Step conditions that agree where an
  invariant holds.
* `always_iff_eachStep`: Preserved exactly under a condition, so true along
  exactly the runs that meet it.
* `foldl_eq_iff_eachStep`: A measure no step increases survives a run exactly
  when it survives each step.
-/

namespace MzzPlork

namespace Run

variable {σ ε : Type} (step : σ → ε → σ)

/-- The predicate holds in every state of the run, the first and last included. -/
def Always (P : σ → Prop) (s : σ) (es : List ε) : Prop :=
  ∀ pre, pre <+: es → P (pre.foldl step s)

/-- Every step of the run meets the condition in the state it is taken from. -/
def EachStep (C : σ → ε → Prop) (s : σ) (es : List ε) : Prop :=
  ∀ pre e, pre ++ [e] <+: es → C (pre.foldl step s) e

/-- An invariant that every step keeps holds at the end of a run. -/
theorem foldl_inv (I : σ → Prop) (hstep : ∀ s e, I s → I (step s e)) (es : List ε) (s : σ)
    (hs : I s) : I (es.foldl step s) := by
  induction es generalizing s with
  | nil => exact hs
  | cons e es ih => exact ih (step s e) (hstep s e hs)

/-- An invariant that the steps of a run keep under a condition they meet holds
    at its end. -/
theorem foldl_inv_of_eachStep (I : σ → Prop) (C : σ → ε → Prop)
    (hstep : ∀ s e, I s → C s e → I (step s e)) (es : List ε) (s : σ) (hs : I s)
    (hC : EachStep step C s es) : I (es.foldl step s) := by
  induction es generalizing s with
  | nil => exact hs
  | cons e es ih =>
      refine ih (step s e) (hstep s e hs (hC [] e (List.prefix_append [e] es))) ?_
      exact fun pre e' hpre => hC (e :: pre) e' ((List.prefix_cons_inj e).mpr hpre)

theorem always_nil (P : σ → Prop) (s : σ) : Always step P s [] ↔ P s := by
  constructor
  · exact fun h => h [] (List.prefix_refl [])
  · intro h pre hpre
    rw [List.prefix_nil.mp hpre]
    exact h

theorem always_cons (P : σ → Prop) (s : σ) (e : ε) (es : List ε) :
    Always step P s (e :: es) ↔ P s ∧ Always step P (step s e) es := by
  constructor
  · intro h
    refine ⟨h [] List.nil_prefix, fun pre hpre => ?_⟩
    exact h (e :: pre) ((List.prefix_cons_inj e).mpr hpre)
  -- A prefix of the run is empty or takes the first step.
  · rintro ⟨hs, h⟩ pre hpre
    rcases List.prefix_cons_iff.mp hpre with rfl | ⟨pre', rfl, hpre'⟩
    · exact hs
    · exact h pre' hpre'

theorem eachStep_nil (C : σ → ε → Prop) (s : σ) : EachStep step C s [] := by
  intro pre e hpre
  exact absurd (List.prefix_nil.mp hpre) (List.append_ne_nil_of_right_ne_nil pre
    (List.cons_ne_nil e []))

theorem eachStep_cons (C : σ → ε → Prop) (s : σ) (e : ε) (es : List ε) :
    EachStep step C s (e :: es) ↔ C s e ∧ EachStep step C (step s e) es := by
  constructor
  · intro h
    refine ⟨h [] e (List.prefix_append [e] es), fun pre e' hpre => ?_⟩
    exact h (e :: pre) e' ((List.prefix_cons_inj e).mpr hpre)
  · rintro ⟨hs, h⟩ pre e' hpre
    cases pre with
    | nil =>
        rw [(List.cons_prefix_cons.mp hpre).1]
        exact hs
    | cons a pre =>
        rcases List.cons_prefix_cons.mp hpre with ⟨rfl, hpre'⟩
        exact h pre e' hpre'

/-- A condition that can be checked can be checked along a run. -/
def decideEachStep (C : σ → ε → Prop) [∀ s e, Decidable (C s e)] :
    (es : List ε) → (s : σ) → Decidable (EachStep step C s es)
  | [], s => isTrue (eachStep_nil step C s)
  | e :: es, s =>
    have := decideEachStep C es (step s e)
    decidable_of_iff _ (eachStep_cons step C s e es).symm

instance (C : σ → ε → Prop) [∀ s e, Decidable (C s e)] (s : σ) (es : List ε) :
    Decidable (EachStep step C s es) := decideEachStep step C es s

/-- Two step conditions that agree wherever an invariant holds are met by the
    same runs, if steps that meet them keep the invariant. -/
theorem eachStep_iff_of_kept (I : σ → Prop) (C D : σ → ε → Prop)
    (hI : ∀ s e, I s → D s e → I (step s e)) (h : ∀ s e, I s → (C s e ↔ D s e)) (es : List ε)
    (s : σ) (hs : I s) : EachStep step C s es ↔ EachStep step D s es := by
  induction es generalizing s with
  | nil => exact ⟨fun _ => eachStep_nil step D s, fun _ => eachStep_nil step C s⟩
  | cons e es ih =>
      rw [eachStep_cons, eachStep_cons, h s e hs]
      exact and_congr_right (fun hD => ih (step s e) (hI s e hs hD))

/-- Where every step keeps the invariant, they only have to agree. -/
theorem eachStep_congr (I : σ → Prop) (hI : ∀ s e, I s → I (step s e)) (C D : σ → ε → Prop)
    (h : ∀ s e, I s → (C s e ↔ D s e)) (es : List ε) (s : σ) (hs : I s) :
    EachStep step C s es ↔ EachStep step D s es :=
  eachStep_iff_of_kept step I C D (fun s e h _ => hI s e h) h es s hs

/-- A property that a step preserves exactly when it meets a condition holds
    along exactly the runs that meet the condition at every step. -/
theorem always_iff_eachStep (I : σ → Prop) (hI : ∀ s e, I s → I (step s e)) (P : σ → Prop)
    (C : σ → ε → Prop) (h : ∀ s e, I s → P s → (P (step s e) ↔ C s e)) (es : List ε) (s : σ)
    (hs : I s) (hP : P s) : Always step P s es ↔ EachStep step C s es := by
  induction es generalizing s with
  | nil =>
      rw [always_nil]
      exact ⟨fun _ => eachStep_nil step C s, fun _ => hP⟩
  | cons e es ih =>
      rw [always_cons, eachStep_cons]
      constructor
      · rintro ⟨_, hrest⟩
        have hPe : P (step s e) := hrest [] List.nil_prefix
        exact ⟨(h s e hs hP).mp hPe, (ih (step s e) (hI s e hs) hPe).mp hrest⟩
      · rintro ⟨hC, hrest⟩
        have hPe : P (step s e) := (h s e hs hP).mpr hC
        exact ⟨hP, (ih (step s e) (hI s e hs) hPe).mpr hrest⟩

section Measure

variable {τ : Type} (f : σ → τ) (R : τ → τ → Prop) (hrefl : ∀ x, R x x)
  (htrans : ∀ x y z, R x y → R y z → R x z) (hanti : ∀ x y, R x y → R y x → x = y)
  (I : σ → Prop) (hI : ∀ s e, I s → I (step s e)) (hle : ∀ s e, I s → R (f (step s e)) (f s))

include hrefl htrans hI hle

/-- A measure that no step increases is not increased by a run. -/
theorem foldl_le (es : List ε) (s : σ) (hs : I s) : R (f (es.foldl step s)) (f s) := by
  induction es generalizing s with
  | nil => exact hrefl _
  | cons e es ih => exact htrans _ _ _ (ih (step s e) (hI s e hs)) (hle s e hs)

include hanti

/-- Such a measure is what it was exactly when every step left it alone. -/
theorem foldl_eq_iff_eachStep (C : σ → ε → Prop)
    (hC : ∀ s e, I s → (f (step s e) = f s ↔ C s e)) (es : List ε) (s : σ) (hs : I s) :
    f (es.foldl step s) = f s ↔ EachStep step C s es := by
  induction es generalizing s with
  | nil => exact iff_of_true rfl (eachStep_nil step C s)
  | cons e es ih =>
      -- The measure can only have gone down in between, so it has not moved at all.
      have hrest := foldl_le step f R hrefl htrans I hI hle es (step s e) (hI s e hs)
      rw [eachStep_cons, List.foldl_cons]
      constructor
      · intro heq
        rw [heq] at hrest
        have hfirst := hanti _ _ (hle s e hs) hrest
        refine ⟨(hC s e hs).mp hfirst, (ih (step s e) (hI s e hs)).mp ?_⟩
        rw [heq, hfirst]
      · rintro ⟨hc, heach⟩
        rw [(ih (step s e) (hI s e hs)).mpr heach, (hC s e hs).mpr hc]

end Measure

end Run

end MzzPlork

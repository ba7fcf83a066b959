import Mathlib.Data.List.Infix

/-!
# Progress under Fair Schedules

A system has something left to do. Some of its steps are due, which means that
they leave less to do when they are taken. A step that is not due may be taken
just as well; it leaves no more to do than there was, and what was due is still
due afterwards unless there is less left.

A schedule is cut into rounds, in each of which some step is taken that is due
at its beginning. Then a round leaves less than there was, so after as many
rounds as there was left to do it has all been done in the meantime.

## Main definitions

* `Progress`: Steps that are due are progress, and others do no harm.
* `Reaches`: A schedule comes by a state in which nothing is left.

## Theorems

* `reaches_or_less`: A schedule that contains a step that is due.
* `reaches_rounds`: Enough rounds.
-/

namespace MzzPlork

namespace Fairness

variable {σ ε : Type} (step : σ → ε → σ) (I : σ → Prop) (left : σ → Nat) (Due : σ → ε → Prop)

/-- Steps that are due are progress, and others do no harm, as long as there is
    something left. -/
structure Progress : Prop where
  keep : ∀ s e, I s → left s ≠ 0 → I (step s e)
  advance : ∀ s e, I s → left s ≠ 0 →
    left (step s e) < left s ∨
      (¬ Due s e ∧ left (step s e) = left s ∧ ∀ e', Due s e' → Due (step s e) e')

/-- A schedule comes by a state in which nothing is left. -/
def Reaches (s : σ) (es : List ε) : Prop := ∃ pre, pre <+: es ∧ left (pre.foldl step s) = 0

variable {step I left Due}

theorem Reaches.cons {s : σ} {e : ε} {es : List ε} (h : Reaches step left (step s e) es) :
    Reaches step left s (e :: es) := by
  rcases h with ⟨pre, hpre, hzero⟩
  exact ⟨e :: pre, (List.prefix_cons_inj e).mpr hpre, hzero⟩

theorem Reaches.append {s : σ} {es es' : List ε} (h : Reaches step left (es.foldl step s) es') :
    Reaches step left s (es ++ es') := by
  rcases h with ⟨pre, hpre, hzero⟩
  refine ⟨es ++ pre, (List.prefix_append_right_inj es).mpr hpre, ?_⟩
  rw [List.foldl_append]
  exact hzero

/-- A schedule gets through, or it leaves no more than there was, and less if it
    contains a step that is due at its beginning. -/
theorem reaches_or_less (h : Progress step I left Due) (es : List ε) (s : σ) (hs : I s)
    (hne : left s ≠ 0) :
    Reaches step left s es ∨ (I (es.foldl step s) ∧ left (es.foldl step s) ≠ 0 ∧
      left (es.foldl step s) ≤ left s ∧
      ((∃ e ∈ es, Due s e) → left (es.foldl step s) < left s)) := by
  induction es generalizing s with
  | nil => exact Or.inr ⟨hs, hne, Nat.le_refl _, fun ⟨e, he, _⟩ => absurd he List.not_mem_nil⟩
  | cons e es ih =>
      by_cases hzero : left (step s e) = 0
      · exact Or.inl ⟨[e], (List.prefix_cons_inj e).mpr List.nil_prefix, hzero⟩
      rcases ih (step s e) (h.keep s e hs hne) hzero with hreaches | ⟨hI, hlive, hle, hless⟩
      · exact Or.inl hreaches.cons
      refine Or.inr ⟨hI, hlive, ?_⟩
      rcases h.advance s e hs hne with hfirst | ⟨hdue, hsame, hkept⟩
      · exact ⟨Nat.le_trans hle (Nat.le_of_lt hfirst), fun _ => Nat.lt_of_le_of_lt hle hfirst⟩
      -- Nothing was due yet, so what is due comes later.
      · refine ⟨hsame ▸ hle, fun ⟨e', he', hd⟩ => ?_⟩
        rw [← hsame]
        rcases List.mem_cons.mp he' with rfl | he'
        · exact absurd hd hdue
        · exact hless ⟨e', he', hkept e' hd⟩

/-- As many rounds as there is left to do, in each of which a step is taken that
    is due at its beginning. -/
theorem reaches_rounds (h : Progress step I left Due) (rounds : List (List ε))
    (hdue : ∀ es ∈ rounds, ∀ s, I s → left s ≠ 0 → ∃ e ∈ es, Due s e) (s : σ) (hs : I s)
    (hleft : left s ≤ rounds.length) : Reaches step left s rounds.flatten := by
  induction rounds generalizing s with
  | nil => exact ⟨[], List.nil_prefix, Nat.le_zero.mp hleft⟩
  | cons es rounds ih =>
      rw [List.flatten_cons]
      by_cases hzero : left s = 0
      · exact ⟨[], List.nil_prefix, hzero⟩
      rcases reaches_or_less h es s hs hzero with ⟨pre, hpre, hend⟩ | ⟨hI, hlive, _, hless⟩
      · exact ⟨pre, hpre.trans (List.prefix_append es _), hend⟩
      · have hdown := hless (hdue es List.mem_cons_self s hs hzero)
        refine Reaches.append (ih (fun es' hes' => hdue es' (List.mem_cons_of_mem es hes')) _ hI ?_)
        rw [List.length_cons] at hleft
        omega

end Fairness

end MzzPlork

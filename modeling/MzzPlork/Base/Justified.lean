import Mathlib.Data.List.Infix

/-!
# Logs Whose Entries Are Justified

A log in which every entry may count on those before it.

What an entry needs is a relation between the entries before it and itself.
Such a log is written entry by entry, so it is enough that each is justified
when it is written. Where a longer past justifies more, a batch of entries is
justified by what was there before the batch.

## Main definitions

* `Justified`: Every entry has what it needs among the entries before it.
* `Lasting`: A justification that later entries do not take away.

## Theorems

* `justified_append`: Writing behind a log.
* `justified_append_of_forall`: Writing what the log justifies already.
-/

namespace MzzPlork

namespace Log

variable {α : Type} (P : List α → α → Prop)

/-- Every entry has what it needs among the entries before it. -/
def Justified (l : List α) : Prop := ∀ pre a post, l = pre ++ a :: post → P pre a

/-- What justifies an entry still does with more before it. -/
def Lasting : Prop := ∀ l l' a, P l a → P (l ++ l') a

theorem justified_nil : Justified P [] := by
  intro pre a post h
  exact absurd h.symm (List.append_ne_nil_of_right_ne_nil pre (List.cons_ne_nil a post))

variable {P}

/-- The entries behind a log may count on all of it. -/
theorem justified_append {l l' : List α} (h : Justified P l)
    (h' : Justified (fun pre a => P (l ++ pre) a) l') : Justified P (l ++ l') := by
  intro pre a post heq
  rcases List.append_eq_append_iff.mp heq with ⟨mid, rfl, hl'⟩ | ⟨mid, rfl, hmid⟩
  · exact h' mid a post hl'
  -- The entry is the first of the second part, or lies in the first.
  · cases mid with
    | nil =>
        have hfirst := h' [] a post hmid.symm
        rwa [List.append_nil, List.append_nil] at hfirst
    | cons b mid =>
        rw [List.cons_append, List.cons.injEq] at hmid
        rw [hmid.1]
        exact h pre b mid rfl

/-- Entries that a log justifies can be written behind it in any order. -/
theorem justified_append_of_forall (hP : Lasting P) {l l' : List α} (h : Justified P l)
    (h' : ∀ a ∈ l', P l a) : Justified P (l ++ l') := by
  refine justified_append h (fun pre a post heq => hP l pre a (h' a ?_))
  rw [heq]
  exact List.mem_append_right pre List.mem_cons_self

end Log

end MzzPlork

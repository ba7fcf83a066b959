import Mathlib.Data.List.Basic

/-!
# Delimited Streams

A stream that is taken apart at every occurrence of a delimiter, by a reader
that gets it in chunks and keeps what follows the last delimiter for later.

The pieces of a stream are defined on the stream as a whole. What is shown is
that they may be taken off one at a time from the front, and that the pieces of
what has arrived do not change with what arrives next. Together these make a
reader's results independent of the chunks.

## Main definitions

* `cut`: What is before the first delimiter and what is after it.
* `frames`: All pieces, and what follows the last delimiter.
* `Feed`: A reader that is fed the stream.

## Theorems

* `frames_free`, `frames_of_cut_some`: One piece at a time.
* `frames_append`: Two parts of a stream, one after the other.
* `frames_delimited`, `delimited_frames`: The pieces are those that were put
  together.
* `Feed.foldl_feed`: The chunks do not matter.
* `Feed.view_loop`: A loop that takes one piece a round.
-/

namespace MzzPlork

namespace Delimited

variable {α : Type} [DecidableEq α] (sep : α)

/-- What is before the first delimiter, and what is after it. -/
def cut : List α → Option (List α × List α)
  | [] => none
  | a :: s => if a = sep then some ([], s) else (cut s).map (fun p => (a :: p.1, p.2))

/-- The pieces that a delimiter ends, and what follows the last of them. -/
def frames : List α → List (List α) × List α
  | [] => ([], [])
  | a :: s =>
    if a = sep then ([] :: (frames s).1, (frames s).2)
    else
      match (frames s).1 with
      | [] => ([], a :: (frames s).2)
      | f :: fs => ((a :: f) :: fs, (frames s).2)

section Cutting

theorem cut_eq_none_iff (s : List α) : cut sep s = none ↔ sep ∉ s := by
  induction s with
  | nil => exact iff_of_true rfl List.not_mem_nil
  | cons a s ih =>
      rw [cut]
      by_cases ha : a = sep
      · rw [if_pos ha]
        exact iff_of_false (Option.some_ne_none _) (fun h => h (ha ▸ List.mem_cons_self))
      · rw [if_neg ha, Option.map_eq_none_iff, ih, List.mem_cons, not_or,
          and_iff_right (Ne.symm ha)]

theorem eq_of_cut (s f r : List α) (h : cut sep s = some (f, r)) :
    s = f ++ sep :: r ∧ sep ∉ f := by
  induction s generalizing f with
  | nil => exact absurd h (by simp only [cut, reduceCtorEq, not_false_eq_true])
  | cons a s ih =>
      rw [cut] at h
      by_cases ha : a = sep
      · rw [if_pos ha] at h
        cases h
        exact ⟨by rw [ha, List.nil_append], List.not_mem_nil⟩
      · rw [if_neg ha] at h
        rcases Option.map_eq_some_iff.mp h with ⟨⟨f', r'⟩, hs, heq⟩
        cases heq
        rcases ih f' hs with ⟨hsplit, hf⟩
        refine ⟨by rw [hsplit, List.cons_append], fun hmem => ?_⟩
        rcases List.mem_cons.mp hmem with hc | hc
        · exact ha hc.symm
        · exact hf hc

theorem length_of_cut (s f r : List α) (h : cut sep s = some (f, r)) : r.length < s.length := by
  rw [(eq_of_cut sep s f r h).1, List.length_append, List.length_cons]
  omega

end Cutting

section Framing

theorem frames_free (s : List α) (h : sep ∉ s) : frames sep s = ([], s) := by
  induction s with
  | nil => rfl
  | cons a s ih =>
      rw [List.mem_cons, not_or] at h
      rw [frames, if_neg (Ne.symm h.1), ih h.2]

/-- A piece is taken off at the front. -/
theorem frames_piece (f s : List α) (h : sep ∉ f) :
    frames sep (f ++ sep :: s) = (f :: (frames sep s).1, (frames sep s).2) := by
  induction f with
  | nil => rw [List.nil_append, frames, if_pos rfl]
  | cons a f ih =>
      rw [List.mem_cons, not_or] at h
      rw [List.cons_append, frames, if_neg (Ne.symm h.1), ih h.2]

theorem frames_of_cut_some (s f r : List α) (h : cut sep s = some (f, r)) :
    frames sep s = (f :: (frames sep r).1, (frames sep r).2) := by
  rcases eq_of_cut sep s f r h with ⟨rfl, hf⟩
  exact frames_piece sep f r hf

/-- No delimiter is left. -/
theorem not_mem_frames (s : List α) : sep ∉ (frames sep s).2 := by
  induction s with
  | nil => exact List.not_mem_nil
  | cons a s ih =>
      rw [frames]
      by_cases ha : a = sep
      · rw [if_pos ha]
        exact ih
      · rw [if_neg ha]
        cases (frames sep s).1 with
        | nil => exact fun h => (List.mem_cons.mp h).elim (fun hc => ha hc.symm) ih
        | cons f fs => exact ih

/-- What follows the last delimiter waits for the next part of the stream. -/
theorem frames_append (s t : List α) :
    frames sep (s ++ t)
      = ((frames sep s).1 ++ (frames sep ((frames sep s).2 ++ t)).1,
        (frames sep ((frames sep s).2 ++ t)).2) := by
  induction s with
  | nil => rfl
  | cons a s ih =>
      rw [List.cons_append, frames, frames, ih]
      -- A piece that is open at the end of the first part is ended by the second one.
      by_cases ha : a = sep
      · rw [if_pos ha, if_pos ha]
        rfl
      · rw [if_neg ha, if_neg ha]
        cases (frames sep s).1 with
        | nil => rw [List.nil_append, List.nil_append, List.cons_append, frames, if_neg ha]
        | cons f fs => rfl

/-- The pieces are those that were put together. -/
theorem frames_delimited (fs : List (List α)) (r : List α) (hfs : ∀ f ∈ fs, sep ∉ f)
    (hr : sep ∉ r) : frames sep (fs.flatMap (· ++ [sep]) ++ r) = (fs, r) := by
  induction fs with
  | nil => exact frames_free sep r hr
  | cons f fs ih =>
      have hsplit : (f :: fs).flatMap (· ++ [sep]) ++ r
          = f ++ sep :: (fs.flatMap (· ++ [sep]) ++ r) := by
        rw [List.flatMap_cons, List.append_assoc, List.append_assoc, List.singleton_append]
      rw [hsplit, frames_piece sep f _ (hfs f List.mem_cons_self),
        ih (fun g hg => hfs g (List.mem_cons_of_mem f hg))]

/-- Every stream is put together from its pieces. -/
theorem delimited_frames (s : List α) :
    s = (frames sep s).1.flatMap (· ++ [sep]) ++ (frames sep s).2 ∧
      ∀ f ∈ (frames sep s).1, sep ∉ f := by
  induction s with
  | nil => exact ⟨rfl, fun _ hf => absurd hf List.not_mem_nil⟩
  | cons a s ih =>
      rcases ih with ⟨hsplit, hfree⟩
      rw [frames]
      by_cases ha : a = sep
      · rw [if_pos ha]
        refine ⟨?_, List.forall_mem_cons.mpr ⟨List.not_mem_nil, hfree⟩⟩
        rw [List.flatMap_cons, List.nil_append, List.append_assoc, List.singleton_append, ← hsplit,
          ha]
      · rw [if_neg ha]
        cases hpieces : (frames sep s).1 with
        | nil =>
            rw [hpieces, List.flatMap_nil, List.nil_append] at hsplit
            exact ⟨congrArg (a :: ·) hsplit, fun _ hf => absurd hf List.not_mem_nil⟩
        | cons f fs =>
            rw [hpieces] at hsplit hfree
            rcases List.forall_mem_cons.mp hfree with ⟨hf, hfs⟩
            refine ⟨congrArg (a :: ·) hsplit, List.forall_mem_cons.mpr ⟨fun hmem => ?_, hfs⟩⟩
            rcases List.mem_cons.mp hmem with hc | hc
            · exact ha hc.symm
            · exact hf hc

end Framing

section Feeding

/-- A reader: what it has kept, what it has emitted, and what it goes by when it
    emits. -/
structure Feed (α β ε : Type) where
  kept : List α
  emitted : List β
  mode : ε

namespace Feed

variable {β ε σ : Type} (emit : ε → List α → List β)

/-- All pieces of what is kept are taken. -/
def drain (st : Feed α β ε) : Feed α β ε where
  kept := (frames sep st.kept).2
  emitted := st.emitted ++ (frames sep st.kept).1.flatMap (emit st.mode)
  mode := st.mode

/-- More of the stream arrives. -/
def feed (st : Feed α β ε) (chunk : List α) : Feed α β ε :=
  drain sep emit { st with kept := st.kept ++ chunk }

theorem drain_free (st : Feed α β ε) (h : sep ∉ st.kept) : drain sep emit st = st := by
  rw [drain, frames_free sep st.kept h, List.flatMap_nil, List.append_nil]

/-- One round. -/
theorem drain_of_cut (st : Feed α β ε) (f r : List α) (h : cut sep st.kept = some (f, r)) :
    drain sep emit st = drain sep emit ⟨r, st.emitted ++ emit st.mode f, st.mode⟩ := by
  rw [drain, drain, frames_of_cut_some sep st.kept f r h, List.flatMap_cons, List.append_assoc]

theorem feed_nil (st : Feed α β ε) (h : sep ∉ st.kept) : feed sep emit st [] = st := by
  rw [feed, List.append_nil]
  exact drain_free sep emit st h

/-- What is fed may as well arrive in two parts. -/
theorem feed_append (st : Feed α β ε) (s t : List α) :
    feed sep emit (feed sep emit st s) t = feed sep emit st (s ++ t) := by
  simp only [feed, drain, ← List.append_assoc, frames_append sep (st.kept ++ s) t,
    List.flatMap_append]

/-- The chunks do not matter. -/
theorem foldl_feed (chunks : List (List α)) (st : Feed α β ε) (h : sep ∉ st.kept) :
    chunks.foldl (feed sep emit) st = feed sep emit st chunks.flatten := by
  induction chunks generalizing st with
  | nil => exact (feed_nil sep emit st h).symm
  | cons chunk chunks ih =>
      rw [List.foldl_cons, ih _ (not_mem_frames sep _), feed_append, List.flatten_cons]

/-- A loop that takes one piece a round, with rounds enough, takes all of them. -/
theorem view_loop (view : σ → Feed α β ε) (loop : Nat → σ → σ) (hzero : ∀ st, loop 0 st = st)
    (hnone : ∀ n st, cut sep (view st).kept = none → loop (n + 1) st = st)
    (hsome : ∀ n st f r, cut sep (view st).kept = some (f, r) →
      ∃ st', view st' = ⟨r, (view st).emitted ++ emit (view st).mode f, (view st).mode⟩ ∧
        loop (n + 1) st = loop n st')
    (n : Nat) (st : σ) (hn : (view st).kept.length ≤ n) :
    view (loop n st) = drain sep emit (view st) := by
  -- Every round takes a piece, so as many rounds as there are bytes are enough.
  induction n generalizing st with
  | zero =>
      have hnil : (view st).kept = [] := List.length_eq_zero_iff.mp (Nat.le_zero.mp hn)
      rw [hzero, drain_free sep emit _ (hnil ▸ List.not_mem_nil)]
  | succ n ih =>
      cases hcut : cut sep (view st).kept with
      | none =>
          rw [hnone n st hcut, drain_free sep emit _ ((cut_eq_none_iff sep _).mp hcut)]
      | some p =>
          rcases hsome n st p.1 p.2 hcut with ⟨st', hview, hloop⟩
          have hlt := length_of_cut sep _ p.1 p.2 hcut
          have hrest : (view st').kept.length ≤ n := by
            rw [hview]
            exact Nat.le_of_lt_succ (Nat.lt_of_lt_of_le hlt hn)
          rw [hloop, ih st' hrest, hview, drain_of_cut sep emit _ p.1 p.2 hcut]

end Feed

end Feeding

end Delimited

end MzzPlork

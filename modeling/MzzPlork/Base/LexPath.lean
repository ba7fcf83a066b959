import Mathlib.Data.List.Basic
import Mathlib.Data.List.Infix

/-!
# Lexical Paths

What file a path string names, decided from the string alone.

A path is cut at its separators and the pieces are walked from left to right:
an empty piece and `.` stay where they are, `..` climbs one level, anything
else descends. The first piece is the root of the walk (a drive, or the empty
piece in front of a leading separator) and is never climbed out of. There are
no links, and names are compared letter by letter, as on a volume that tells
upper case from lower case: two strings denote the same file exactly when their
walks end at the same location.

Two constructions programs use on path strings are described once here.
Writing a separator and a relative path behind a directory continues the walk
from that directory (`locate_join`). Writing a suffix behind a path renames
its last piece and leaves the walk before it alone, so a suffixed path is
never the path itself (`locate_append_ne`), whatever the last piece was.

## Main definitions

* `PathSyntax`: The separators and the dot of a path language.
* `PathSyntax.components`: The pieces of a path string.
* `PathSyntax.descend`: One step of the walk.
* `PathSyntax.resolve`: The walk over a list of pieces.
* `PathSyntax.locate`: The location a path string names.
* `PathSyntax.dirOf`: The location of the directory holding a path.
* `PathSyntax.lastPiece`: The piece a path ends in.
* `PathSyntax.parents`: The locations of the directories on the way to a path.
* `Inside`: Lying strictly below a directory.
* `Along`: Lying below a directory or on the way to it.

## Theorems

* `components_join`: The pieces of a directory and a relative path.
* `components_append`: A suffix only touches the last piece.
* `locate_join`: A relative path continues the walk of its directory.
* `locate_mem_parents`: A path with a separator behind it passes through itself.
* `locate_eq`: A path is its directory's walk and one more step.
* `locate_append`: A suffixed path names a child of the path's directory.
* `locate_append_ne`: A suffixed path is not the path itself.
* `along_of_inside_append`: A path whose suffixed form lies below a directory.
* `dirOf_append`: A suffixed path lies in the directory of the path.
* `dirOf_mem_parents`: The directory holding a path is on the way to it.
* `resolve_names`: A walk over ordinary names.
* `exists_climb`: What a walk comes to, wherever it starts.
* `rest_eq_of_resolve`: One relative path walked from two directories.
* `locate_ne_nil`: The root of a walk is never climbed out of.
-/

namespace MzzPlork

/-- What a path language needs to be cut up: which characters separate
    components, and which character `.` and `..` are made of. -/
structure PathSyntax (α : Type) where
  isSep : α → Bool
  dot : α
  dot_not_sep : isSep dot = false

/-- A location in a file tree: the names on the way down from the root. -/
abbrev Loc (ν : Type) := List ν

/-- Strictly below `base`. -/
def Inside {ν : Type} (base l : Loc ν) : Prop :=
  ∃ rest, rest ≠ [] ∧ l = base ++ rest

theorem not_inside_self {ν : Type} (base : Loc ν) : ¬ Inside base base := by
  rintro ⟨rest, hne, heq⟩
  exact hne (List.self_eq_append_right.mp heq)

theorem inside_append {ν : Type} (base rest : Loc ν) (h : rest ≠ []) :
    Inside base (base ++ rest) :=
  ⟨rest, h, rfl⟩

theorem Inside.below {ν : Type} {base l : Loc ν} (h : Inside base l) : base <+: l := by
  rcases h with ⟨rest, _, rfl⟩
  exact List.prefix_append base rest

theorem inside_iff {ν : Type} (base l : Loc ν) : Inside base l ↔ base <+: l ∧ l ≠ base := by
  constructor
  · intro h
    refine ⟨h.below, fun heq => ?_⟩
    rw [heq] at h
    exact not_inside_self base h
  · rintro ⟨⟨rest, rfl⟩, hne⟩
    refine ⟨rest, fun hnil => hne ?_, rfl⟩
    rw [hnil, List.append_nil]

instance {ν : Type} [DecidableEq ν] (base l : Loc ν) : Decidable (Inside base l) :=
  decidable_of_iff _ (inside_iff base l).symm

/-- On the way to `base`, or below it. -/
def Along {ν : Type} (base l : Loc ν) : Prop := l <+: base ∨ Inside base l

instance {ν : Type} [DecidableEq ν] (base l : Loc ν) : Decidable (Along base l) :=
  inferInstanceAs (Decidable (_ ∨ _))

theorem along_of_prefix {ν : Type} (base l : Loc ν) (h : base <+: l) : Along base l := by
  rcases h with ⟨rest, rfl⟩
  by_cases hne : rest = []
  · rw [hne, List.append_nil]
    exact Or.inl (List.prefix_refl base)
  · exact Or.inr (inside_append base rest hne)

/-- Climbing from below a directory ends below it or on the way to it. -/
theorem along_dropLast {ν : Type} (base l : Loc ν) (h : base <+: l) : Along base l.dropLast := by
  rcases h with ⟨rest, rfl⟩
  rcases List.eq_nil_or_concat rest with rfl | ⟨rest', x, rfl⟩
  · rw [List.append_nil]
    exact Or.inl (List.dropLast_prefix base)
  · rw [List.concat_eq_append, ← List.append_assoc, List.dropLast_concat]
    exact along_of_prefix _ _ (List.prefix_append base rest')

namespace PathSyntax

section Pieces

variable {α : Type} (P : PathSyntax α)

/-- The pieces of a path string, empty ones included. -/
def components (s : List α) : List (List α) := s.splitOnP P.isSep

/-- An ordinary name: not one of the pieces the walk treats specially. -/
def IsName (c : List α) : Prop := c ≠ [] ∧ c ≠ [P.dot] ∧ c ≠ [P.dot, P.dot]

/-- A suffix of three or more characters makes a name out of anything. -/
theorem isName_append (c e : List α) (he : 3 ≤ e.length) : P.IsName (c ++ e) := by
  refine ⟨fun h => ?_, fun h => ?_, fun h => ?_⟩ <;>
  · have hlen := congrArg List.length h
    simp only [List.length_append, List.length_cons, List.length_nil] at hlen
    omega

theorem components_ne_nil (s : List α) : P.components s ≠ [] :=
  List.splitOnP_ne_nil _ _

/-- The piece a path ends in. -/
def lastPiece (s : List α) : List α := (P.components s).getLast (P.components_ne_nil s)

theorem components_eq (s : List α) :
    P.components s = (P.components s).dropLast ++ [P.lastPiece s] :=
  (List.dropLast_append_getLast (P.components_ne_nil s)).symm

/-- The pieces of a directory, a separator and a relative path. -/
theorem components_join (dir rel : List α) (sep : α) (hsep : P.isSep sep = true) :
    P.components (dir ++ sep :: rel) = P.components dir ++ P.components rel :=
  List.splitOnP_append_cons dir rel hsep

/-- A suffix without separators lengthens the last piece and leaves the
    others as they are. -/
theorem components_append (s e : List α) (he : ∀ x ∈ e, P.isSep x = false) :
    P.components (s ++ e) = (P.components s).dropLast ++ [P.lastPiece s ++ e] := by
  suffices h : ∃ init last, P.components s = init ++ [last] ∧
      P.components (s ++ e) = init ++ [last ++ e] by
    rcases h with ⟨init, last, h1, h2⟩
    simp only [lastPiece, h1, h2, List.dropLast_concat, List.getLast_concat]
  induction s with
  | nil =>
      refine ⟨[], [], rfl, ?_⟩
      rw [List.nil_append, components, List.splitOnP_eq_singleton he]
      rfl
  | cons x s ih =>
      -- A separator opens a new piece in front, anything else joins the first one.
      rcases ih with ⟨init, last, h1, h2⟩
      rw [components] at h1 h2
      simp only [components, List.cons_append, List.splitOnP_cons_eq_if_modifyHead, h1, h2]
      by_cases hx : P.isSep x = true
      · refine ⟨[] :: init, last, ?_, ?_⟩ <;> rw [if_pos hx] <;> rfl
      · rw [if_neg hx, if_neg hx]
        cases init with
        | nil => exact ⟨[], x :: last, rfl, rfl⟩
        | cons i is => exact ⟨(x :: i) :: is, last, rfl, rfl⟩

theorem lastPiece_append (s e : List α) (he : ∀ x ∈ e, P.isSep x = false) :
    P.lastPiece (s ++ e) = P.lastPiece s ++ e := by
  simp only [lastPiece, P.components_append s e he, List.getLast_concat]

end Pieces

section Walk

variable {α : Type} [DecidableEq α] (P : PathSyntax α)

instance (c : List α) : Decidable (P.IsName c) := by unfold IsName; infer_instance

/-- One step of the walk. -/
def descend (l : Loc (List α)) (c : List α) : Loc (List α) :=
  if c = [] ∨ c = [P.dot] then l
  else if c = [P.dot, P.dot] then (if l.length ≤ 1 then l else l.dropLast)
  else l ++ [c]

/-- The walk over a list of pieces. -/
def resolve (base : Loc (List α)) (cs : List (List α)) : Loc (List α) :=
  cs.foldl P.descend base

/-- The location a path string names. -/
def locate (s : List α) : Loc (List α) :=
  match P.components s with
  | [] => []
  | d :: cs => P.resolve [d] cs

/-- The location of the directory holding a path. -/
def dirOf (s : List α) : Loc (List α) :=
  match (P.components s).dropLast with
  | [] => []
  | d :: ds => P.resolve [d] ds

/-- The locations of the directories named by the proper prefixes of a path,
    outermost first. -/
def parents (s : List α) : List (Loc (List α)) :=
  match (P.components s).dropLast with
  | [] => []
  | d :: ds => ds.scanl P.descend [d]

theorem descend_name (l : Loc (List α)) (c : List α) (h : P.IsName c) :
    P.descend l c = l ++ [c] := by
  rw [descend, if_neg (by rintro (hc | hc); exacts [h.1 hc, h.2.1 hc]), if_neg h.2.2]

/-- The three ways a step can go. -/
theorem descend_cases (l : Loc (List α)) (c : List α) :
    P.descend l c = l ∨ P.descend l c = l.dropLast ∨ P.descend l c = l ++ [c] := by
  rw [descend]
  split
  · exact Or.inl rfl
  · split
    · split
      · exact Or.inl rfl
      · exact Or.inr (Or.inl rfl)
    · exact Or.inr (Or.inr rfl)

theorem resolve_append (base : Loc (List α)) (cs ds : List (List α)) :
    P.resolve base (cs ++ ds) = P.resolve (P.resolve base cs) ds :=
  List.foldl_append ..

/-- Names are only ever descended into. -/
theorem resolve_names (base : Loc (List α)) (cs : List (List α)) (h : ∀ c ∈ cs, P.IsName c) :
    P.resolve base cs = base ++ cs := by
  induction cs generalizing base with
  | nil => exact (List.append_nil base).symm
  | cons c cs ih =>
      have hrest := ih (P.descend base c) (fun c' hc' => h c' (List.mem_cons_of_mem c hc'))
      rw [descend_name P base c (h c List.mem_cons_self), List.append_assoc] at hrest
      rw [resolve, List.foldl_cons, descend_name P base c (h c List.mem_cons_self)]
      exact hrest

theorem resolve_concat (base : Loc (List α)) (cs : List (List α)) (c : List α) :
    P.resolve base (cs ++ [c]) = P.descend (P.resolve base cs) c :=
  P.resolve_append base cs [c]

/-- A path is the walk to its directory and one more step. Only a path with a
    single piece has no directory to step from. -/
theorem locate_eq (s : List α) :
    (P.locate s = [P.lastPiece s] ∧ P.dirOf s = [] ∧ P.parents s = []) ∨
    (P.locate s = P.descend (P.dirOf s) (P.lastPiece s) ∧ P.dirOf s ∈ P.parents s) := by
  have hs := P.components_eq s
  rw [locate, dirOf, parents]
  rcases hd : (P.components s).dropLast with _ | ⟨d, ds⟩
  · rw [hd, List.nil_append] at hs
    rw [hs]
    exact Or.inl ⟨rfl, rfl, rfl⟩
  · rw [hd, List.cons_append] at hs
    rw [hs]
    refine Or.inr ⟨P.resolve_concat [d] ds _, ?_⟩
    -- The end of a fold is the last entry of its scan.
    simp only [resolve]
    generalize ([d] : Loc (List α)) = start
    clear hs hd
    induction ds generalizing start with
    | nil =>
        rw [List.scanl_nil]
        exact List.mem_singleton_self start
    | cons c cs ih =>
        rw [List.scanl_cons]
        exact List.mem_cons_of_mem start (ih (P.descend start c))

theorem dirOf_mem_parents (s : List α) : P.dirOf s = [] ∨ P.dirOf s ∈ P.parents s := by
  rcases P.locate_eq s with h | h
  · exact Or.inl h.2.1
  · exact Or.inr h.2

/-- A relative path behind a directory continues the directory's walk. -/
theorem locate_join (dir rel : List α) (sep : α) (hsep : P.isSep sep = true) :
    P.locate (dir ++ sep :: rel) = P.resolve (P.locate dir) (P.components rel) := by
  rcases List.exists_cons_of_ne_nil (P.components_ne_nil dir) with ⟨d, cs, hd⟩
  rw [locate, locate, components_join P dir rel sep hsep, hd]
  exact P.resolve_append [d] cs _

/-- A walk keeps its root. -/
theorem head?_resolve (cs : List (List α)) (x : List α) (l : Loc (List α)) :
    (P.resolve (x :: l) cs).head? = some x := by
  induction cs generalizing l with
  | nil => rfl
  | cons c cs ih =>
      change (P.resolve (P.descend (x :: l) c) cs).head? = some x
      rcases P.descend_cases (x :: l) c with h | h | h
      · rw [h]
        exact ih l
      · cases l with
        | nil =>
            -- The root itself is not climbed out of.
            rw [descend] at h ⊢
            split
            · exact ih []
            · split
              · rw [if_pos (by rw [List.length_singleton])]
                exact ih []
              · exact ih [c]
        | cons y ys =>
            rw [h, List.dropLast_cons_cons]
            exact ih _
      · rw [h, List.cons_append]
        exact ih _

/-- The root of a walk is never climbed out of. -/
theorem length_resolve_pos (cs : List (List α)) (l : Loc (List α)) (h : 0 < l.length) :
    0 < (P.resolve l cs).length := by
  induction cs generalizing l with
  | nil => exact h
  | cons c cs ih =>
      -- Only `..` shortens a location, and not one of length one.
      refine ih _ ?_
      rw [descend]
      split
      · exact h
      · split
        · split
          · exact h
          · rw [List.length_dropLast]
            omega
        · rw [List.length_append]
          omega

theorem locate_ne_nil (s : List α) : P.locate s ≠ [] := by
  rcases List.exists_cons_of_ne_nil (P.components_ne_nil s) with ⟨d, cs, hd⟩
  rw [locate, hd]
  exact List.ne_nil_of_length_pos
    (P.length_resolve_pos cs [d] (by rw [List.length_singleton]; omega))

/-- A separator behind a path makes the path itself a directory on the way. -/
theorem locate_mem_parents (dir : List α) (sep : α) (hsep : P.isSep sep = true) :
    P.locate dir ∈ P.parents (dir ++ [sep]) := by
  have hcomponents : P.components (dir ++ [sep]) = P.components dir ++ [[]] :=
    components_join P dir [] sep hsep
  have hdir : P.dirOf (dir ++ [sep]) = P.locate dir := by
    rw [dirOf, locate, hcomponents, List.dropLast_concat]
  have hmem := (P.dirOf_mem_parents (dir ++ [sep])).resolve_left (hdir ▸ P.locate_ne_nil dir)
  rwa [hdir] at hmem

/-- What a walk comes to, wherever it starts: some names are climbed out of, as
    far as there are any below the root, and others are descended into. -/
theorem exists_climb (cs : List (List α)) : ∃ k ns, ∀ l : Loc (List α), l ≠ [] →
    P.resolve l cs = l.take (max 1 (l.length - k)) ++ ns := by
  induction cs using List.reverseRecOn with
  | nil =>
      refine ⟨0, [], fun l hl => ?_⟩
      have hpos := List.length_pos_of_ne_nil hl
      rw [List.append_nil, List.take_of_length_le (by omega)]
      rfl
  | append_singleton cs c ih =>
      rcases ih with ⟨k, ns, hwalk⟩
      by_cases hstay : c = [] ∨ c = [P.dot]
      · refine ⟨k, ns, fun l hl => ?_⟩
        rw [P.resolve_concat, hwalk l hl, descend, if_pos hstay]
      by_cases hup : c = [P.dot, P.dot]
      · rcases List.eq_nil_or_concat ns with rfl | ⟨ns', x, rfl⟩
        -- There is nothing left to climb out of but what the walk started with.
        · refine ⟨k + 1, [], fun l hl => ?_⟩
          have hpos := List.length_pos_of_ne_nil hl
          rw [P.resolve_concat, hwalk l hl, descend, if_neg hstay, if_pos hup, List.append_nil,
            List.append_nil, List.length_take]
          split
          · rw [show max 1 (l.length - k) = 1 by omega,
              show max 1 (l.length - (k + 1)) = 1 by omega]
          · rw [List.dropLast_eq_take, List.take_take, List.length_take]
            congr 1
            omega
        · refine ⟨k, ns', fun l hl => ?_⟩
          have hpos := List.length_pos_of_ne_nil hl
          have hlong : ¬ (l.take (max 1 (l.length - k)) ++ ns'.concat x).length ≤ 1 := by
            rw [List.length_append, List.length_take, List.length_concat]
            omega
          rw [P.resolve_concat, hwalk l hl, descend, if_neg hstay, if_pos hup, if_neg hlong,
            List.concat_eq_append, ← List.append_assoc, List.dropLast_concat]
      · refine ⟨k, ns ++ [c], fun l hl => ?_⟩
        rw [P.resolve_concat, hwalk l hl, descend, if_neg hstay, if_neg hup, List.append_assoc]

section Beside

variable (bound : Loc (List α))

/-- Two walks side by side, the second one name deeper: they share what is left
    of the way to `bound`, and everything behind the extra name. Once that name
    has been climbed out of they are the same walk. -/
def Beside (l l' : Loc (List α)) : Prop :=
  l = l' ∨ ∃ r x t, r ≠ [] ∧ r ++ [x] <+: bound ∧ l = r ++ t ∧ l' = r ++ x :: t

theorem beside_descend (l l' : Loc (List α)) (c : List α) (h : Beside bound l l') :
    Beside bound (P.descend l c) (P.descend l' c) := by
  rcases h with rfl | ⟨r, x, t, hr, hx, rfl, rfl⟩
  · exact Or.inl rfl
  have hlen := List.length_pos_of_ne_nil hr
  simp only [descend]
  split
  · exact Or.inr ⟨r, x, t, hr, hx, rfl, rfl⟩
  · split
    · rcases List.eq_nil_or_concat t with rfl | ⟨t', y, rfl⟩
      · -- The second walk climbs out of the extra name, the first one above it.
        have hlong : ¬ (r ++ [x]).length ≤ 1 := by
          rw [List.length_append, List.length_singleton]
          omega
        rw [List.append_nil, if_neg hlong, List.dropLast_concat]
        by_cases hone : r.length ≤ 1
        · rw [if_pos hone]
          exact Or.inl rfl
        · rw [if_neg hone]
          have hsplit := List.dropLast_append_getLast hr
          refine Or.inr ⟨r.dropLast, r.getLast hr, [], fun hnil => hone ?_, ?_, ?_, ?_⟩
          · have hcount := congrArg List.length hnil
            rw [List.length_dropLast, List.length_nil] at hcount
            omega
          · rw [hsplit]
            exact (List.prefix_append r [x]).trans hx
          · rw [List.append_nil]
          · rw [hsplit]
      · have hlong : ¬ (r ++ t'.concat y).length ≤ 1 := by
          rw [List.length_append, List.length_concat]
          omega
        have hlong' : ¬ (r ++ x :: t'.concat y).length ≤ 1 := by
          rw [List.length_append, List.length_cons]
          omega
        rw [if_neg hlong, if_neg hlong', List.concat_eq_append, ← List.append_assoc,
          ← List.cons_append, ← List.append_assoc, List.dropLast_concat, List.dropLast_concat]
        exact Or.inr ⟨r, x, t', hr, hx, rfl, rfl⟩
    -- A name goes behind both walks.
    · exact Or.inr ⟨r, x, t ++ [c], hr, hx, List.append_assoc .., by
        rw [List.append_assoc, List.cons_append]⟩

theorem beside_resolve (l l' : Loc (List α)) (cs : List (List α)) (h : Beside bound l l') :
    Beside bound (P.resolve l cs) (P.resolve l' cs) := by
  induction cs generalizing l l' with
  | nil => exact h
  | cons c cs ih => exact ih _ _ (P.beside_descend bound l l' c h)

/-- One relative path walked from two directories, one inside a subdirectory of
    where the other lies: if neither walk leaves its directory for good, both
    end at the same place in it. -/
theorem rest_eq_of_resolve (base : Loc (List α)) (name sub : List α) (hbase : base ≠ [])
    (hne : name ≠ sub) (cs : List (List α)) (t t' : Loc (List α))
    (h : P.resolve (base ++ [name]) cs = base ++ [name] ++ t)
    (h' : P.resolve (base ++ [sub, name]) cs = base ++ [sub, name] ++ t') : t = t' := by
  have hstart : Beside (base ++ [sub]) (base ++ [name]) (base ++ [sub, name]) :=
    Or.inr ⟨base, sub, [name], hbase, List.prefix_refl _, rfl, rfl⟩
  rcases P.beside_resolve (base ++ [sub]) _ _ cs hstart with heq | ⟨r, x, u, hr, hx, hl, hl'⟩
  · -- Had the walks met, `name` and `sub` would be the same child of `base`.
    rw [h, h', List.append_assoc, List.append_assoc, List.append_right_inj] at heq
    exact absurd (List.cons.inj heq).1 hne
  · rw [h] at hl
    rw [h'] at hl'
    -- Both rests are what `u` has behind the names still missing from `base`.
    have hshort : r.length ≤ base.length := by
      have hle := hx.length_le
      simp only [List.length_append, List.length_singleton] at hle
      omega
    have hskip : ∀ (a b : Loc (List α)) n, a.length ≤ n →
        (a ++ b).drop n = b.drop (n - a.length) := by
      intro a b n hn
      rw [List.drop_append, List.drop_eq_nil_of_le hn, List.nil_append]
    have ht : t = u.drop (base.length + 1 - r.length) := by
      rw [← hskip r u _ (by omega), ← hl, hskip _ t _ (by simp only [List.length_append,
        List.length_singleton, le_refl])]
      simp only [List.length_append, List.length_singleton, Nat.sub_self, List.drop_zero]
    have ht' : t' = (x :: u).drop (base.length + 2 - r.length) := by
      rw [← hskip r (x :: u) _ (by omega), ← hl', hskip _ t' _ (by simp only [List.length_append,
        List.length_cons, List.length_nil, le_refl])]
      simp only [List.length_append, List.length_cons, List.length_nil, Nat.sub_self,
        List.drop_zero]
    rw [ht, ht', show base.length + 2 - r.length = base.length + 1 - r.length + 1 by omega,
      List.drop_succ_cons]

end Beside

section Suffix

variable (s e : List α) (he : ∀ x ∈ e, P.isSep x = false)

include he

theorem dirOf_append : P.dirOf (s ++ e) = P.dirOf s := by
  rw [dirOf, dirOf, P.components_append s e he, List.dropLast_concat]

/-- A suffixed path names a child of the directory the path lies in. -/
theorem locate_append (hlen : 3 ≤ e.length) :
    P.locate (s ++ e) = P.dirOf s ++ [P.lastPiece s ++ e] := by
  rw [← P.dirOf_append s e he, ← P.lastPiece_append s e he]
  rcases P.locate_eq (s ++ e) with ⟨hl, hd, _⟩ | ⟨hl, _⟩
  · rw [hl, hd, List.nil_append]
  · rw [hl, P.lastPiece_append s e he, P.descend_name _ _ (P.isName_append _ e hlen)]

/-- A suffixed path is never the path itself. -/
theorem locate_append_ne (hlen : 3 ≤ e.length) : P.locate (s ++ e) ≠ P.locate s := by
  rw [P.locate_append s e he hlen]
  have hpiece : P.lastPiece s ++ e ≠ P.lastPiece s := by
    intro h
    have hl := congrArg List.length h
    rw [List.length_append] at hl
    omega
  rcases P.locate_eq s with ⟨hl, hd, _⟩ | ⟨hl, _⟩
  · rw [hl, hd, List.nil_append]
    intro h
    exact hpiece (List.singleton_inj.mp h)
  · rw [hl]
    intro h
    -- A step never ends up one level below its start under another name.
    rcases P.descend_cases (P.dirOf s) (P.lastPiece s) with hc | hc | hc <;> rw [hc] at h
    · have hl := congrArg List.length h
      rw [List.length_append, List.length_singleton] at hl
      omega
    · have hl := congrArg List.length h
      rw [List.length_append, List.length_singleton, List.length_dropLast] at hl
      omega
    · exact hpiece (List.singleton_inj.mp (List.append_cancel_left h))

/-- If a suffixed path lies below a directory, the path itself does not leave
    the way to it. -/
theorem along_of_inside_append (hlen : 3 ≤ e.length) (base : Loc (List α))
    (h : Inside base (P.locate (s ++ e))) : Along base (P.locate s) := by
  rw [P.locate_append s e he hlen, inside_iff] at h
  -- The suffixed path is one name below its directory, so that one is not above `base`.
  have hdir : base <+: P.dirOf s :=
    (List.prefix_concat_iff.mp h.1).resolve_left (fun heq => h.2 heq.symm)
  rcases P.locate_eq s with ⟨hl, hd, _⟩ | ⟨hl, _⟩
  · rw [hd, List.prefix_nil] at hdir
    rw [hdir]
    exact along_of_prefix _ _ List.nil_prefix
  · rcases P.descend_cases (P.dirOf s) (P.lastPiece s) with hc | hc | hc <;> rw [hl, hc]
    · exact along_of_prefix _ _ hdir
    · exact along_dropLast _ _ hdir
    · exact along_of_prefix _ _ (hdir.trans (List.prefix_append _ _))

end Suffix

end Walk

end PathSyntax

end MzzPlork

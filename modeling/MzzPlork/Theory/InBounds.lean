import MzzPlork.Core.JsonTrace
import MzzPlork.Theory.Accepts

/-!
# The Parser's Cursor Stays in the Text

Whatever the text, `Parse` comes to an end, and on the way the cursor only ever
moves forwards and never past the end of the text. So no position at which the
text is read is out of range, and every value takes at least a byte.

`Path` is what the notes of one function have in common: they lead from where
the cursor was to where it is left. It composes, and the functions are gone
through once, by induction on the fuel. That there is enough of it is known
from the piece of the text that each call takes.

## Main definitions

* `Path`: Notes that lead from one position to another.
* `Moves`: Notes that lead from one cursor to another.
* `Follows`: Notes that lead to what a function returns.

## Theorems

* `follows_all`: The notes of every function lead to what it returns.
* `parseValue_consumes`: A value takes a byte at least.
* `parse_inBounds`: The parser ends, in bounds and forwards.
-/

namespace MzzPlork

namespace JsonText

section Paths

/-- The notes lead from one position to another, forwards and not past a
    bound. The text is read where the cursor has been. -/
inductive Path (n : Nat) : Nat → List Note → Nat → Prop where
  | nil (p : Nat) : Path n p [] p
  | moved (p p' q : Nat) (l : List Note) (hle : p ≤ p') (hn : p' ≤ n) (h : Path n p' l q) :
      Path n p (.moved p' :: l) q
  | read (p p' q : Nat) (l : List Note) (hle : p' ≤ p) (h : Path n p l q) :
      Path n p (.read p' :: l) q
  | parsed (p first last q : Nat) (l : List Note) (hlt : first < last) (h : Path n p l q) :
      Path n p (.parsed first last :: l) q

namespace Path

variable {n p q r : Nat} {l l' : List Note}

theorem append (h : Path n p l q) (h' : Path n q l' r) : Path n p (l ++ l') r := by
  induction h with
  | nil p => exact h'
  | moved p p' q l hle hn _ ih => exact .moved p p' r _ hle hn (ih h')
  | read p p' q l hle _ ih => exact .read p p' r _ hle (ih h')
  | parsed p first last q l hlt _ ih => exact .parsed p first last r _ hlt (ih h')

theorem le (h : Path n p l q) : p ≤ q := by
  induction h with
  | nil p => exact Nat.le_refl p
  | moved p p' q l hle _ _ ih => exact Nat.le_trans hle ih
  | read p p' q l _ _ ih => exact ih
  | parsed p first last q l _ _ ih => exact ih

theorem le_bound (h : Path n p l q) (hp : p ≤ n) : q ≤ n := by
  induction h with
  | nil p => exact hp
  | moved p p' q l _ hn _ ih => exact ih hn
  | read p p' q l _ _ ih => exact ih hp
  | parsed p first last q l _ _ ih => exact ih hp

/-- The positions do not decrease, nor do they exceed the bound. -/
theorem positions_sorted (h : Path n p l q) :
    (p :: positions l).Pairwise (· ≤ ·) ∧ ∀ p' ∈ positions l, p' ≤ n := by
  induction h with
  | nil p => exact ⟨List.pairwise_singleton _ p, fun p' hp' => absurd hp' List.not_mem_nil⟩
  | moved p p' q l hle hn _ ih =>
      rcases ih with ⟨hsorted, hbound⟩
      refine ⟨?_, List.forall_mem_cons.mpr ⟨hn, hbound⟩⟩
      refine List.pairwise_cons.mpr ⟨List.forall_mem_cons.mpr ⟨hle, fun p'' hp'' => ?_⟩, hsorted⟩
      exact Nat.le_trans hle ((List.pairwise_cons.mp hsorted).1 p'' hp'')
  | read p p' q l _ _ ih => exact ih
  | parsed p first last q l _ _ ih => exact ih

theorem reads_le (h : Path n p l q) (hp : p ≤ n) : ∀ p' ∈ reads l, p' ≤ n := by
  induction h with
  | nil p => exact fun p' hp' => absurd hp' List.not_mem_nil
  | moved p p' q l _ hn _ ih => exact ih hn
  | read p p' q l hle _ ih =>
      exact List.forall_mem_cons.mpr ⟨Nat.le_trans hle hp, ih hp⟩
  | parsed p first last q l _ _ ih => exact ih hp

theorem values_lt (h : Path n p l q) : ∀ v ∈ values l, v.1 < v.2 := by
  induction h with
  | nil p => exact fun v hv => absurd hv List.not_mem_nil
  | moved p p' q l _ _ _ ih => exact ih
  | read p p' q l _ _ ih => exact ih
  | parsed p first last q l hlt _ ih => exact List.forall_mem_cons.mpr ⟨hlt, ih⟩

end Path

/-- The notes lead from one cursor to another in the same text. -/
structure Moves (c : Cursor) (l : List Note) (c' : Cursor) : Prop where
  text : c'.text = c.text
  path : Path c.text.length c.pos l c'.pos

namespace Moves

variable {c c' c'' : Cursor} {l l' : List Note}

theorem trans (h : Moves c l c') (h' : Moves c' l' c'') : Moves c (l ++ l') c'' :=
  ⟨h'.text.trans h.text, h.path.append (h.text ▸ h'.path)⟩

theorem inBounds (h : Moves c l c') (hc : c.pos ≤ c.text.length) : c'.pos ≤ c'.text.length := by
  rw [h.text]
  exact h.path.le_bound hc

/-- A piece of the text, in one bump of the position. -/
theorem of_took {u : Bytes} (h : Took c u c') (hc : c.pos ≤ c.text.length) :
    Moves c [.moved c'.pos] c' := by
  have hbound := h.inBounds hc
  have htext : c'.text = c.text := by rw [h.1, Cursor.text_advance]
  have hpos : c'.pos = c.pos + u.length := by rw [h.1, Cursor.pos_advance]
  refine ⟨htext, .moved _ _ _ _ ?_ (htext ▸ hbound) (.nil _)⟩
  exact hpos ▸ Nat.le_add_right _ _

end Moves

theorem moves_skipWhitespace (c : Cursor) (hc : c.pos ≤ c.text.length) :
    Moves c [.moved c.skipWhitespace.pos] c.skipWhitespace := by
  rcases took_skipWhitespace c with ⟨w, htook, -⟩
  exact Moves.of_took htook hc

theorem moves_one (c : Cursor) (b : UInt8) (h : c.peek = b) (hb : b ≠ 0)
    (hc : c.pos ≤ c.text.length) : Moves c [.moved (c.advance 1).pos] (c.advance 1) :=
  Moves.of_took (took_one c b h hb) hc

/-- `Consume` moves the cursor, by a byte at least where it returns true. -/
theorem moves_consume (c : Cursor) (b : UInt8) (hb : b ≠ 0) (hc : c.pos ≤ c.text.length) :
    ∃ c' found, c.consume b = (c', found) ∧ Moves c (consumeNotes c b) c' ∧
      (found = true → c.pos < c'.pos) := by
  have hskip := moves_skipWhitespace c hc
  have hbound := hskip.inBounds hc
  by_cases hpeek : c.skipWhitespace.peek = b
  · have hconsume : c.consume b = (c.skipWhitespace.advance 1, true) := by
      unfold Cursor.consume
      exact if_neg (not_not_intro hpeek)
    refine ⟨_, _, hconsume, ?_, fun _ => ?_⟩
    · rw [consumeNotes, hconsume]
      exact hskip.trans (moves_one _ b hpeek hb hbound)
    · rw [Cursor.pos_advance]
      exact Nat.lt_succ_of_le hskip.path.le
  · have hconsume : c.consume b = (c.skipWhitespace, false) := by
      unfold Cursor.consume
      exact if_pos hpeek
    refine ⟨_, _, hconsume, ?_, fun h => absurd h Bool.false_ne_true⟩
    rw [consumeNotes, hconsume]
    exact hskip.trans ⟨rfl, .moved _ _ _ _ (Nat.le_refl _) hbound (.nil _)⟩

/-- The notes lead to the cursor that a function leaves behind, if it returns
    at all, and that is so many bytes further on where it returns true. -/
inductive Follows {α : Type} (c : Cursor) (k : Nat) (l : List Note) : Outcome α → Prop where
  | ok (c' : Cursor) (a : α) (hk : c.pos + k ≤ c'.pos) (h : Moves c l c') : Follows c k l (.ok c' a)
  | error (c' : Cursor) (message : Bytes) (h : Moves c l c') : Follows c k l (.error c' message)
  | outOfFuel (q : Nat) (h : Path c.text.length c.pos l q) : Follows c k l .outOfFuel

namespace Follows

variable {α β : Type} {c c' : Cursor} {k k' : Nat} {l l' : List Note} {r : Outcome α}

/-- What was noted before comes in front. -/
theorem after (h : Moves c l c') (hk : c.pos + k ≤ c'.pos + k') (h' : Follows c' k' l' r) :
    Follows c k (l ++ l') r := by
  cases h' with
  | ok c'' a hk' h' => exact .ok c'' a (Nat.le_trans hk hk') (h.trans h')
  | error c'' message h' => exact .error c'' message (h.trans h')
  | outOfFuel q h' => exact .outOfFuel q (h.path.append (h.text ▸ h'))

/-- What comes behind need not move the cursor. -/
theorem onward (h : Moves c l c') (hk : c.pos + k ≤ c'.pos) (h' : Follows c' 0 l' r) :
    Follows c k (l ++ l') r :=
  after h hk h'

theorem bind {f : Cursor → α → Outcome β} {g : Cursor → List Note} (h : Follows c k l r)
    (hf : ∀ c' a, Moves c l c' → Follows c' 0 (g c') (f c' a)) :
    Follows c k (l ++ r.notes g) (r.bind f) := by
  cases h with
  | ok c' a hk h => exact (hf c' a h).onward h hk
  | error c' message h => exact .error c' message ((List.append_nil l).symm ▸ h)
  | outOfFuel q h => exact .outOfFuel q ((List.append_nil l).symm ▸ h)

theorem map (h : Follows c k l r) (f : α → β) : Follows c k l (r.bind fun c a => .ok c (f a)) := by
  cases h with
  | ok c' a hk h => exact .ok c' (f a) hk h
  | error c' message h => exact .error c' message h
  | outOfFuel q h => exact .outOfFuel q h

/-- The note of a call that returns true. -/
theorem parsed (h : Follows c 1 l r) :
    Follows c 1 (l ++ r.notes fun c' => [.parsed c.pos c'.pos]) r := by
  cases h with
  | ok c' a hk h =>
      refine .ok c' a hk ⟨h.text, h.path.append ?_⟩
      exact .parsed _ _ _ _ _ hk (.nil _)
  | error c' message h => exact .error c' message ((List.append_nil l).symm ▸ h)
  | outOfFuel q h => exact .outOfFuel q ((List.append_nil l).symm ▸ h)

theorem weaken (h : Follows c k l r) (hk : k' ≤ k) : Follows c k' l r := by
  cases h with
  | ok c' a hk' h => exact .ok c' a (Nat.le_trans (Nat.add_le_add_left hk _) hk') h
  | error c' message h => exact .error c' message h
  | outOfFuel q h => exact .outOfFuel q h

end Follows

end Paths

section Strings

/-- `Next` moves the cursor by a byte, or not at all at the end. -/
theorem moves_next (c : Cursor) (hc : c.pos ≤ c.text.length) :
    ∃ c' b, c.next = (c', b) ∧ Moves c [.moved c'.pos] c' := by
  by_cases heof : c.eof = true
  · refine ⟨c, 0, if_pos heof, rfl, .moved _ _ _ _ (Nat.le_refl _) hc (.nil _)⟩
  · refine ⟨c.advance 1, c.peek, if_neg heof, c.text_advance 1, ?_⟩
    have hlt : c.pos < c.text.length := Nat.lt_of_not_le (fun hle => heof (decide_eq_true hle))
    exact .moved _ _ _ _ (Nat.le_succ _) hlt (.nil _)

/-- The four bytes of a number are there when they are read. -/
theorem moves_hex (c : Cursor) (h : ¬ c.text.length < c.pos + 4) :
    Moves c [.read c.pos, .moved (c.advance 4).pos] (c.advance 4) := by
  refine ⟨c.text_advance 4, .read _ _ _ _ (Nat.le_refl _) ?_⟩
  exact .moved _ _ _ _ (Nat.le_add_right _ _) (Nat.le_of_not_lt h) (.nil _)

theorem follows_stringBody (fuel : Nat) : ∀ (c : Cursor) (out : Bytes),
    c.pos ≤ c.text.length → Follows c 0 (bodyNotes fuel c) (stringBody fuel c out) := by
  induction fuel with
  | zero => exact fun c _ _ => .outOfFuel c.pos (.nil _)
  | succ fuel ih =>
      intro c out hc
      unfold bodyNotes stringBody
      by_cases hstop : (c.eof || c.peek = 34) = true
      · rw [if_pos hstop, if_pos hstop]
        exact .ok c out (Nat.le_refl _) ⟨rfl, .nil _⟩
      rw [if_neg hstop, if_neg hstop]
      rcases moves_next c hc with ⟨c₁, ch, hnext, hmoves⟩
      have hc₁ := hmoves.inBounds hc
      rw [hnext]
      dsimp only
      by_cases hch : ch ≠ 92
      · rw [if_pos hch, if_pos hch]
        exact Follows.after hmoves hmoves.path.le (ih c₁ _ hc₁)
      rw [if_neg hch, if_neg hch]
      rcases moves_next c₁ hc₁ with ⟨c₂, esc, hnext', hmoves'⟩
      have hboth := hmoves.trans hmoves'
      have hc₂ := hmoves'.inBounds hc₁
      rw [hnext']
      dsimp only
      -- A short escape, one that is refused, or a number.
      cases unescape esc with
      | some b => exact Follows.after hboth hboth.path.le (ih c₂ _ hc₂)
      | none =>
          by_cases hu : esc ≠ 117
          · dsimp only
            rw [if_pos hu, if_pos hu]
            exact .error c₂ _ hboth
          dsimp only
          rw [if_neg hu, if_neg hu]
          by_cases hlen : c₂.text.length < c₂.pos + 4
          · rw [if_pos hlen, if_pos hlen]
            exact .error c₂ _ hboth
          rw [if_neg hlen, if_neg hlen]
          have hhex := moves_hex c₂ hlen
          have hall := hboth.trans hhex
          exact Follows.after hall hall.path.le (ih _ _ (hhex.inBounds hc₂))

theorem follows_parseStringLiteral (c : Cursor) (hc : c.pos ≤ c.text.length) :
    Follows c 1 (stringNotes c) (parseStringLiteral c) := by
  rcases moves_consume c 34 (by decide) hc with ⟨c₁, found, hopen, hmoves, hlt⟩
  rw [stringNotes, parseStringLiteral, hopen]
  cases found with
  | false => exact .error c₁ _ ((List.append_nil _).symm ▸ hmoves)
  | true =>
      have hc₁ := hmoves.inBounds hc
      refine Follows.after hmoves (hlt rfl) ((follows_stringBody _ c₁ [] hc₁).bind ?_)
      intro c₂ out hmoves₂
      rcases moves_consume c₂ 34 (by decide) (hmoves₂.inBounds hc₁)
        with ⟨c₃, found, hclose, hmoves₃, -⟩
      rw [hclose]
      cases found with
      | false => exact .error c₃ _ hmoves₃
      | true => exact .ok c₃ out hmoves₃.path.le hmoves₃

end Strings

section Words

theorem moves_literal (c : Cursor) (literal : Bytes) (hc : c.pos ≤ c.text.length)
    (h : c.startsWith literal = true) :
    Moves c [.moved (c.advance literal.length).pos] (c.advance literal.length) :=
  Moves.of_took (took_startsWith c literal h) hc

/-- A minus sign in front of a number, if there is one. -/
theorem moves_minus (c : Cursor) (hc : c.pos ≤ c.text.length) :
    Moves c [.moved (if c.peek = 45 then c.advance 1 else c).pos]
      (if c.peek = 45 then c.advance 1 else c) := by
  by_cases hminus : c.peek = 45
  · rw [if_pos hminus]
    exact moves_one c 45 hminus (by decide) hc
  · rw [if_neg hminus]
    exact ⟨rfl, .moved _ _ _ _ (Nat.le_refl _) hc (.nil _)⟩

theorem follows_parseNumber (c : Cursor) (hc : c.pos ≤ c.text.length) :
    Follows c 1 (numberNotes c) (parseNumber c) := by
  have hminus := moves_minus c hc
  unfold numberNotes parseNumber
  dsimp only
  generalize (if c.peek = 45 then c.advance 1 else c) = c₁ at hminus ⊢
  rcases took_skipWhile c₁ isNumberByte with ⟨w, htook, -⟩
  have hmoves := hminus.trans (Moves.of_took htook (hminus.inBounds hc))
  by_cases hpos : (c₁.skipWhile isNumberByte).pos = c.pos
  · rw [if_pos hpos, if_pos hpos]
    exact .error _ _ hmoves
  rw [if_neg hpos, if_neg hpos]
  have hle := hmoves.path.le
  -- The number is read from where it starts, which is behind the cursor.
  have hread : Moves c ([.moved c₁.pos, .moved (c₁.skipWhile isNumberByte).pos] ++ [.read c.pos])
      (c₁.skipWhile isNumberByte) :=
    ⟨hmoves.text, hmoves.path.append (.read _ _ _ _ hle (.nil _))⟩
  cases numberOf (c.substr ((c₁.skipWhile isNumberByte).pos - c.pos)) with
  | none => exact .error _ _ hread
  | some q => exact .ok _ _ (Nat.lt_of_le_of_ne hle (fun h => hpos h.symm)) hread

/-- The text is read where the cursor stands. -/
theorem Follows.read {α : Type} {c : Cursor} {k : Nat} {l : List Note} {r : Outcome α}
    (h : Follows c k l r) : Follows c k (.read c.pos :: l) r :=
  Follows.after (l := [.read c.pos]) ⟨rfl, .read _ _ _ _ (Nat.le_refl _) (.nil _)⟩
    (Nat.le_refl _) h

theorem follows_parseWord (c : Cursor) (hc : c.pos ≤ c.text.length) :
    Follows c 1 (wordNotes c) (parseWord c) := by
  rw [wordNotes, parseWord, if_neg (Nat.not_lt_of_le hc)]
  refine Follows.read ?_
  by_cases htrue : c.startsWith (ascii "true") = true
  · rw [if_pos htrue, if_pos htrue]
    exact .ok _ _ (Nat.add_le_add_left (by decide) _) (moves_literal c _ hc htrue)
  rw [if_neg htrue, if_neg htrue]
  refine Follows.read ?_
  by_cases hfalse : c.startsWith (ascii "false") = true
  · rw [if_pos hfalse, if_pos hfalse]
    exact .ok _ _ (Nat.add_le_add_left (by decide) _) (moves_literal c _ hc hfalse)
  rw [if_neg hfalse, if_neg hfalse]
  refine Follows.read ?_
  by_cases hnull : c.startsWith (ascii "null") = true
  · rw [if_pos hnull, if_pos hnull]
    exact .ok _ _ (Nat.add_le_add_left (by decide) _) (moves_literal c _ hc hnull)
  rw [if_neg hnull, if_neg hnull]
  exact follows_parseNumber c hc

end Words

section Nesting

/-- Every call of `ParseValue` with this fuel does what is noted, and so on. -/
structure FollowsAll (n : Nat) : Prop where
  value : ∀ c : Cursor, c.pos ≤ c.text.length → Follows c 1 (valueNotes n c) (parseValue n c)
  array : ∀ c : Cursor, c.pos ≤ c.text.length → Follows c 1 (arrayNotes n c) (parseArray n c)
  items : ∀ (c : Cursor) (items : List ClientValue), c.pos ≤ c.text.length →
    Follows c 0 (itemsNotes n c) (arrayItems n c items)
  object : ∀ c : Cursor, c.pos ≤ c.text.length →
    Follows c 1 (objectNotes n c) (parseObjectValue n c)
  fields : ∀ (c : Cursor) (fields : ClientObject), c.pos ≤ c.text.length →
    Follows c 0 (fieldsNotes n c) (objectFields n c fields)

/-- The value itself, by its first byte. -/
theorem follows_kind (n : Nat) (ih : FollowsAll n) (c : Cursor) (hc : c.pos ≤ c.text.length) :
    Follows c 1
      (if c.peek = 34 then stringNotes c
        else if c.peek = 123 then objectNotes n c
        else if c.peek = 91 then arrayNotes n c
        else wordNotes c)
      (if c.peek = 34 then (parseStringLiteral c).bind fun c s => .ok c (.str s)
        else if c.peek = 123 then parseObjectValue n c
        else if c.peek = 91 then parseArray n c
        else parseWord c) := by
  by_cases hs : c.peek = 34
  · rw [if_pos hs, if_pos hs]
    exact (follows_parseStringLiteral _ hc).map Json.str
  rw [if_neg hs, if_neg hs]
  by_cases hobj : c.peek = 123
  · rw [if_pos hobj, if_pos hobj]
    exact ih.object _ hc
  rw [if_neg hobj, if_neg hobj]
  by_cases harr : c.peek = 91
  · rw [if_pos harr, if_pos harr]
    exact ih.array _ hc
  rw [if_neg harr, if_neg harr]
  exact follows_parseWord _ hc

theorem follows_value (n : Nat) (ih : FollowsAll n) (c : Cursor) (hc : c.pos ≤ c.text.length) :
    Follows c 1 (valueNotes (n + 1) c) (parseValue (n + 1) c) := by
  have hskip := moves_skipWhitespace c hc
  have hinner : Follows c.skipWhitespace 1
      (if c.skipWhitespace.peek = 34 then stringNotes c.skipWhitespace
        else if c.skipWhitespace.peek = 123 then objectNotes n c.skipWhitespace
        else if c.skipWhitespace.peek = 91 then arrayNotes n c.skipWhitespace
        else wordNotes c.skipWhitespace) (parseValue (n + 1) c) := by
    unfold parseValue
    exact follows_kind n ih _ (hskip.inBounds hc)
  unfold valueNotes
  exact (Follows.after hskip (Nat.add_le_add_right hskip.path.le 1) hinner).parsed

/-- What stands behind an opening bracket: the closing one, or the loop over
    what is between them. -/
theorem follows_opened (c : Cursor) (close : UInt8) (hne : close ≠ 0) (empty : ClientValue)
    (l : List Note) (r : Outcome ClientValue) (hc : c.pos ≤ c.text.length)
    (hloop : c.skipWhitespace.pos ≤ c.skipWhitespace.text.length →
      Follows c.skipWhitespace 0 l r) :
    Follows c 0
      (.moved c.skipWhitespace.pos ::
        if c.skipWhitespace.peek = close then [.moved (c.skipWhitespace.advance 1).pos] else l)
      (if c.skipWhitespace.peek = close then .ok (c.skipWhitespace.advance 1) empty else r) := by
  have hskip := moves_skipWhitespace c hc
  have hc' := hskip.inBounds hc
  by_cases hclose : c.skipWhitespace.peek = close
  · rw [if_pos hclose, if_pos hclose]
    have hall := hskip.trans (moves_one _ close hclose hne hc')
    exact .ok _ _ hall.path.le hall
  · rw [if_neg hclose, if_neg hclose]
    exact Follows.onward hskip hskip.path.le (hloop hc')

theorem follows_array (n : Nat) (ih : FollowsAll n) (c : Cursor) (hc : c.pos ≤ c.text.length) :
    Follows c 1 (arrayNotes (n + 1) c) (parseArray (n + 1) c) := by
  rcases moves_consume c 91 (by decide) hc with ⟨c₁, found, hopen, hmoves, hlt⟩
  rw [arrayNotes, parseArray, hopen]
  cases found with
  | false => exact .error c₁ _ ((List.append_nil _).symm ▸ hmoves)
  | true =>
      have hc₁ := hmoves.inBounds hc
      refine Follows.onward hmoves (hlt rfl) ?_
      exact follows_opened c₁ 93 (by decide) (.arr []) _ _ hc₁ (ih.items _ [])

/-- What stands after an item or a member. -/
theorem moves_comma (c : Cursor) (hc : c.pos ≤ c.text.length) :
    ∃ c' found, c.skipWhitespace.consume 44 = (c', found) ∧
      Moves c (.moved c.skipWhitespace.pos :: consumeNotes c.skipWhitespace 44) c' := by
  have hskip := moves_skipWhitespace c hc
  rcases moves_consume c.skipWhitespace 44 (by decide) (hskip.inBounds hc)
    with ⟨c', found, h, hmoves, -⟩
  exact ⟨c', found, h, hskip.trans hmoves⟩

theorem follows_items (n : Nat) (ih : FollowsAll n) (c : Cursor) (items : List ClientValue)
    (hc : c.pos ≤ c.text.length) :
    Follows c 0 (itemsNotes (n + 1) c) (arrayItems (n + 1) c items) := by
  unfold itemsNotes arrayItems
  refine ((ih.value c hc).weaken (Nat.zero_le 1)).bind ?_
  intro c₁ v hmoves₁
  have hc₁ := hmoves₁.inBounds hc
  rcases moves_comma c₁ hc₁ with ⟨c₂, found, hcomma, hmoves₂⟩
  have hc₂ := hmoves₂.inBounds hc₁
  dsimp only
  rw [hcomma]
  refine Follows.onward hmoves₂ hmoves₂.path.le ?_
  cases found with
  | true => exact ih.items c₂ _ hc₂
  | false =>
      rcases moves_consume c₂ 93 (by decide) hc₂ with ⟨c₃, found, hclose, hmoves₃, -⟩
      dsimp only
      rw [hclose]
      cases found with
      | true => exact .ok c₃ _ hmoves₃.path.le hmoves₃
      | false => exact .error c₃ _ hmoves₃

theorem follows_object (n : Nat) (ih : FollowsAll n) (c : Cursor) (hc : c.pos ≤ c.text.length) :
    Follows c 1 (objectNotes (n + 1) c) (parseObjectValue (n + 1) c) := by
  rcases moves_consume c 123 (by decide) hc with ⟨c₁, found, hopen, hmoves, hlt⟩
  rw [objectNotes, parseObjectValue, hopen]
  cases found with
  | false => exact .error c₁ _ ((List.append_nil _).symm ▸ hmoves)
  | true =>
      have hc₁ := hmoves.inBounds hc
      refine Follows.onward hmoves (hlt rfl) ?_
      exact follows_opened c₁ 125 (by decide) (.obj []) _ _ hc₁ (ih.fields _ [])

theorem follows_fields (n : Nat) (ih : FollowsAll n) (c : Cursor) (fields : ClientObject)
    (hc : c.pos ≤ c.text.length) :
    Follows c 0 (fieldsNotes (n + 1) c) (objectFields (n + 1) c fields) := by
  have hskip := moves_skipWhitespace c hc
  have hkey := (follows_parseStringLiteral _ (hskip.inBounds hc)).weaken (Nat.zero_le 1)
  unfold fieldsNotes objectFields
  refine (Follows.onward hskip hskip.path.le hkey).bind ?_
  intro c₁ key hmoves₁
  have hc₁ := hmoves₁.inBounds hc
  rcases moves_consume c₁ 58 (by decide) hc₁ with ⟨c₂, found, hcolon, hmoves₂, -⟩
  have hc₂ := hmoves₂.inBounds hc₁
  dsimp only
  rw [hcolon]
  cases found with
  | false => exact .error c₂ _ ((List.append_nil _).symm ▸ hmoves₂)
  | true =>
      refine Follows.onward hmoves₂ hmoves₂.path.le ?_
      refine ((ih.value c₂ hc₂).weaken (Nat.zero_le 1)).bind ?_
      intro c₃ v hmoves₃
      have hc₃ := hmoves₃.inBounds hc₂
      rcases moves_comma c₃ hc₃ with ⟨c₄, found, hcomma, hmoves₄⟩
      have hc₄ := hmoves₄.inBounds hc₃
      rw [hcomma]
      refine Follows.onward hmoves₄ hmoves₄.path.le ?_
      cases found with
      | true => exact ih.fields c₄ _ hc₄
      | false =>
          rcases moves_consume c₄ 125 (by decide) hc₄ with ⟨c₅, found, hclose, hmoves₅, -⟩
          dsimp only
          rw [hclose]
          cases found with
          | true => exact .ok c₅ _ hmoves₅.path.le hmoves₅
          | false => exact .error c₅ _ hmoves₅

/-- Every parser function does what is noted. The induction is on the fuel, and
    a call that runs out of it has done so too. -/
theorem follows_all (n : Nat) : FollowsAll n := by
  induction n with
  | zero =>
      exact {
        value := fun c _ => .outOfFuel c.pos (.nil _)
        array := fun c _ => .outOfFuel c.pos (.nil _)
        items := fun c _ _ => .outOfFuel c.pos (.nil _)
        object := fun c _ => .outOfFuel c.pos (.nil _)
        fields := fun c _ _ => .outOfFuel c.pos (.nil _) }
  | succ n ih =>
      exact {
        value := follows_value n ih
        array := follows_array n ih
        items := follows_items n ih
        object := follows_object n ih
        fields := follows_fields n ih }

end Nesting

section Texts

theorem follows_parse (t : Bytes) : Follows ⟨t, 0⟩ 1 (parseNotes t) (parse t) :=
  (follows_all (3 * t.length + 3)).value ⟨t, 0⟩ (Nat.zero_le _)

/-- The notes of a whole text form a path through it. -/
theorem path_parse (t : Bytes) : ∃ q, Path t.length 0 (parseNotes t) q := by
  have hfollows := follows_parse t
  generalize parse t = r at hfollows
  cases hfollows with
  | ok c _ _ h => exact ⟨c.pos, h.path⟩
  | error c _ h => exact ⟨c.pos, h.path⟩
  | outOfFuel q h => exact ⟨q, h⟩

/-- A value that is read takes a byte at least, wherever it starts. -/
theorem parseValue_consumes (fuel : Nat) (c c' : Cursor) (v : ClientValue)
    (hc : c.pos ≤ c.text.length) (h : parseValue fuel c = .ok c' v) :
    c.pos < c'.pos ∧ c'.pos ≤ c.text.length := by
  have hfollows := (follows_all fuel).value c hc
  rw [h] at hfollows
  cases hfollows with
  | ok _ _ hk hmoves => exact ⟨hk, hmoves.path.le_bound hc⟩

/-- The parser ends, and what is noted leads to what it returns. Its cursor does
    not go back and does not leave the text, the text is read in bounds only,
    and a value takes a byte at least. -/
theorem parse_inBounds (t : Bytes) :
    (Accepts t ∨ Rejects t) ∧
      Follows ⟨t, 0⟩ 1 (parseNotes t) (parse t) ∧
      (0 :: positions (parseNotes t)).Pairwise (· ≤ ·) ∧
      (∀ p ∈ positions (parseNotes t), p ≤ t.length) ∧
      (∀ p ∈ reads (parseNotes t), p ≤ t.length) ∧
      (∀ v ∈ values (parseNotes t), v.1 < v.2) ∧
      ∀ fuel c c' v, c.text = t → c.pos ≤ t.length → parseValue fuel c = .ok c' v →
        c.pos < c'.pos ∧ c'.pos ≤ t.length := by
  rcases path_parse t with ⟨q, hpath⟩
  rcases hpath.positions_sorted with ⟨hsorted, hbound⟩
  refine ⟨parse_total t, follows_parse t, hsorted, hbound, hpath.reads_le (Nat.zero_le _),
    hpath.values_lt, ?_⟩
  intro fuel c c' v htext hc hvalue
  rw [← htext] at hc ⊢
  exact parseValue_consumes fuel c c' v hc hvalue

end Texts

end JsonText

end MzzPlork

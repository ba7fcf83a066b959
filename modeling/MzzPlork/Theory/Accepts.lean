import MzzPlork.Theory.Escapes

/-!
# What the Client's Parser Accepts

The parser stops after the first value and does not look at what follows it,
and its dialect is wider than RFC 8259. It rejects the texts that do not begin
with a value of that dialect, and no others.

Each of its functions takes a piece of the text that it was called to take, or
reports an error. The fuel is enough, and the cursor stays in the text either
way.

## Main definitions

* `Took`: A cursor that has moved on by a piece of text.
* `Yields`: What a parser function returns, as a condition on the piece that it
  took.
* `ValueRead`: The pieces that are values.
* `Rejects`, `Accepts`: What the parser does with a text.
* `BeginsWithValue`: The texts that are accepted.

## Theorems

* `yields_all`: Every function takes what it was called to take.
* `parse_total`: The parser returns a value or reports an error.
* `accepts_iff`: Which texts it accepts.
* `rejects_iff`: Which of the malformed texts it rejects.
* `accepts_doubled`: One that it does not.
-/

namespace MzzPlork

namespace JsonText

section Pieces

/-- The cursor has moved on by a piece of the text. -/
def Took (c : Cursor) (u : Bytes) (c' : Cursor) : Prop :=
  c' = c.advance u.length ∧ c.rest = u ++ c'.rest

namespace Took

theorem nil (c : Cursor) : Took c [] c := ⟨rfl, rfl⟩

theorem of_rest (c : Cursor) (u r : Bytes) (h : c.rest = u ++ r) :
    Took c u (c.advance u.length) :=
  ⟨rfl, by rw [c.rest_advance_append u r h, h]⟩

theorem trans {c c' c'' : Cursor} {u u' : Bytes} (h : Took c u c') (h' : Took c' u' c'') :
    Took c (u ++ u') c'' := by
  refine ⟨?_, ?_⟩
  · rw [h'.1, h.1, Cursor.advance_advance, List.length_append]
  · rw [h.2, h'.2, List.append_assoc]

theorem length {c c' : Cursor} {u : Bytes} (h : Took c u c') :
    c.rest.length = u.length + c'.rest.length := by
  rw [h.2, List.length_append]

/-- A piece of the text does not go past its end. -/
theorem inBounds {c c' : Cursor} {u : Bytes} (h : Took c u c') (hc : c.pos ≤ c.text.length) :
    c'.pos ≤ c'.text.length := by
  have hlen := h.length
  rw [Cursor.rest, List.length_drop] at hlen
  rw [h.1, Cursor.pos_advance, Cursor.text_advance]
  omega

end Took

/-- A parser function takes a piece of the text with a given property, or
    reports an error. -/
inductive Yields {α : Type} (c : Cursor) (P : Bytes → α → Cursor → Prop) : Outcome α → Prop where
  | ok (u : Bytes) (c' : Cursor) (a : α) (htook : Took c u c') (h : P u a c') :
      Yields c P (.ok c' a)
  | error (u : Bytes) (c' : Cursor) (message : Bytes) (htook : Took c u c') :
      Yields c P (.error c' message)

namespace Yields

variable {α β : Type} {c c' : Cursor} {P Q : Bytes → α → Cursor → Prop} {r : Outcome α}

theorem pure (a : α) (h : P [] a c) : Yields c P (.ok c a) := .ok [] c a (Took.nil c) h

theorem mono (h : Yields c P r) (hPQ : ∀ u a c', P u a c' → Q u a c') : Yields c Q r := by
  cases h with
  | ok u c' a htook h => exact .ok u c' a htook (hPQ u a c' h)
  | error u c' message htook => exact .error u c' message htook

/-- What was taken before comes in front. -/
theorem after {u : Bytes} (htook : Took c u c')
    (h : Yields c' (fun u' a c'' => Q (u ++ u') a c'') r) : Yields c Q r := by
  cases h with
  | ok u' c'' a htook' h => exact .ok (u ++ u') c'' a (htook.trans htook') h
  | error u' c'' message htook' => exact .error (u ++ u') c'' message (htook.trans htook')

theorem bind {R : Bytes → β → Cursor → Prop} {f : Cursor → α → Outcome β} (h : Yields c P r)
    (hf : ∀ u a c', Took c u c' → P u a c' →
      Yields c' (fun u' b c'' => R (u ++ u') b c'') (f c' a)) :
    Yields c R (r.bind f) := by
  cases h with
  | ok u c' a htook h => exact (hf u a c' htook h).after htook
  | error u c' message htook => exact .error u c' message htook

end Yields

/-- What is left at the end of the text. -/
theorem Cursor.peek_of_nil (c : Cursor) (h : c.rest = []) : c.eof = true ∧ c.peek = 0 := by
  have hle : c.text.length ≤ c.pos := List.drop_eq_nil_iff.mp h
  refine ⟨decide_eq_true hle, ?_⟩
  rw [Cursor.peek, List.getD_eq_getElem?_getD, List.getElem?_eq_none hle, Option.getD_none]

/-- NUL is also what `Peek` returns at the end, and no other byte is. -/
theorem Cursor.rest_of_peek (c : Cursor) (b : UInt8) (h : c.peek = b) (hb : b ≠ 0) :
    ∃ r, c.rest = b :: r := by
  cases hrest : c.rest with
  | nil => exact absurd ((c.peek_of_nil hrest).2.symm.trans h) hb.symm
  | cons b' r => exact ⟨r, by rw [← h, c.peek_of_rest b' r hrest]⟩

theorem took_one (c : Cursor) (b : UInt8) (h : c.peek = b) (hb : b ≠ 0) :
    Took c [b] (c.advance 1) := by
  rcases c.rest_of_peek b h hb with ⟨r, hrest⟩
  exact Took.of_rest c [b] r hrest

theorem took_skipWhile (c : Cursor) (p : UInt8 → Bool) :
    ∃ w, Took c w (c.skipWhile p) ∧ (∀ b ∈ w, p b = true) ∧
      ∀ b ∈ (c.skipWhile p).rest.head?, p b = false := by
  have hrest : c.rest = c.run p ++ c.rest.dropWhile p := (List.takeWhile_append_dropWhile).symm
  refine ⟨c.run p, Took.of_rest c _ _ hrest, fun b hb => List.mem_takeWhile_imp hb, ?_⟩
  intro b hb
  rw [Cursor.skipWhile, c.rest_advance_append _ _ hrest] at hb
  have hnot := List.head?_dropWhile_not p c.rest
  rwa [Option.mem_def.mp hb] at hnot

theorem took_skipWhitespace (c : Cursor) :
    ∃ w, Took c w c.skipWhitespace ∧ clientLexicon.Blank w := by
  rcases took_skipWhile c isSpace with ⟨w, htook, hw, -⟩
  exact ⟨w, htook, hw⟩

/-- The two outcomes of `Consume`. -/
theorem consume_cases (c : Cursor) (b : UInt8) (hb : b ≠ 0) :
    ∃ w c', clientLexicon.Blank w ∧
      ((c.consume b = (c', true) ∧ Took c (w ++ [b]) c') ∨
        (c.consume b = (c', false) ∧ Took c w c')) := by
  rcases took_skipWhitespace c with ⟨w, htook, hw⟩
  by_cases hpeek : c.skipWhitespace.peek = b
  · refine ⟨w, _, hw, Or.inl ⟨?_, htook.trans (took_one _ b hpeek hb)⟩⟩
    rw [Cursor.consume]
    exact if_neg (not_not_intro hpeek)
  · refine ⟨w, _, hw, Or.inr ⟨?_, htook⟩⟩
    rw [Cursor.consume]
    exact if_pos hpeek

end Pieces

section Strings

/-- The rounds of the loop: they end at a quote or at the end of the text. -/
def BodyRead (out u s : Bytes) (c : Cursor) : Prop :=
  ∃ s', s = out ++ s' ∧ Body s' u ∧ (c.rest = [] ∨ ∃ r, c.rest = 34 :: r)

theorem bodyRead_raw (out u s : Bytes) (b : UInt8) (c : Cursor) (hq : b ≠ 34) (hs : b ≠ 92)
    (h : BodyRead (out ++ [b]) u s c) : BodyRead out ([b] ++ u) s c := by
  rcases h with ⟨s', rfl, hbody, hend⟩
  exact ⟨b :: s', List.append_assoc _ _ _, Body.raw b s' u hq hs hbody, hend⟩

theorem bodyRead_escape (out u s : Bytes) (esc b : UInt8) (c : Cursor)
    (he : unescape esc = some b) (h : BodyRead (out ++ [b]) u s c) :
    BodyRead out ([92, esc] ++ u) s c := by
  rcases h with ⟨s', rfl, hbody, hend⟩
  exact ⟨b :: s', List.append_assoc _ _ _, Body.escape esc b s' u he hbody, hend⟩

theorem bodyRead_unicode (out hex u s : Bytes) (c : Cursor) (hh : hex.length = 4)
    (h : BodyRead (out ++ [codeUnit hex]) u s c) :
    BodyRead out ((92 :: 117 :: hex) ++ u) s c := by
  rcases h with ⟨s', rfl, hbody, hend⟩
  exact ⟨codeUnit hex :: s', List.append_assoc _ _ _, Body.unicode hex s' u hh hbody, hend⟩

/-- A round on an escape that is none of the short ones. -/
theorem stringBody_other (fuel : Nat) (c : Cursor) (out r : Bytes) (esc : UInt8)
    (he : unescape esc = none) (hrest : c.rest = 92 :: esc :: r) :
    stringBody (fuel + 1) c out
      = if esc ≠ 117 then .error (c.advance 2) (ascii "unsupported escape sequence")
        else if c.text.length < c.pos + 2 + 4 then
          .error (c.advance 2) (ascii "truncated \\u escape")
        else stringBody fuel (c.advance 6) (out ++ [codeUnit ((c.advance 2).substr 4)]) := by
  have hnext := (c.advance 1).next_of_rest esc r (c.rest_advance_cons 92 _ hrest)
  rw [stringBody, c.eof_of_rest 92 _ hrest, c.peek_of_rest 92 _ hrest]
  simp only [show ((92 : UInt8) = 34) = False from by decide, decide_false, Bool.or_false,
    Bool.false_eq_true, if_false, c.next_of_rest 92 _ hrest, ne_eq, not_true_eq_false, hnext, he,
    Cursor.advance_advance, Cursor.text_advance, Cursor.pos_advance, Nat.reduceAdd]

/-- The four bytes of a number, where there are as many. -/
theorem took_hex (c : Cursor) (r : Bytes) (hrest : c.rest = 92 :: 117 :: r)
    (hlen : ¬ c.text.length < c.pos + 2 + 4) :
    ((c.advance 2).substr 4).length = 4 ∧
      Took c (92 :: 117 :: (c.advance 2).substr 4) (c.advance 6) := by
  have hrest2 : (c.advance 2).rest = r := c.rest_advance_append [92, 117] r hrest
  have hsub : (c.advance 2).substr 4 = r.take 4 := congrArg (List.take 4) hrest2
  have hfour : (r.take 4).length = 4 := by
    have hr := congrArg List.length hrest2
    rw [Cursor.rest, List.length_drop, Cursor.text_advance, Cursor.pos_advance] at hr
    rw [List.length_take]
    omega
  have htook := Took.of_rest c (92 :: 117 :: r.take 4) (r.drop 4)
    (by rw [hrest, List.cons_append, List.cons_append, List.take_append_drop])
  rw [List.length_cons, List.length_cons, hfour] at htook
  rw [hsub]
  exact ⟨hfour, htook⟩

/-- A round on a backslash: nothing is behind it, or an escape is taken or
    refused. The fuel is that of the rounds to come. -/
theorem yields_escape (fuel : Nat) (c : Cursor) (out r : Bytes) (h : c.rest = 92 :: r)
    (ih : ∀ (c' : Cursor) (out' : Bytes), c'.rest.length < c.rest.length →
      Yields c' (BodyRead out') (stringBody fuel c' out')) :
    Yields c (BodyRead out) (stringBody (fuel + 1) c out) := by
  have hrest := c.rest_advance_cons 92 r h
  cases r with
  | nil =>
      rcases (c.advance 1).peek_of_nil hrest with ⟨heof, -⟩
      have herror : stringBody (fuel + 1) c out
          = .error (c.advance 1) (ascii "unsupported escape sequence") := by
        rw [stringBody, c.eof_of_rest 92 _ h, c.peek_of_rest 92 _ h, c.next_of_rest 92 _ h]
        simp only [Cursor.next, heof, if_true]
        rfl
      rw [herror]
      exact .error [92] _ _ (Took.of_rest c [92] [] h)
  | cons esc r =>
      have htook2 : Took c [92, esc] (c.advance 2) := Took.of_rest c [92, esc] r h
      -- The escape is a short one, a number, or refused.
      cases he : unescape esc with
      | some b =>
          rw [stringBody_escape fuel c out r esc b he h]
          refine Yields.after htook2 ((ih _ _ ?_).mono fun u s c' hread =>
            bodyRead_escape out u s esc b c' he hread)
          rw [htook2.length, List.length_cons]
          omega
      | none =>
          rw [stringBody_other fuel c out r esc he h]
          by_cases hu : esc = 117
          · subst hu
            rw [if_neg (not_not_intro rfl)]
            by_cases hlen : c.text.length < c.pos + 2 + 4
            · rw [if_pos hlen]
              exact .error [92, 117] _ _ htook2
            · rcases took_hex c r h hlen with ⟨hfour, htook6⟩
              rw [if_neg hlen]
              refine Yields.after htook6 ((ih _ _ ?_).mono fun u s c' hread =>
                bodyRead_unicode out _ u s c' hfour hread)
              rw [htook6.length, List.length_cons]
              omega
          · rw [if_pos hu]
            exact .error [92, esc] _ _ htook2

theorem yields_stringBody (fuel : Nat) : ∀ (c : Cursor) (out : Bytes), c.rest.length < fuel →
    Yields c (BodyRead out) (stringBody fuel c out) := by
  induction fuel with
  | zero => exact fun c _ hfuel => absurd hfuel (Nat.not_lt_zero _)
  | succ fuel ih =>
      intro c out hfuel
      have hshorter : ∀ (c' : Cursor) (out' : Bytes), c'.rest.length < c.rest.length →
          Yields c' (BodyRead out') (stringBody fuel c' out') :=
        fun c' out' hlt => ih c' out' (Nat.lt_of_lt_of_le hlt (Nat.le_of_lt_succ hfuel))
      -- Nothing is taken where the loop ends.
      have hstop : (c.rest = [] ∨ ∃ r, c.rest = 34 :: r) → Yields c (BodyRead out) (.ok c out) :=
        fun hend => Yields.pure out ⟨[], (List.append_nil out).symm, Body.nil, hend⟩
      cases hrest : c.rest with
      | nil =>
          rw [stringBody, (c.peek_of_nil hrest).1, Bool.true_or, if_pos rfl]
          exact hstop (Or.inl hrest)
      | cons b r =>
          by_cases hq : b = 34
          · subst hq
            rw [stringBody, c.peek_of_rest 34 r hrest, decide_eq_true rfl, Bool.or_true,
              if_pos rfl]
            exact hstop (Or.inr ⟨r, hrest⟩)
          · by_cases hs : b = 92
            · subst hs
              exact yields_escape fuel c out r hrest hshorter
            · have htook : Took c [b] (c.advance 1) := Took.of_rest c [b] r hrest
              rw [stringBody_raw fuel c out r b hrest hq hs]
              refine Yields.after htook ((hshorter _ _ ?_).mono fun u s c' hread =>
                bodyRead_raw out u s b c' hq hs hread)
              rw [htook.length, List.length_singleton]
              omega

/-- A string, with white space in front of it. -/
def StringRead (u s : Bytes) (_ : Cursor) : Prop :=
  ∃ w t, u = w ++ (34 :: t ++ [34]) ∧ clientLexicon.Blank w ∧ Body s t

theorem yields_parseStringLiteral (c : Cursor) : Yields c StringRead (parseStringLiteral c) := by
  rcases consume_cases c 34 (by decide) with ⟨w, c₁, hw, ⟨hopen, htook⟩ | ⟨hopen, htook⟩⟩
  · rw [parseStringLiteral, hopen]
    refine Yields.after htook ((yields_stringBody _ c₁ [] ?_).bind ?_)
    · exact Nat.lt_succ_of_le c₁.length_rest_le
    · rintro t s c₂ - ⟨s', rfl, hbody, hend⟩
      -- The closing quote is missing only at the end of the text.
      rcases hend with hnil | ⟨r, hquote⟩
      · rcases consume_cases c₂ 34 (by decide) with ⟨w', c₃, -, ⟨hclose, htook'⟩ | ⟨hclose, htook'⟩⟩
        · have hlen := htook'.length
          rw [hnil, List.length_append, List.length_singleton, List.length_nil] at hlen
          omega
        · rw [hclose]
          exact .error w' _ _ htook'
      · rw [c₂.consume_cons 34 r hquote (by decide)]
        refine .ok [34] _ _ (Took.of_rest c₂ [34] r hquote) ⟨w, t, ?_, hw, hbody⟩
        simp only [List.append_assoc, List.cons_append, List.nil_append]
  · rw [parseStringLiteral, hopen]
    exact .error w _ _ htook

end Strings

section Words

/-- What is read as a value, with white space in front of it. A number goes on
    for as long as the bytes of numbers do. -/
def ValueRead (u : Bytes) (v : ClientValue) (c : Cursor) : Prop :=
  ∃ w t, u = w ++ t ∧ clientLexicon.Blank w ∧ Spells clientLexicon (.value v) t ∧
    (isNumeral v = true → Ends c.rest)

theorem valueRead_spells (t : Bytes) (v : ClientValue) (c : Cursor)
    (h : Spells clientLexicon (.value v) t) (hv : isNumeral v = false) : ValueRead t v c :=
  ⟨[], t, rfl, clientLexicon.blank_nil, h,
    fun hnum => absurd (hv.symm.trans hnum) Bool.false_ne_true⟩

theorem valueRead_blank (w u : Bytes) (v : ClientValue) (c : Cursor)
    (hw : clientLexicon.Blank w) (h : ValueRead u v c) : ValueRead (w ++ u) v c := by
  rcases h with ⟨w', t, rfl, hw', ht, hends⟩
  exact ⟨w ++ w', t, (List.append_assoc _ _ _).symm, Lexicon.blank_append hw hw', ht, hends⟩

theorem took_startsWith (c : Cursor) (literal : Bytes) (h : c.startsWith literal = true) :
    Took c literal (c.advance literal.length) := by
  have hsub : c.rest.take literal.length = literal := of_decide_eq_true h
  rcases hsub ▸ List.take_prefix literal.length c.rest with ⟨r, hr⟩
  exact Took.of_rest c literal r hr.symm

/-- A minus sign is skipped once more as a byte of the number. -/
theorem skipNumber_eq (c : Cursor) :
    (if c.peek = 45 then c.advance 1 else c).skipWhile isNumberByte = c.skipWhile isNumberByte := by
  rcases took_skipWhile c isNumberByte with ⟨w, htook, hw, hend⟩
  cases w with
  | nil =>
      have hpeek : c.peek ≠ 45 := by
        intro hpeek
        rcases c.rest_of_peek 45 hpeek (by decide) with ⟨r, hrest⟩
        have hsame : c.rest = (c.skipWhile isNumberByte).rest := htook.2
        rw [← hsame, hrest] at hend
        exact absurd (hend 45 rfl) (by decide)
      rw [if_neg hpeek]
  | cons b t => rw [skipNumber c b t _ htook.2 hw hend, htook.1]

theorem yields_parseNumber (c : Cursor) : Yields c ValueRead (parseNumber c) := by
  rcases took_skipWhile c isNumberByte with ⟨t, htook, ht, hend⟩
  rw [parseNumber]
  simp only [skipNumber_eq]
  by_cases hpos : (c.skipWhile isNumberByte).pos = c.pos
  · rw [if_pos hpos]
    exact .error t _ _ htook
  · have hlen : (c.skipWhile isNumberByte).pos - c.pos = t.length := by
      rw [htook.1, Cursor.pos_advance, Nat.add_sub_cancel_left]
    have hne : t ≠ [] := by
      rintro rfl
      exact hpos (congrArg Cursor.pos htook.1)
    rw [if_neg hpos, hlen, c.substr_of_rest t _ htook.2]
    cases hq : numberOf t with
    | none => exact .error t _ _ htook
    | some q =>
        exact .ok t _ _ htook ⟨[], t, rfl, clientLexicon.blank_nil,
          Spells.num q t ⟨hne, ht, hq⟩, fun _ => hend⟩

theorem yields_parseWord (c : Cursor) (hc : c.pos ≤ c.text.length) :
    Yields c ValueRead (parseWord c) := by
  rw [parseWord, if_neg (Nat.not_lt_of_le hc)]
  by_cases htrue : c.startsWith (ascii "true") = true
  · rw [if_pos htrue]
    exact .ok _ _ _ (took_startsWith c _ htrue)
      (valueRead_spells _ _ _ Spells.true rfl)
  rw [if_neg htrue]
  by_cases hfalse : c.startsWith (ascii "false") = true
  · rw [if_pos hfalse]
    exact .ok _ _ _ (took_startsWith c _ hfalse)
      (valueRead_spells _ _ _ Spells.false rfl)
  rw [if_neg hfalse]
  by_cases hnull : c.startsWith (ascii "null") = true
  · rw [if_pos hnull]
    exact .ok _ _ _ (took_startsWith c _ hnull)
      (valueRead_spells _ _ _ Spells.null rfl)
  rw [if_neg hnull]
  exact yields_parseNumber c

end Words

section Nesting

/-- What the loop of an array reads, after some items. -/
def ItemsRead (items : List ClientValue) (u : Bytes) (v : ClientValue) (_ : Cursor) : Prop :=
  ∃ t vs, u = t ++ [93] ∧ v = .arr (items ++ vs) ∧ Spells clientLexicon (.items vs) t

/-- What the loop of an object reads, after some members. -/
def FieldsRead (fields : ClientObject) (u : Bytes) (v : ClientValue) (_ : Cursor) : Prop :=
  ∃ t more, u = t ++ [125] ∧ v = .obj (setAll fields more) ∧
    Spells clientLexicon (.members more) t

/-- With this fuel `ParseValue` takes a value. -/
def ValueYields (n : Nat) : Prop := ∀ c : Cursor, c.pos ≤ c.text.length →
  3 * c.rest.length + 1 ≤ n → Yields c ValueRead (parseValue n c)

def ArrayYields (n : Nat) : Prop := ∀ c : Cursor, c.pos ≤ c.text.length → 1 ≤ n →
  3 * c.rest.length ≤ n → Yields c ValueRead (parseArray n c)

def ObjectYields (n : Nat) : Prop := ∀ c : Cursor, c.pos ≤ c.text.length → 1 ≤ n →
  3 * c.rest.length ≤ n → Yields c ValueRead (parseObjectValue n c)

def ItemsYields (n : Nat) : Prop := ∀ (c : Cursor) (items : List ClientValue),
  c.pos ≤ c.text.length → 3 * c.rest.length + 2 ≤ n →
    Yields c (ItemsRead items) (arrayItems n c items)

def FieldsYields (n : Nat) : Prop := ∀ (c : Cursor) (fields : ClientObject),
  c.pos ≤ c.text.length → 3 * c.rest.length + 2 ≤ n →
    Yields c (FieldsRead fields) (objectFields n c fields)

/-- What stands after an item or a member: a comma, or no comma. The white
    space is skipped once more than it needs to be. -/
theorem comma_cases (c : Cursor) :
    ∃ w c', clientLexicon.Blank w ∧
      ((c.skipWhitespace.consume 44 = (c', true) ∧ Took c (w ++ [44]) c') ∨
        (c.skipWhitespace.consume 44 = (c', false) ∧ Took c w c')) := by
  rcases took_skipWhitespace c with ⟨w, htook, hw⟩
  rcases consume_cases c.skipWhitespace 44 (by decide) with ⟨w', c', hw', ⟨h, htook'⟩ | ⟨h, htook'⟩⟩
  · refine ⟨w ++ w', c', Lexicon.blank_append hw hw', Or.inl ⟨h, ?_⟩⟩
    rw [List.append_assoc]
    exact htook.trans htook'
  · exact ⟨w ++ w', c', Lexicon.blank_append hw hw', Or.inr ⟨h, htook.trans htook'⟩⟩

theorem valueYields_succ (n : Nat) (ha : ArrayYields n) (ho : ObjectYields n) :
    ValueYields (n + 1) := by
  intro c hc hfuel
  rcases took_skipWhitespace c with ⟨w, htook, hw⟩
  have hc' := htook.inBounds hc
  have hlen := htook.length
  -- what is left is not empty where an array or an object is called for
  have hsome : ∀ b, c.skipWhitespace.peek = b → b ≠ 0 → 1 ≤ c.skipWhitespace.rest.length := by
    intro b hb hne
    rcases c.skipWhitespace.rest_of_peek b hb hne with ⟨r, hrest⟩
    rw [hrest, List.length_cons]
    exact Nat.le_add_left 1 _
  rw [parseValue]
  refine Yields.after htook (Yields.mono ?_ fun u v c' h => valueRead_blank w u v c' hw h)
  by_cases hs : c.skipWhitespace.peek = 34
  · rw [if_pos hs]
    refine (yields_parseStringLiteral _).bind ?_
    rintro u s c' - ⟨w', t, rfl, hw', ht⟩
    have hspells := valueRead_spells _ _ c' (Spells.str (L := clientLexicon) s t ht) rfl
    have hread := valueRead_blank w' _ _ _ hw' hspells
    exact Yields.pure _ (by rwa [List.append_nil])
  rw [if_neg hs]
  by_cases hobj : c.skipWhitespace.peek = 123
  · rw [if_pos hobj]
    have hone := hsome 123 hobj (by decide)
    exact ho _ hc' (by omega) (by omega)
  rw [if_neg hobj]
  by_cases harr : c.skipWhitespace.peek = 91
  · rw [if_pos harr]
    have hone := hsome 91 harr (by decide)
    exact ha _ hc' (by omega) (by omega)
  rw [if_neg harr]
  exact yields_parseWord _ hc'

theorem arrayYields_succ (n : Nat) (hi : ItemsYields n) : ArrayYields (n + 1) := by
  intro c hc _ hfuel
  rcases consume_cases c 91 (by decide) with ⟨w, c₁, hw, ⟨hopen, htook⟩ | ⟨hopen, htook⟩⟩
  · rcases took_skipWhitespace c₁ with ⟨w', htook', hw'⟩
    have hall := htook.trans htook'
    have hlen := hall.length
    simp only [List.length_append, List.length_singleton] at hlen
    rw [parseArray, hopen]
    dsimp only
    by_cases hclose : c₁.skipWhitespace.peek = 93
    · rw [if_pos hclose]
      refine Yields.after hall (.ok [93] _ _ (took_one _ 93 hclose (by decide)) ?_)
      have hspells := valueRead_spells _ _ (c₁.skipWhitespace.advance 1)
        (Spells.emptyArr (L := clientLexicon) w' hw') rfl
      have hread := valueRead_blank w _ _ _ hw hspells
      simpa only [List.append_assoc, List.singleton_append] using hread
    · rw [if_neg hclose]
      refine Yields.after hall ((hi _ [] (hall.inBounds hc) (by omega)).mono ?_)
      rintro u v c' ⟨t, vs, rfl, rfl, ht⟩
      have hspells := valueRead_spells _ _ c'
        (Spells.arr vs (w' ++ t) (Spells.items_blank hw' ht)) rfl
      have hread := valueRead_blank w _ _ _ hw hspells
      simpa only [List.append_assoc, List.cons_append, List.nil_append] using hread
  · rw [parseArray, hopen]
    exact .error w _ _ htook

theorem itemsYields_succ (n : Nat) (hv : ValueYields n) (hi : ItemsYields n) :
    ItemsYields (n + 1) := by
  intro c items hc hfuel
  rw [arrayItems]
  refine (hv c hc (by omega)).bind ?_
  rintro u v c₁ htook ⟨w, t, rfl, hw, ht, -⟩
  rcases comma_cases c₁ with ⟨w', c₂, hw', ⟨hcomma, htook'⟩ | ⟨hcomma, htook'⟩⟩
  · have hall := htook.trans htook'
    have hlen := hall.length
    simp only [List.length_append, List.length_singleton] at hlen
    -- The comma makes what is left shorter, which pays for the next round.
    rw [hcomma]
    refine Yields.after htook' ((hi c₂ (items ++ [v]) (hall.inBounds hc) (by omega)).mono ?_)
    rintro u v' c' ⟨ts, vs, rfl, rfl, hts⟩
    refine ⟨_, v :: vs, ?_, ?_, Spells.items v vs w t w' ts hw ht hw' hts⟩
    · simp only [List.append_assoc, List.cons_append, List.nil_append]
    · rw [List.append_assoc, List.singleton_append]
  · rw [hcomma]
    refine Yields.after htook' ?_
    dsimp only
    rcases consume_cases c₂ 93 (by decide)
      with ⟨w'', c₃, hw'', ⟨hclose, htook''⟩ | ⟨hclose, htook''⟩⟩
    · rw [hclose]
      refine .ok _ _ _ htook'' ⟨_, [v], ?_, rfl,
        Spells.item v w t (w' ++ w'') hw ht (Lexicon.blank_append hw' hw'')⟩
      simp only [List.append_assoc]
    · rw [hclose]
      exact .error _ _ _ htook''

theorem objectYields_succ (n : Nat) (hf : FieldsYields n) : ObjectYields (n + 1) := by
  intro c hc _ hfuel
  rcases consume_cases c 123 (by decide) with ⟨w, c₁, hw, ⟨hopen, htook⟩ | ⟨hopen, htook⟩⟩
  · rcases took_skipWhitespace c₁ with ⟨w', htook', hw'⟩
    have hall := htook.trans htook'
    have hlen := hall.length
    simp only [List.length_append, List.length_singleton] at hlen
    rw [parseObjectValue, hopen]
    dsimp only
    by_cases hclose : c₁.skipWhitespace.peek = 125
    · rw [if_pos hclose]
      refine Yields.after hall (.ok [125] _ _ (took_one _ 125 hclose (by decide)) ?_)
      have hspells := valueRead_spells _ (.obj []) (c₁.skipWhitespace.advance 1)
        (Spells.emptyObj (L := clientLexicon) w' hw') rfl
      have hread := valueRead_blank w _ _ _ hw hspells
      simpa only [List.append_assoc, List.singleton_append] using hread
    · rw [if_neg hclose]
      refine Yields.after hall ((hf _ [] (hall.inBounds hc) (by omega)).mono ?_)
      rintro u v c' ⟨t, fields, rfl, rfl, ht⟩
      have hspells := valueRead_spells _ (.obj (setAll [] fields)) c'
        (Spells.obj fields (w' ++ t) (Spells.members_blank hw' ht)) rfl
      have hread := valueRead_blank w _ _ _ hw hspells
      simpa only [List.append_assoc, List.cons_append, List.nil_append] using hread
  · rw [parseObjectValue, hopen]
    exact .error w _ _ htook

theorem yields_key (c : Cursor) :
    Yields c StringRead (parseStringLiteral c.skipWhitespace) := by
  rcases took_skipWhitespace c with ⟨w, htook, hw⟩
  refine Yields.after htook ((yields_parseStringLiteral _).mono ?_)
  rintro u s c' ⟨w', t, rfl, hw', ht⟩
  exact ⟨w ++ w', t, (List.append_assoc _ _ _).symm, Lexicon.blank_append hw hw', ht⟩

theorem fieldsYields_succ (n : Nat) (hv : ValueYields n) (hf : FieldsYields n) :
    FieldsYields (n + 1) := by
  intro c fields hc hfuel
  rw [objectFields]
  -- A member is a key, a colon and a value, and then a comma or the end.
  refine (yields_key c).bind ?_
  rintro u k c₁ htook₁ ⟨w, kt, rfl, hw, hk⟩
  rcases consume_cases c₁ 58 (by decide) with ⟨w', c₂, hw', ⟨hcolon, htook₂⟩ | ⟨hcolon, htook₂⟩⟩
  · rw [hcolon]
    dsimp only
    have hvalue := htook₁.trans htook₂
    have hlen := hvalue.length
    refine Yields.after htook₂ ((hv c₂ (hvalue.inBounds hc) (by omega)).bind ?_)
    rintro u v c₃ htook₃ ⟨x, t, rfl, hx, ht, -⟩
    have hmember := hvalue.trans htook₃
    rcases comma_cases c₃ with ⟨x', c₄, hx', ⟨hcomma, htook₄⟩ | ⟨hcomma, htook₄⟩⟩
    · have hall := hmember.trans htook₄
      have hlen' := hall.length
      simp only [List.length_append, List.length_singleton] at hlen'
      rw [hcomma]
      dsimp only
      refine Yields.after htook₄ ((hf c₄ _ (hall.inBounds hc) (by omega)).mono ?_)
      rintro u v' c' ⟨ts, more, rfl, rfl, hts⟩
      refine ⟨_, (k, v) :: more, ?_, rfl,
        Spells.members k v more w kt w' x t x' ts hw hk hw' hx ht hx' hts⟩
      simp only [List.append_assoc, List.cons_append, List.nil_append]
    · rw [hcomma]
      dsimp only
      refine Yields.after htook₄ ?_
      rcases consume_cases c₄ 125 (by decide)
        with ⟨x'', c₅, hx'', ⟨hclose, htook₅⟩ | ⟨hclose, htook₅⟩⟩
      · rw [hclose]
        refine .ok _ _ _ htook₅ ⟨_, [(k, v)], ?_, rfl, Spells.member k v w kt w' x t (x' ++ x'')
          hw hk hw' hx ht (Lexicon.blank_append hx' hx'')⟩
        simp only [List.append_assoc, List.cons_append, List.nil_append]
      · rw [hclose]
        exact .error _ _ _ htook₅
  · rw [hcolon]
    exact .error _ _ _ htook₂

/-- Every parser function takes what it was called to take. The induction is
    on the fuel, of which every byte is worth three. -/
theorem yields_all (n : Nat) :
    ValueYields n ∧ ArrayYields n ∧ ObjectYields n ∧ ItemsYields n ∧ FieldsYields n := by
  induction n with
  | zero =>
      refine ⟨fun c _ h => absurd h (Nat.not_succ_le_zero _),
        fun c _ h => absurd h (Nat.not_succ_le_zero _),
        fun c _ h => absurd h (Nat.not_succ_le_zero _),
        fun c _ _ h => absurd h (Nat.not_succ_le_zero _),
        fun c _ _ h => absurd h (Nat.not_succ_le_zero _)⟩
  | succ n ih =>
      rcases ih with ⟨hv, ha, ho, hi, hf⟩
      exact ⟨valueYields_succ n ha ho, arrayYields_succ n hi, objectYields_succ n hf,
        itemsYields_succ n hv hi, fieldsYields_succ n hv hf⟩

end Nesting

section Texts

theorem yields_parse (t : Bytes) : Yields ⟨t, 0⟩ ValueRead (parse t) :=
  (yields_all (3 * t.length + 3)).1 ⟨t, 0⟩ (Nat.zero_le _)
    (Nat.add_le_add_left (by decide : 1 ≤ 3) _)

/-- The parser reports an error. -/
def Rejects (t : Bytes) : Prop := ∃ c message, parse t = .error c message

/-- The parser returns a value. -/
def Accepts (t : Bytes) : Prop := ∃ c v, parse t = .ok c v

/-- A value of the parser's dialect comes first in the text. What follows it
    is not looked at, but a number is only complete where it ends. -/
def BeginsWithValue (t : Bytes) : Prop :=
  ∃ w u r v, t = w ++ (u ++ r) ∧ clientLexicon.Blank w ∧ Spells clientLexicon (.value v) u ∧
    (isNumeral v = true → Ends r)

theorem parse_total (t : Bytes) : Accepts t ∨ Rejects t := by
  have hyields := yields_parse t
  cases hparse : parse t with
  | ok c v => exact Or.inl ⟨c, v, hparse⟩
  | error c message => exact Or.inr ⟨c, message, hparse⟩
  | outOfRange =>
      rw [hparse] at hyields
      cases hyields
  | outOfFuel =>
      rw [hparse] at hyields
      cases hyields

theorem rejects_iff_not_accepts (t : Bytes) : Rejects t ↔ ¬ Accepts t := by
  refine ⟨?_, fun h => (parse_total t).resolve_left h⟩
  rintro ⟨c, message, herror⟩ ⟨c', v, hok⟩
  exact absurd (herror.symm.trans hok) (by simp only [reduceCtorEq, not_false_eq_true])

/-- Which texts are accepted. -/
theorem accepts_iff (t : Bytes) : Accepts t ↔ BeginsWithValue t := by
  constructor
  · rintro ⟨c, v, hparse⟩
    have hyields := yields_parse t
    rw [hparse] at hyields
    cases hyields with
    | ok u c v htook h =>
        rcases h with ⟨w, u, rfl, hw, hu, hends⟩
        exact ⟨w, u, c.rest, v, htook.2.trans (List.append_assoc _ _ _), hw, hu, hends⟩
  · rintro ⟨w, u, r, v, rfl, hw, hu, hends⟩
    have hrest : (⟨w ++ (u ++ r), 0⟩ : Cursor).rest = w ++ (u ++ r) := rfl
    have hfuel : 3 * u.length ≤ 3 * (w ++ (u ++ r)).length + 3 := by
      simp only [List.length_append]
      omega
    have hread := parseValue_blank (3 * (w ++ (u ++ r)).length + 3) _ w _ hrest hw
    have hrest' := Cursor.rest_advance_append _ w _ hrest
    -- A number is read up to where it ends, any other value wherever it stands.
    cases hnum : isNumeral v with
    | true => exact ⟨_, v, hread.trans (reads_of_spells _ u hu _ _ r hfuel hrest' (hends hnum))⟩
    | false => exact ⟨_, v, hread.trans (readsAnywhere_of_spells v u hu hnum _ _ r hfuel hrest')⟩

/-- The texts that are no JSON texts are rejected, but for those that begin
    with a value. -/
theorem rejects_iff (t : Bytes) :
    ((¬ ∃ v, Rfc8259.IsText v t) → Rejects t) ↔
      ((∃ v, Rfc8259.IsText v t) ∨ ¬ BeginsWithValue t) := by
  rw [rejects_iff_not_accepts, accepts_iff, or_iff_not_imp_left]

/-- Two documents in one text. -/
def doubledText : Bytes := [123, 125, 123, 125]

theorem not_isText_doubledText : ¬ ∃ v, Rfc8259.IsText v doubledText := by
  rintro ⟨v, htext⟩
  rcases Rfc8259.exists_parse v doubledText htext with ⟨c, v', hparse, hblank, -⟩
  have hfirst : parse doubledText = .ok ⟨doubledText, 2⟩ (.obj []) := rfl
  have hc := (Outcome.ok.inj (hparse.symm.trans hfirst)).1
  rw [hc] at hblank
  rcases hblank 123 List.mem_cons_self with h | h | h | h <;> exact absurd h (by decide)

theorem accepts_doubled : ¬ ∀ t, (¬ ∃ v, Rfc8259.IsText v t) → Rejects t := by
  intro h
  rcases h doubledText not_isText_doubledText with ⟨c, message, herror⟩
  have hfirst : parse doubledText = .ok ⟨doubledText, 2⟩ (.obj []) := rfl
  exact absurd (herror.symm.trans hfirst) (by simp only [reduceCtorEq, not_false_eq_true])

end Texts

end JsonText

end MzzPlork

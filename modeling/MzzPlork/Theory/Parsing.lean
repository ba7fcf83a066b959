import MzzPlork.Base.JsonGrammar
import MzzPlork.Core.JsonText

/-!
# What the Client's Parser Reads

The client's parser returns the value of every text of the grammar, in any
context. The dialect is the parser's own: any byte but a quote and a backslash
stands for itself in a string, and any four bytes after `\u` are accepted.

A cursor is described by what is left of its text. Reading a phrase moves it
by the length of the phrase, so that the results compose.

## Main definitions

* `Cursor.rest`: What is left of the text.
* `Body`: The spellings of a string.
* `clientLexicon`: The dialect.
* `Reads`: What the parser has to do on a text of a phrase.
* `ReadsAnywhere`: The same for a value, whatever comes after it.

## Theorems

* `parseStringLiteral_body`: A string is read.
* `parseValue_numeral`: A number is read.
* `reads_of_spells`: Every phrase is read.
* `parse_of_spells`: Every text of a value parses to the value.
* `spells_unique`: A text stands for one value only.
-/

namespace MzzPlork

namespace JsonText

namespace Cursor

/-- What is left of the text. -/
def rest (c : Cursor) : Bytes := c.text.drop c.pos

theorem rest_advance (c : Cursor) (n : Nat) : (c.advance n).rest = c.rest.drop n :=
  List.drop_drop.symm

theorem rest_advance_append (c : Cursor) (u r : Bytes) (h : c.rest = u ++ r) :
    (c.advance u.length).rest = r := by
  rw [rest_advance, h, List.drop_left]

theorem rest_advance_cons (c : Cursor) (b : UInt8) (r : Bytes) (h : c.rest = b :: r) :
    (c.advance 1).rest = r := by
  rw [rest_advance, h, List.drop_one, List.tail_cons]

@[simp] theorem advance_advance (c : Cursor) (m n : Nat) :
    (c.advance m).advance n = c.advance (m + n) := by
  simp only [advance, Nat.add_assoc]

@[simp] theorem text_advance (c : Cursor) (n : Nat) : (c.advance n).text = c.text := rfl

@[simp] theorem pos_advance (c : Cursor) (n : Nat) : (c.advance n).pos = c.pos + n := rfl

@[simp] theorem advance_zero (c : Cursor) : c.advance 0 = c := rfl

theorem pos_lt_of_rest (c : Cursor) (b : UInt8) (r : Bytes) (h : c.rest = b :: r) :
    c.pos < c.text.length := by
  refine Nat.lt_of_not_le (fun hle => ?_)
  rw [rest, List.drop_eq_nil_of_le hle] at h
  exact absurd h (List.cons_ne_nil b r).symm

theorem length_rest_le (c : Cursor) : c.rest.length ≤ c.text.length := by
  rw [rest, List.length_drop]
  exact Nat.sub_le _ _

theorem eof_of_rest (c : Cursor) (b : UInt8) (r : Bytes) (h : c.rest = b :: r) :
    c.eof = false :=
  decide_eq_false (Nat.not_le_of_lt (c.pos_lt_of_rest b r h))

theorem peek_of_rest (c : Cursor) (b : UInt8) (r : Bytes) (h : c.rest = b :: r) : c.peek = b := by
  have hget : c.text[c.pos]? = some b := by
    rw [← List.head?_drop, ← rest, h, List.head?_cons]
  rw [peek, List.getD_eq_getElem?_getD, hget, Option.getD_some]

theorem next_of_rest (c : Cursor) (b : UInt8) (r : Bytes) (h : c.rest = b :: r) :
    c.next = (c.advance 1, b) := by
  rw [next, c.eof_of_rest b r h, if_neg Bool.false_ne_true, c.peek_of_rest b r h]

theorem substr_of_rest (c : Cursor) (u r : Bytes) (h : c.rest = u ++ r) :
    c.substr u.length = u := by
  rw [substr, ← rest, h, List.take_left]

/-- A run ends where the first byte of another kind is. -/
theorem skipWhile_of_rest (c : Cursor) (p : UInt8 → Bool) (w r : Bytes) (h : c.rest = w ++ r)
    (hw : ∀ b ∈ w, p b = true) (hr : ∀ b ∈ r.head?, p b = false) :
    c.skipWhile p = c.advance w.length := by
  have htake : r.takeWhile p = [] := by
    cases r with
    | nil => rfl
    | cons b r => rw [List.takeWhile_cons, hr b rfl, if_neg Bool.false_ne_true]
  rw [skipWhile, run, ← rest, h, List.takeWhile_append_of_pos hw, htake, List.append_nil]

theorem skipWhitespace_of_rest (c : Cursor) (b : UInt8) (r : Bytes) (h : c.rest = b :: r)
    (hb : isSpace b = false) : c.skipWhitespace = c := by
  refine c.skipWhile_of_rest isSpace [] (b :: r) h (fun _ h => absurd h List.not_mem_nil) ?_
  rintro _ ⟨⟩
  exact hb

/-- White space may as well have been skipped before. -/
theorem skipWhitespace_blank (c : Cursor) (w r : Bytes) (h : c.rest = w ++ r)
    (hw : ∀ b ∈ w, isSpace b = true) : c.skipWhitespace = (c.advance w.length).skipWhitespace := by
  have hrun : (c.advance w.length).run isSpace = r.takeWhile isSpace := by
    rw [run, ← rest, c.rest_advance_append w r h]
  rw [skipWhitespace, skipWhitespace, skipWhile, skipWhile, hrun, run, ← rest, h,
    List.takeWhile_append_of_pos hw, List.length_append, advance_advance]

theorem skipWhitespace_upTo (c : Cursor) (w : Bytes) (b : UInt8) (r : Bytes)
    (h : c.rest = w ++ b :: r) (hw : ∀ b ∈ w, isSpace b = true) (hb : isSpace b = false) :
    c.skipWhitespace = c.advance w.length := by
  rw [c.skipWhitespace_blank w (b :: r) h hw, (c.advance w.length).skipWhitespace_of_rest b r
    (c.rest_advance_append w (b :: r) h) hb]

theorem consume_of_rest (c : Cursor) (w : Bytes) (b : UInt8) (r : Bytes) (h : c.rest = w ++ b :: r)
    (hw : ∀ b ∈ w, isSpace b = true) (hb : isSpace b = false) :
    c.consume b = (c.advance (w.length + 1), true) := by
  have hrest := c.rest_advance_append w (b :: r) h
  rw [consume, c.skipWhitespace_upTo w b r h hw hb]
  simp only [(c.advance w.length).peek_of_rest b r hrest, ne_eq, not_true_eq_false, if_false,
    advance_advance]

theorem consume_cons (c : Cursor) (b : UInt8) (r : Bytes) (h : c.rest = b :: r)
    (hb : isSpace b = false) : c.consume b = (c.advance 1, true) :=
  c.consume_of_rest [] b r h (fun _ hm => absurd hm List.not_mem_nil) hb

/-- Another byte is left where it is. -/
theorem consume_ne (c : Cursor) (b expected : UInt8) (r : Bytes) (h : c.rest = b :: r)
    (hb : isSpace b = false) (hne : b ≠ expected) : c.consume expected = (c, false) := by
  rw [consume, c.skipWhitespace_of_rest b r h hb]
  simp only [c.peek_of_rest b r h, ne_eq, hne, not_false_eq_true, if_true]

end Cursor

/-- The spellings of a string that the parser accepts. -/
inductive Body : Bytes → Bytes → Prop where
  | nil : Body [] []
  | raw (b : UInt8) (s t : Bytes) (hq : b ≠ 34) (hs : b ≠ 92) (ht : Body s t) :
      Body (b :: s) (b :: t)
  | escape (esc b : UInt8) (s t : Bytes) (he : unescape esc = some b) (ht : Body s t) :
      Body (b :: s) (92 :: esc :: t)
  | unicode (hex s t : Bytes) (hh : hex.length = 4) (ht : Body s t) :
      Body (codeUnit hex :: s) (92 :: 117 :: (hex ++ t))

/-- Assignment of the fields one after the other. -/
def setAll (o : ClientObject) (fields : ClientObject) : ClientObject :=
  fields.foldl (fun o f => ClientObject.set o f.1 f.2) o

/-- What the parser takes for strings, numbers and white space. -/
def clientLexicon : Lexicon Bytes Rat where
  literal := Body
  numeral := fun q t => t ≠ [] ∧ (∀ b ∈ t, isNumberByte b = true) ∧ numberOf t = some q
  space := fun b => isSpace b = true
  object := setAll []

section Strings

/-- A round of the loop on a byte that stands for itself. -/
theorem stringBody_raw (fuel : Nat) (c : Cursor) (out r : Bytes) (b : UInt8)
    (hrest : c.rest = b :: r) (hq : b ≠ 34) (hs : b ≠ 92) :
    stringBody (fuel + 1) c out = stringBody fuel (c.advance 1) (out ++ [b]) := by
  rw [stringBody, c.eof_of_rest b r hrest, c.peek_of_rest b r hrest]
  simp only [hq, decide_false, Bool.or_false, Bool.false_eq_true, if_false,
    c.next_of_rest b r hrest, ne_eq, hs, not_false_eq_true, if_true]

/-- A round on an escape of one byte. -/
theorem stringBody_escape (fuel : Nat) (c : Cursor) (out r : Bytes) (esc b : UInt8)
    (he : unescape esc = some b) (hrest : c.rest = 92 :: esc :: r) :
    stringBody (fuel + 1) c out = stringBody fuel (c.advance 2) (out ++ [b]) := by
  have hnext := (c.advance 1).next_of_rest esc r (c.rest_advance_cons 92 _ hrest)
  rw [stringBody, c.eof_of_rest 92 _ hrest, c.peek_of_rest 92 _ hrest]
  simp only [show ((92 : UInt8) = 34) = False from by decide, decide_false, Bool.or_false,
    Bool.false_eq_true, if_false, c.next_of_rest 92 _ hrest, ne_eq, not_true_eq_false, hnext, he,
    Cursor.advance_advance, Nat.reduceAdd]

/-- A round on `\u`. The four digits are there, as they are part of what is
    left. -/
theorem stringBody_unicode (fuel : Nat) (c : Cursor) (out hex r : Bytes) (hh : hex.length = 4)
    (hrest : c.rest = 92 :: 117 :: (hex ++ r)) :
    stringBody (fuel + 1) c out = stringBody fuel (c.advance 6) (out ++ [codeUnit hex]) := by
  have hnext := (c.advance 1).next_of_rest 117 _ (c.rest_advance_cons 92 _ hrest)
  have hrest2 : (c.advance 2).rest = hex ++ r := c.rest_advance_append [92, 117] _ hrest
  have hsub := (c.advance 2).substr_of_rest hex r hrest2
  have hlen : ¬ (c.text.length < c.pos + 2 + 4) := by
    have := congrArg List.length hrest
    simp only [Cursor.rest, List.length_drop, List.length_cons, List.length_append, hh] at this
    omega
  rw [hh] at hsub
  rw [stringBody, c.eof_of_rest 92 _ hrest, c.peek_of_rest 92 _ hrest]
  simp only [show ((92 : UInt8) = 34) = False from by decide, decide_false, Bool.or_false,
    Bool.false_eq_true, if_false, c.next_of_rest 92 _ hrest, ne_eq, not_true_eq_false, hnext,
    show unescape 117 = none from rfl, Cursor.advance_advance, Cursor.text_advance,
    Cursor.pos_advance, Nat.reduceAdd, hlen, hsub]

theorem stringBody_of_rest (s t : Bytes) (h : Body s t) :
    ∀ (fuel : Nat) (c : Cursor) (out r : Bytes), t.length < fuel → c.rest = t ++ 34 :: r →
      stringBody fuel c out = .ok (c.advance t.length) (out ++ s) := by
  induction h with
  | nil =>
      intro fuel c out r hfuel hrest
      rcases Nat.exists_eq_succ_of_ne_zero (Nat.ne_of_gt hfuel) with ⟨fuel, rfl⟩
      rw [stringBody, c.peek_of_rest 34 r hrest]
      simp only [decide_true, Bool.or_true, if_true, List.append_nil, List.length_nil,
        Cursor.advance_zero]
  | raw b s t hq hs ht ih =>
      intro fuel c out r hfuel hrest
      rcases Nat.exists_eq_succ_of_ne_zero (Nat.ne_of_gt (Nat.zero_lt_of_lt hfuel)) with ⟨fuel, rfl⟩
      rw [stringBody_raw fuel c out _ b hrest hq hs,
        ih fuel (c.advance 1) (out ++ [b]) r (Nat.lt_of_succ_lt_succ hfuel)
          (c.rest_advance_cons b _ hrest)]
      simp only [Cursor.advance_advance, List.append_assoc, List.singleton_append,
        List.length_cons, Nat.add_comm 1]
  | escape esc b s t he ht ih =>
      intro fuel c out r hfuel hrest
      rcases Nat.exists_eq_succ_of_ne_zero (Nat.ne_of_gt (Nat.zero_lt_of_lt hfuel)) with ⟨fuel, rfl⟩
      have hrest2 : (c.advance 2).rest = t ++ 34 :: r := c.rest_advance_append [92, esc] _ hrest
      rw [stringBody_escape fuel c out _ esc b he hrest, ih fuel (c.advance 2) (out ++ [b]) r
        (Nat.lt_of_succ_lt (Nat.lt_of_succ_lt_succ hfuel)) hrest2]
      simp only [Cursor.advance_advance, List.append_assoc, List.singleton_append,
        List.length_cons, Nat.add_comm 2]
  | unicode hex s t hh ht ih =>
      intro fuel c out r hfuel hrest
      rcases Nat.exists_eq_succ_of_ne_zero (Nat.ne_of_gt (Nat.zero_lt_of_lt hfuel)) with ⟨fuel, rfl⟩
      simp only [List.cons_append, List.append_assoc] at hrest
      -- Six bytes are taken: the backslash, the letter and four more.
      have hrest6 : (c.advance 6).rest = t ++ 34 :: r := by
        have := c.rest_advance_append (92 :: 117 :: hex) (t ++ 34 :: r) hrest
        rwa [List.length_cons, List.length_cons, hh] at this
      simp only [List.length_cons, List.length_append, hh] at hfuel
      rw [stringBody_unicode fuel c out hex _ hh hrest,
        ih fuel (c.advance 6) (out ++ [codeUnit hex]) r (by omega) hrest6]
      simp only [Cursor.advance_advance, List.append_assoc, List.singleton_append,
        List.length_cons, List.length_append, hh]
      rw [show 6 + t.length = 4 + t.length + 1 + 1 by omega]

theorem parseStringLiteral_body (s t : Bytes) (h : Body s t) (c : Cursor) (r : Bytes)
    (hrest : c.rest = (34 :: t ++ [34]) ++ r) :
    parseStringLiteral c = .ok (c.advance (34 :: t ++ [34]).length) s := by
  simp only [List.cons_append, List.append_assoc, List.nil_append] at hrest
  have hrest1 := c.rest_advance_cons 34 _ hrest
  have hlen : t.length < c.text.length + 1 := by
    have := c.length_rest_le
    rw [hrest, List.length_cons, List.length_append] at this
    omega
  rw [parseStringLiteral, c.consume_cons 34 _ hrest (by decide)]
  simp only [Cursor.text_advance, stringBody_of_rest s t h _ (c.advance 1) [] r hlen hrest1,
    Outcome.bind]
  rw [((c.advance 1).advance t.length).consume_cons 34 r
    ((c.advance 1).rest_advance_append t _ hrest1) (by decide)]
  simp only [Cursor.advance_advance, List.nil_append, List.length_cons, List.length_append,
    List.length_nil, Nat.add_comm 1]

end Strings

section Words

/-- What is left does not go on with a byte of a number. -/
def Ends (r : Bytes) : Prop := ∀ b ∈ r.head?, isNumberByte b = false

theorem startsWith_self (c : Cursor) (literal r : Bytes) (h : c.rest = literal ++ r) :
    c.startsWith literal = true := by
  rw [Cursor.startsWith, c.substr_of_rest literal r h, decide_eq_true rfl]

theorem startsWith_ne (c : Cursor) (b b' : UInt8) (r literal : Bytes) (h : c.rest = b :: r)
    (hne : b ≠ b') : c.startsWith (b' :: literal) = false := by
  refine decide_eq_false (fun hc => hne ?_)
  rw [Cursor.substr, ← Cursor.rest, h, List.length_cons, List.take_succ_cons] at hc
  exact (List.cons.inj hc).1

theorem parseWord_null (c : Cursor) (r : Bytes) (h : c.rest = 110 :: 117 :: 108 :: 108 :: r) :
    parseWord c = .ok (c.advance 4) .null := by
  rw [parseWord, if_neg (Nat.not_lt_of_lt (c.pos_lt_of_rest 110 _ h)),
    show ascii "true" = [116, 114, 117, 101] from rfl,
    startsWith_ne c 110 116 _ _ h (by decide), if_neg Bool.false_ne_true,
    show ascii "false" = [102, 97, 108, 115, 101] from rfl,
    startsWith_ne c 110 102 _ _ h (by decide), if_neg Bool.false_ne_true,
    startsWith_self c (ascii "null") r h, if_pos rfl]

theorem parseWord_true (c : Cursor) (r : Bytes) (h : c.rest = 116 :: 114 :: 117 :: 101 :: r) :
    parseWord c = .ok (c.advance 4) (.bool true) := by
  rw [parseWord, if_neg (Nat.not_lt_of_lt (c.pos_lt_of_rest 116 _ h)),
    startsWith_self c (ascii "true") r h, if_pos rfl]

theorem parseWord_false (c : Cursor) (r : Bytes)
    (h : c.rest = 102 :: 97 :: 108 :: 115 :: 101 :: r) :
    parseWord c = .ok (c.advance 5) (.bool false) := by
  rw [parseWord, if_neg (Nat.not_lt_of_lt (c.pos_lt_of_rest 102 _ h)),
    show ascii "true" = [116, 114, 117, 101] from rfl,
    startsWith_ne c 102 116 _ _ h (by decide), if_neg Bool.false_ne_true,
    startsWith_self c (ascii "false") r h, if_pos rfl]

/-- The sign in front makes no difference to where the run of bytes ends. -/
theorem skipNumber (c : Cursor) (b : UInt8) (t r : Bytes) (h : c.rest = (b :: t) ++ r)
    (ht : ∀ x ∈ b :: t, isNumberByte x = true) (hr : Ends r) :
    (if c.peek = 45 then c.advance 1 else c).skipWhile isNumberByte
      = c.advance (b :: t).length := by
  by_cases hb : c.peek = 45
  · rw [if_pos hb, (c.advance 1).skipWhile_of_rest isNumberByte t r (c.rest_advance_cons b _ h)
      (fun x hx => ht x (List.mem_cons_of_mem b hx)) hr, Cursor.advance_advance, List.length_cons,
      Nat.add_comm]
  · rw [if_neg hb]
    exact c.skipWhile_of_rest isNumberByte (b :: t) r h ht hr

theorem ne_of_isNumberByte (b b' : UInt8) (h : isNumberByte b = true)
    (h' : isNumberByte b' = false) : b ≠ b' := by
  rintro rfl
  exact Bool.noConfusion (h.symm.trans h')

theorem isSpace_of_isNumberByte (b : UInt8) (h : isNumberByte b = true) : isSpace b = false := by
  simp only [isNumberByte, isDigit, isSpace, Bool.or_eq_true, Bool.and_eq_true, decide_eq_true_eq,
    Bool.or_eq_false_iff, Bool.and_eq_false_iff, decide_eq_false_iff_not, UInt8.le_iff_toNat_le,
    ← UInt8.toNat_inj, UInt8.reduceToNat] at h ⊢
  omega

theorem parseWord_numeral (q : Rat) (b : UInt8) (t : Bytes) (c : Cursor) (r : Bytes)
    (hrest : c.rest = (b :: t) ++ r) (ht : ∀ x ∈ b :: t, isNumberByte x = true)
    (hq : numberOf (b :: t) = some q) (hr : Ends r) :
    parseWord c = .ok (c.advance (b :: t).length) (.num q) := by
  have hb := ht b List.mem_cons_self
  have hpos : (c.advance (b :: t).length).pos ≠ c.pos := by
    rw [Cursor.pos_advance, List.length_cons]
    omega
  have hsub : (c.advance (b :: t).length).pos - c.pos = (b :: t).length := by
    rw [Cursor.pos_advance, Nat.add_sub_cancel_left]
  rw [parseWord, if_neg (Nat.not_lt_of_lt (c.pos_lt_of_rest b _ hrest)),
    show ascii "true" = [116, 114, 117, 101] from rfl,
    startsWith_ne c b 116 _ _ hrest (ne_of_isNumberByte b 116 hb (by decide)),
    if_neg Bool.false_ne_true,
    show ascii "false" = [102, 97, 108, 115, 101] from rfl,
    startsWith_ne c b 102 _ _ hrest (ne_of_isNumberByte b 102 hb (by decide)),
    if_neg Bool.false_ne_true,
    show ascii "null" = [110, 117, 108, 108] from rfl,
    startsWith_ne c b 110 _ _ hrest (ne_of_isNumberByte b 110 hb (by decide)),
    if_neg Bool.false_ne_true, parseNumber]
  simp only [skipNumber c b t r hrest ht hr, hpos, if_false, hsub,
    c.substr_of_rest (b :: t) r hrest, hq]

end Words

section Phrases

/-- What the parser has to do on the text of a phrase. -/
def Reads : Phrase Bytes Rat → Bytes → Prop
  | .value v, t => ∀ (fuel : Nat) (c : Cursor) (r : Bytes), 3 * t.length ≤ fuel →
      c.rest = t ++ r → Ends r → parseValue fuel c = .ok (c.advance t.length) v
  | .items vs, t => ∀ (fuel : Nat) (c : Cursor) (r : Bytes) (acc : List ClientValue),
      3 * t.length + 1 ≤ fuel → c.rest = t ++ 93 :: r →
        arrayItems fuel c acc = .ok (c.advance (t.length + 1)) (.arr (acc ++ vs))
  | .members fields, t => ∀ (fuel : Nat) (c : Cursor) (r : Bytes) (acc : ClientObject),
      3 * t.length + 1 ≤ fuel → c.rest = t ++ 125 :: r →
        objectFields fuel c acc = .ok (c.advance (t.length + 1)) (.obj (setAll acc fields))

/-- The same for a value, whatever follows it in the text. -/
def ReadsAnywhere (v : ClientValue) (t : Bytes) : Prop :=
  ∀ (fuel : Nat) (c : Cursor) (r : Bytes), 3 * t.length ≤ fuel → c.rest = t ++ r →
    parseValue fuel c = .ok (c.advance t.length) v

theorem ReadsAnywhere.reads {v : ClientValue} {t : Bytes} (h : ReadsAnywhere v t) :
    Reads (.value v) t := fun fuel c r hfuel hrest _ => h fuel c r hfuel hrest

theorem parseValue_blank (fuel : Nat) (c : Cursor) (w r : Bytes) (h : c.rest = w ++ r)
    (hw : clientLexicon.Blank w) : parseValue fuel c = parseValue fuel (c.advance w.length) := by
  cases fuel with
  | zero => rw [parseValue, parseValue]
  | succ fuel => rw [parseValue, parseValue, c.skipWhitespace_blank w r h hw]

theorem parseValue_word (fuel : Nat) (c : Cursor) (b : UInt8) (r : Bytes) (h : c.rest = b :: r)
    (hb : isSpace b = false) (hs : b ≠ 34) (ho : b ≠ 123) (ha : b ≠ 91) :
    parseValue (fuel + 1) c = parseWord c := by
  rw [parseValue, c.skipWhitespace_of_rest b r h hb]
  simp only [c.peek_of_rest b r h, hs, ho, ha, if_false]

theorem parseValue_string (fuel : Nat) (c : Cursor) (r : Bytes) (h : c.rest = 34 :: r) :
    parseValue (fuel + 1) c = (parseStringLiteral c).bind fun c s => .ok c (.str s) := by
  rw [parseValue, c.skipWhitespace_of_rest 34 r h (by decide)]
  simp only [c.peek_of_rest 34 r h, if_true]

theorem parseValue_object (fuel : Nat) (c : Cursor) (r : Bytes) (h : c.rest = 123 :: r) :
    parseValue (fuel + 1) c = parseObjectValue fuel c := by
  rw [parseValue, c.skipWhitespace_of_rest 123 r h (by decide)]
  simp only [c.peek_of_rest 123 r h, show ((123 : UInt8) = 34) = False from by decide, if_false,
    if_true]

theorem parseValue_array (fuel : Nat) (c : Cursor) (r : Bytes) (h : c.rest = 91 :: r) :
    parseValue (fuel + 1) c = parseArray fuel c := by
  rw [parseValue, c.skipWhitespace_of_rest 91 r h (by decide)]
  simp only [c.peek_of_rest 91 r h, show ((91 : UInt8) = 34) = False from by decide,
    show ((91 : UInt8) = 123) = False from by decide, if_false, if_true]

/-- White space and a byte that is no part of a number end a number. -/
theorem ends_blank (w r : Bytes) (b : UInt8) (hw : clientLexicon.Blank w)
    (hb : isNumberByte b = false) : Ends (w ++ b :: r) := by
  cases w with
  | nil =>
      rintro _ ⟨⟩
      exact hb
  | cons x w =>
      rintro _ ⟨⟩
      refine Bool.eq_false_iff.mpr (fun hx => ?_)
      exact Bool.noConfusion ((isSpace_of_isNumberByte x hx).symm.trans (hw x List.mem_cons_self))

/-- A value among white space, up to the byte that ends it. -/
theorem parseValue_padded (v : ClientValue) (w t w' : Bytes) (hw : clientLexicon.Blank w)
    (ht : Reads (.value v) t) (hw' : clientLexicon.Blank w') (fuel : Nat) (c : Cursor) (b : UInt8)
    (r : Bytes) (hb : isNumberByte b = false) (hfuel : 3 * t.length ≤ fuel)
    (h : c.rest = (w ++ t ++ w') ++ b :: r) :
    parseValue fuel c = .ok (c.advance (w.length + t.length)) v ∧
      (c.advance (w.length + t.length)).rest = w' ++ b :: r := by
  simp only [List.append_assoc] at h
  have hrest := c.rest_advance_append w _ h
  refine ⟨?_, ?_⟩
  · rw [parseValue_blank fuel c w _ h hw, ht fuel _ _ hfuel hrest (ends_blank w' r b hw' hb),
      Cursor.advance_advance]
  · rw [← Cursor.advance_advance]
    exact (c.advance w.length).rest_advance_append t _ hrest

/-- What follows a value: white space and a comma. -/
theorem separator_comma (c : Cursor) (w r : Bytes) (hw : clientLexicon.Blank w)
    (h : c.rest = w ++ 44 :: r) :
    c.skipWhitespace.consume 44 = (c.advance (w.length + 1), true) := by
  rw [c.skipWhitespace_upTo w 44 r h hw (by decide),
    Cursor.consume_cons _ 44 r (c.rest_advance_append w _ h) (by decide), Cursor.advance_advance]

/-- White space and the byte that closes the array or the object. -/
theorem separator_close (c : Cursor) (w r : Bytes) (b : UInt8) (hw : clientLexicon.Blank w)
    (h : c.rest = w ++ b :: r) (hb : isSpace b = false) (hne : b ≠ 44) :
    c.skipWhitespace.consume 44 = (c.advance w.length, false) ∧
      (c.advance w.length).consume b = (c.advance (w.length + 1), true) := by
  have hrest := c.rest_advance_append w _ h
  refine ⟨?_, ?_⟩
  · rw [c.skipWhitespace_upTo w b r h hw hb, Cursor.consume_ne _ b 44 r hrest hb hne]
  · rw [Cursor.consume_cons _ b r hrest hb, Cursor.advance_advance]

theorem arrayItems_last (v : ClientValue) (w t w' : Bytes) (hw : clientLexicon.Blank w)
    (ht : Reads (.value v) t) (hw' : clientLexicon.Blank w') (fuel : Nat) (c : Cursor) (r : Bytes)
    (acc : List ClientValue) (hfuel : 3 * t.length ≤ fuel)
    (h : c.rest = (w ++ t ++ w') ++ 93 :: r) :
    arrayItems (fuel + 1) c acc
      = .ok (c.advance ((w ++ t ++ w').length + 1)) (.arr (acc ++ [v])) := by
  rcases parseValue_padded v w t w' hw ht hw' fuel c 93 r (by decide) hfuel h with ⟨hv, hrest⟩
  rcases separator_close _ w' r 93 hw' hrest (by decide) (by decide) with ⟨hcomma, hclose⟩
  simp only [Cursor.advance_advance] at hcomma hclose
  simp only [arrayItems, hv, Outcome.bind, hcomma, hclose, List.length_append, ← Nat.add_assoc]

theorem arrayItems_next (v : ClientValue) (w t w' : Bytes) (hw : clientLexicon.Blank w)
    (ht : Reads (.value v) t) (hw' : clientLexicon.Blank w') (fuel : Nat) (c : Cursor) (r : Bytes)
    (acc : List ClientValue) (hfuel : 3 * t.length ≤ fuel)
    (h : c.rest = (w ++ t ++ w') ++ 44 :: r) :
    arrayItems (fuel + 1) c acc
      = arrayItems fuel (c.advance ((w ++ t ++ w').length + 1)) (acc ++ [v]) := by
  rcases parseValue_padded v w t w' hw ht hw' fuel c 44 r (by decide) hfuel h with ⟨hv, hrest⟩
  simp only [arrayItems, hv, Outcome.bind, separator_comma _ w' r hw' hrest,
    Cursor.advance_advance, List.length_append, Nat.add_assoc]

/-- The key of a member and the colon after it. -/
theorem key_of_rest (k kt u u' : Bytes) (hu : clientLexicon.Blank u) (hk : Body k kt)
    (hu' : clientLexicon.Blank u') (c : Cursor) (r : Bytes)
    (h : c.rest = (u ++ (34 :: kt ++ [34]) ++ u') ++ 58 :: r) :
    ∃ c', parseStringLiteral c.skipWhitespace = .ok c' k ∧
      c'.consume 58 = (c.advance ((u ++ (34 :: kt ++ [34]) ++ u').length + 1), true) := by
  rw [List.append_assoc, List.append_assoc] at h
  have hrest := c.rest_advance_append u _ h
  have hskip := c.skipWhitespace_upTo u 34 _ h hu (by decide)
  refine ⟨(c.advance u.length).advance (34 :: kt ++ [34]).length, ?_, ?_⟩
  · rw [hskip, parseStringLiteral_body k kt hk _ _ hrest]
  · rw [Cursor.consume_of_rest _ u' 58 r ((c.advance u.length).rest_advance_append _ _ hrest) hu'
      (by decide), Cursor.advance_advance, Cursor.advance_advance]
    simp only [List.length_append, List.length_cons, Nat.add_assoc]

/-- A member up to the white space after its value. -/
theorem member_of_rest (k : Bytes) (v : ClientValue) (u kt u' w t w' : Bytes)
    (hu : clientLexicon.Blank u) (hk : Body k kt) (hu' : clientLexicon.Blank u')
    (hw : clientLexicon.Blank w) (ht : Reads (.value v) t) (hw' : clientLexicon.Blank w')
    (fuel : Nat) (c : Cursor) (b : UInt8) (r : Bytes) (hb : isNumberByte b = false)
    (hfuel : 3 * t.length ≤ fuel)
    (h : c.rest = (u ++ (34 :: kt ++ [34]) ++ u' ++ 58 :: (w ++ t ++ w')) ++ b :: r) :
    ∃ c₁ c₂ c₃, parseStringLiteral c.skipWhitespace = .ok c₁ k ∧ c₁.consume 58 = (c₂, true) ∧
      parseValue fuel c₂ = .ok c₃ v ∧ c₃.rest = w' ++ b :: r ∧
      c₃.advance w'.length = c.advance
        (u ++ (34 :: kt ++ [34]) ++ u' ++ 58 :: (w ++ t ++ w')).length := by
  rw [List.append_assoc _ (58 :: _), List.cons_append] at h
  rcases key_of_rest k kt u u' hu hk hu' c _ h with ⟨c₁, hkey, hcolon⟩
  have hafter := (c.advance (u ++ (34 :: kt ++ [34]) ++ u').length).rest_advance_cons 58 _
    (c.rest_advance_append _ _ h)
  rw [Cursor.advance_advance] at hafter
  rcases parseValue_padded v w t w' hw ht hw' fuel _ b r hb hfuel hafter with ⟨hv, hrest⟩
  refine ⟨c₁, _, _, hkey, hcolon, hv, hrest, ?_⟩
  rw [Cursor.advance_advance, Cursor.advance_advance]
  refine congrArg c.advance ?_
  simp only [List.length_append, List.length_cons]
  omega

theorem objectFields_last (k : Bytes) (v : ClientValue) (u kt u' w t w' : Bytes)
    (hu : clientLexicon.Blank u) (hk : Body k kt) (hu' : clientLexicon.Blank u')
    (hw : clientLexicon.Blank w) (ht : Reads (.value v) t) (hw' : clientLexicon.Blank w')
    (fuel : Nat) (c : Cursor) (r : Bytes) (acc : ClientObject) (hfuel : 3 * t.length ≤ fuel)
    (h : c.rest = (u ++ (34 :: kt ++ [34]) ++ u' ++ 58 :: (w ++ t ++ w')) ++ 125 :: r) :
    objectFields (fuel + 1) c acc
      = .ok (c.advance ((u ++ (34 :: kt ++ [34]) ++ u' ++ 58 :: (w ++ t ++ w')).length + 1))
          (.obj (acc.set k v)) := by
  rcases member_of_rest k v u kt u' w t w' hu hk hu' hw ht hw' fuel c 125 r (by decide) hfuel h
    with ⟨c₁, c₂, c₃, hkey, hcolon, hv, hrest, hadv⟩
  rcases separator_close c₃ w' r 125 hw' hrest (by decide) (by decide) with ⟨hcomma, hclose⟩
  rw [← Cursor.advance_advance, hadv] at hclose
  rw [hadv] at hcomma
  simp only [objectFields, hkey, Outcome.bind, hcolon, hv, hcomma, hclose, Cursor.advance_advance]

theorem objectFields_next (k : Bytes) (v : ClientValue) (u kt u' w t w' : Bytes)
    (hu : clientLexicon.Blank u) (hk : Body k kt) (hu' : clientLexicon.Blank u')
    (hw : clientLexicon.Blank w) (ht : Reads (.value v) t) (hw' : clientLexicon.Blank w')
    (fuel : Nat) (c : Cursor) (r : Bytes) (acc : ClientObject) (hfuel : 3 * t.length ≤ fuel)
    (h : c.rest = (u ++ (34 :: kt ++ [34]) ++ u' ++ 58 :: (w ++ t ++ w')) ++ 44 :: r) :
    objectFields (fuel + 1) c acc
      = objectFields fuel
          (c.advance ((u ++ (34 :: kt ++ [34]) ++ u' ++ 58 :: (w ++ t ++ w')).length + 1))
          (acc.set k v) := by
  rcases member_of_rest k v u kt u' w t w' hu hk hu' hw ht hw' fuel c 44 r (by decide) hfuel h
    with ⟨c₁, c₂, c₃, hkey, hcolon, hv, hrest, hadv⟩
  have hcomma := separator_comma c₃ w' r hw' hrest
  rw [← Cursor.advance_advance, hadv] at hcomma
  simp only [objectFields, hkey, Outcome.bind, hcolon, hv, hcomma, Cursor.advance_advance]

/-- The first byte of a value. It is none that the parser skips or takes for
    the end of an array. -/
theorem head_of_spells (v : ClientValue) (t : Bytes) (h : Spells clientLexicon (.value v) t) :
    ∃ b t', t = b :: t' ∧ isSpace b = false ∧ b ≠ 93 := by
  cases h with
  | num n t ht =>
      rcases List.exists_cons_of_ne_nil ht.1 with ⟨b, t', rfl⟩
      have hb := ht.2.1 b List.mem_cons_self
      exact ⟨b, t', rfl, isSpace_of_isNumberByte b hb, ne_of_isNumberByte b 93 hb (by decide)⟩
  | _ => exact ⟨_, _, rfl, by decide, by decide⟩

theorem items_head (vs : List ClientValue) (t : Bytes) (h : Spells clientLexicon (.items vs) t) :
    ∃ w b t', t = w ++ b :: t' ∧ clientLexicon.Blank w ∧ isSpace b = false ∧ b ≠ 93 := by
  cases h with
  | item v w t w' hw ht hw' =>
      rcases head_of_spells v t ht with ⟨b, t', rfl, hb⟩
      exact ⟨w, b, t' ++ w', List.append_assoc _ _ _, hw, hb⟩
  | items v vs w t w' ts hw ht hw' hts =>
      rcases head_of_spells v t ht with ⟨b, t', rfl, hb⟩
      exact ⟨w, b, t' ++ w' ++ 44 :: ts, by simp only [List.append_assoc, List.cons_append], hw, hb⟩

theorem members_head (fields : ClientObject) (t : Bytes)
    (h : Spells clientLexicon (.members fields) t) :
    ∃ w t', t = w ++ 34 :: t' ∧ clientLexicon.Blank w := by
  cases h with
  | member k v u kt u' w t w' hu hk hu' hw ht hw' =>
      exact ⟨u, kt ++ [34] ++ u' ++ 58 :: (w ++ t ++ w'),
        by simp only [List.append_assoc, List.cons_append], hu⟩
  | members k v fields u kt u' w t w' ts hu hk hu' hw ht hw' hts =>
      exact ⟨u, kt ++ [34] ++ u' ++ 58 :: (w ++ t ++ w') ++ 44 :: ts,
        by simp only [List.append_assoc, List.cons_append], hu⟩

/-- An array is opened and, if it has items, handed to the loop. White space
    before the first of them is skipped here, and would be in the loop. -/
theorem parseArray_items (fuel : Nat) (c : Cursor) (w : Bytes) (b : UInt8) (r : Bytes)
    (h : c.rest = 91 :: (w ++ b :: r)) (hw : clientLexicon.Blank w) (hb : isSpace b = false)
    (hne : b ≠ 93) : parseArray (fuel + 1) c = arrayItems fuel (c.advance 1) [] := by
  have hrest := c.rest_advance_cons 91 _ h
  have hskip := (c.advance 1).skipWhitespace_upTo w b r hrest hw hb
  have hpeek := ((c.advance 1).advance w.length).peek_of_rest b r
    ((c.advance 1).rest_advance_append w _ hrest)
  simp only [parseArray, c.consume_cons 91 _ h (by decide), hskip, hpeek, hne, if_false]
  cases fuel with
  | zero => rw [arrayItems, arrayItems]
  | succ fuel => rw [arrayItems, arrayItems, parseValue_blank fuel (c.advance 1) w _ hrest hw]

theorem parseObjectValue_members (fuel : Nat) (c : Cursor) (w r : Bytes)
    (h : c.rest = 123 :: (w ++ 34 :: r)) (hw : clientLexicon.Blank w) :
    parseObjectValue (fuel + 1) c = objectFields fuel (c.advance 1) [] := by
  have hrest := c.rest_advance_cons 123 _ h
  have hrest' := (c.advance 1).rest_advance_append w _ hrest
  have hskip := (c.advance 1).skipWhitespace_upTo w 34 r hrest hw (by decide)
  simp only [parseObjectValue, c.consume_cons 123 _ h (by decide), hskip,
    Cursor.peek_of_rest _ 34 r hrest', show ((34 : UInt8) = 125) = False from by decide, if_false]
  cases fuel with
  | zero => rw [objectFields, objectFields]
  | succ fuel =>
      rw [objectFields, objectFields, hskip,
        Cursor.skipWhitespace_of_rest _ 34 r hrest' (by decide)]

/-- An array or an object that closes after white space. -/
theorem parseArray_empty (fuel : Nat) (c : Cursor) (w r : Bytes)
    (h : c.rest = 91 :: (w ++ 93 :: r)) (hw : clientLexicon.Blank w) :
    parseArray (fuel + 1) c = .ok (c.advance (91 :: w ++ [93]).length) (.arr []) := by
  have hrest := c.rest_advance_cons 91 _ h
  have hskip := (c.advance 1).skipWhitespace_upTo w 93 r hrest hw (by decide)
  have hpeek := ((c.advance 1).advance w.length).peek_of_rest 93 r
    ((c.advance 1).rest_advance_append w _ hrest)
  simp only [parseArray, c.consume_cons 91 _ h (by decide), hskip, hpeek, if_true]
  simp only [Cursor.advance_advance, List.length_cons, List.length_append, List.length_nil,
    Nat.add_comm 1]

theorem parseObjectValue_empty (fuel : Nat) (c : Cursor) (w r : Bytes)
    (h : c.rest = 123 :: (w ++ 125 :: r)) (hw : clientLexicon.Blank w) :
    parseObjectValue (fuel + 1) c = .ok (c.advance (123 :: w ++ [125]).length) (.obj []) := by
  have hrest := c.rest_advance_cons 123 _ h
  have hskip := (c.advance 1).skipWhitespace_upTo w 125 r hrest hw (by decide)
  have hpeek := ((c.advance 1).advance w.length).peek_of_rest 125 r
    ((c.advance 1).rest_advance_append w _ hrest)
  simp only [parseObjectValue, c.consume_cons 123 _ h (by decide), hskip, hpeek, if_true]
  simp only [Cursor.advance_advance, List.length_cons, List.length_append, List.length_nil,
    Nat.add_comm 1]

theorem readsAnywhere_null : ReadsAnywhere .null [110, 117, 108, 108] := by
  intro fuel c r hfuel hrest
  rcases Nat.exists_eq_add_of_le' (Nat.le_trans (by decide : 1 ≤ 12) hfuel) with ⟨n, rfl⟩
  rw [parseValue_word n c 110 _ hrest (by decide) (by decide) (by decide) (by decide),
    parseWord_null c r hrest]
  rfl

theorem readsAnywhere_true : ReadsAnywhere (.bool true) [116, 114, 117, 101] := by
  intro fuel c r hfuel hrest
  rcases Nat.exists_eq_add_of_le' (Nat.le_trans (by decide : 1 ≤ 12) hfuel) with ⟨n, rfl⟩
  rw [parseValue_word n c 116 _ hrest (by decide) (by decide) (by decide) (by decide),
    parseWord_true c r hrest]
  rfl

theorem readsAnywhere_false : ReadsAnywhere (.bool false) [102, 97, 108, 115, 101] := by
  intro fuel c r hfuel hrest
  rcases Nat.exists_eq_add_of_le' (Nat.le_trans (by decide : 1 ≤ 15) hfuel) with ⟨n, rfl⟩
  rw [parseValue_word n c 102 _ hrest (by decide) (by decide) (by decide) (by decide),
    parseWord_false c r hrest]
  rfl

theorem reads_num (q : Rat) (t : Bytes) (ht : clientLexicon.numeral q t) :
    Reads (.value (.num q)) t := by
  intro fuel c r hfuel hrest hends
  rcases List.exists_cons_of_ne_nil ht.1 with ⟨b, t', rfl⟩
  have hb := ht.2.1 b List.mem_cons_self
  rw [List.length_cons] at hfuel
  rcases Nat.exists_eq_add_of_le' (show 1 ≤ fuel by omega) with ⟨n, rfl⟩
  rw [parseValue_word n c b _ hrest (isSpace_of_isNumberByte b hb)
    (ne_of_isNumberByte b 34 hb (by decide)) (ne_of_isNumberByte b 123 hb (by decide))
    (ne_of_isNumberByte b 91 hb (by decide)),
    parseWord_numeral q b t' c r hrest ht.2.1 ht.2.2 hends]

theorem readsAnywhere_str (s t : Bytes) (ht : Body s t) :
    ReadsAnywhere (.str s) (34 :: t ++ [34]) := by
  intro fuel c r hfuel hrest
  simp only [List.length_append, List.length_cons, List.length_nil] at hfuel
  rcases Nat.exists_eq_add_of_le' (show 1 ≤ fuel by omega) with ⟨n, rfl⟩
  rw [parseValue_string n c _ hrest, parseStringLiteral_body s t ht c r hrest]
  rfl

theorem readsAnywhere_emptyArr (w : Bytes) (hw : clientLexicon.Blank w) :
    ReadsAnywhere (.arr []) (91 :: w ++ [93]) := by
  intro fuel c r hfuel hrest
  simp only [List.length_append, List.length_cons, List.length_nil] at hfuel
  rcases Nat.exists_eq_add_of_le' (show 2 ≤ fuel by omega) with ⟨n, rfl⟩
  rw [List.append_assoc] at hrest
  rw [parseValue_array (n + 1) c _ hrest, parseArray_empty n c w r hrest hw]

theorem readsAnywhere_arr (vs : List ClientValue) (t : Bytes)
    (ht : Spells clientLexicon (.items vs) t) (ih : Reads (.items vs) t) :
    ReadsAnywhere (.arr vs) (91 :: t ++ [93]) := by
  intro fuel c r hfuel hrest
  simp only [List.length_append, List.length_cons, List.length_nil] at hfuel
  rcases Nat.exists_eq_add_of_le' (show 2 ≤ fuel by omega) with ⟨n, rfl⟩
  rw [List.append_assoc] at hrest
  have hitems := ih n (c.advance 1) r [] (by omega) (c.rest_advance_cons 91 _ hrest)
  rcases items_head vs t ht with ⟨w, b, t', rfl, hw, hb, hne⟩
  have hrest' : c.rest = 91 :: (w ++ b :: (t' ++ 93 :: r)) :=
    hrest.trans (congrArg (91 :: ·) (List.append_assoc _ _ _))
  rw [parseValue_array (n + 1) c _ hrest, parseArray_items n c w b _ hrest' hw hb hne, hitems,
    Cursor.advance_advance]
  simp only [List.nil_append, List.length_cons, List.length_append, List.length_nil,
    Nat.add_comm 1]

theorem readsAnywhere_emptyObj (w : Bytes) (hw : clientLexicon.Blank w) :
    ReadsAnywhere (.obj (setAll [] [])) (123 :: w ++ [125]) := by
  intro fuel c r hfuel hrest
  simp only [List.length_append, List.length_cons, List.length_nil] at hfuel
  rcases Nat.exists_eq_add_of_le' (show 2 ≤ fuel by omega) with ⟨n, rfl⟩
  rw [List.append_assoc] at hrest
  rw [parseValue_object (n + 1) c _ hrest, parseObjectValue_empty n c w r hrest hw]
  rfl

theorem readsAnywhere_obj (fields : ClientObject) (t : Bytes)
    (ht : Spells clientLexicon (.members fields) t) (ih : Reads (.members fields) t) :
    ReadsAnywhere (.obj (setAll [] fields)) (123 :: t ++ [125]) := by
  intro fuel c r hfuel hrest
  simp only [List.length_append, List.length_cons, List.length_nil] at hfuel
  rcases Nat.exists_eq_add_of_le' (show 2 ≤ fuel by omega) with ⟨n, rfl⟩
  rw [List.append_assoc] at hrest
  have hfields := ih n (c.advance 1) r [] (by omega) (c.rest_advance_cons 123 _ hrest)
  rcases members_head fields t ht with ⟨w, t', rfl, hw⟩
  have hrest' : c.rest = 123 :: (w ++ 34 :: (t' ++ 125 :: r)) :=
    hrest.trans (congrArg (123 :: ·) (List.append_assoc _ _ _))
  rw [parseValue_object (n + 1) c _ hrest, parseObjectValue_members n c w _ hrest' hw, hfields,
    Cursor.advance_advance]
  simp only [List.length_cons, List.length_append, List.length_nil, Nat.add_comm 1]

theorem reads_item (v : ClientValue) (w t w' : Bytes) (hw : clientLexicon.Blank w)
    (ih : Reads (.value v) t) (hw' : clientLexicon.Blank w') :
    Reads (.items [v]) (w ++ t ++ w') := by
  intro fuel c r acc hfuel hrest
  simp only [List.length_append] at hfuel
  rcases Nat.exists_eq_add_of_le' (show 1 ≤ fuel by omega) with ⟨n, rfl⟩
  rw [arrayItems_last v w t w' hw ih hw' n c r acc (by omega) hrest]

theorem reads_items (v : ClientValue) (vs : List ClientValue) (w t w' ts : Bytes)
    (hw : clientLexicon.Blank w) (ih : Reads (.value v) t) (hw' : clientLexicon.Blank w')
    (ihs : Reads (.items vs) ts) : Reads (.items (v :: vs)) (w ++ t ++ w' ++ 44 :: ts) := by
  intro fuel c r acc hfuel hrest
  have hlen := hfuel
  simp only [List.length_append, List.length_cons] at hlen
  rcases Nat.exists_eq_add_of_le' (show 1 ≤ fuel by omega) with ⟨n, rfl⟩
  have hrest' : c.rest = (w ++ t ++ w') ++ 44 :: (ts ++ 93 :: r) :=
    hrest.trans (List.append_assoc _ _ _)
  have hafter := (c.advance _).rest_advance_cons 44 _ (c.rest_advance_append _ _ hrest')
  rw [Cursor.advance_advance] at hafter
  rw [arrayItems_next v w t w' hw ih hw' n c _ acc (by omega) hrest',
    ihs n _ r (acc ++ [v]) (by omega) hafter, Cursor.advance_advance, List.append_assoc acc,
    List.singleton_append, @List.length_append _ _ (44 :: ts), List.length_cons, Nat.add_assoc,
    Nat.add_assoc, Nat.add_left_comm 1 ts.length]

theorem reads_member (k : Bytes) (v : ClientValue) (u kt u' w t w' : Bytes)
    (hu : clientLexicon.Blank u) (hk : Body k kt) (hu' : clientLexicon.Blank u')
    (hw : clientLexicon.Blank w) (ih : Reads (.value v) t) (hw' : clientLexicon.Blank w') :
    Reads (.members [(k, v)]) (u ++ (34 :: kt ++ [34]) ++ u' ++ 58 :: (w ++ t ++ w')) := by
  intro fuel c r acc hfuel hrest
  have hlen := hfuel
  simp only [List.length_append, List.length_cons] at hlen
  rcases Nat.exists_eq_add_of_le' (show 1 ≤ fuel by omega) with ⟨n, rfl⟩
  rw [objectFields_last k v u kt u' w t w' hu hk hu' hw ih hw' n c r acc (by omega) hrest]
  rfl

theorem reads_members (k : Bytes) (v : ClientValue) (fields : ClientObject)
    (u kt u' w t w' ts : Bytes) (hu : clientLexicon.Blank u) (hk : Body k kt)
    (hu' : clientLexicon.Blank u') (hw : clientLexicon.Blank w) (ih : Reads (.value v) t)
    (hw' : clientLexicon.Blank w') (ihs : Reads (.members fields) ts) :
    Reads (.members ((k, v) :: fields))
      (u ++ (34 :: kt ++ [34]) ++ u' ++ 58 :: (w ++ t ++ w') ++ 44 :: ts) := by
  intro fuel c r acc hfuel hrest
  have hlen := hfuel
  simp only [List.length_append, List.length_cons] at hlen
  rcases Nat.exists_eq_add_of_le' (show 1 ≤ fuel by omega) with ⟨n, rfl⟩
  have hrest' : c.rest = (u ++ (34 :: kt ++ [34]) ++ u' ++ 58 :: (w ++ t ++ w')) ++
      44 :: (ts ++ 125 :: r) := hrest.trans (List.append_assoc _ _ _)
  have hafter := (c.advance _).rest_advance_cons 44 _ (c.rest_advance_append _ _ hrest')
  rw [Cursor.advance_advance] at hafter
  rw [objectFields_next k v u kt u' w t w' hu hk hu' hw ih hw' n c _ acc (by omega) hrest',
    ihs n _ r _ (by omega) hafter, Cursor.advance_advance, @List.length_append _ _ (44 :: ts),
    List.length_cons, Nat.add_assoc, Nat.add_assoc, Nat.add_left_comm 1 ts.length]
  rfl

/-- Every phrase is read. The fuel goes down by three at most from a value to
    an item of it, and the text shrinks by one byte at least. -/
theorem reads_of_spells (p : Phrase Bytes Rat) (t : Bytes) (h : Spells clientLexicon p t) :
    Reads p t := by
  induction h with
  | null => exact readsAnywhere_null.reads
  | true => exact readsAnywhere_true.reads
  | false => exact readsAnywhere_false.reads
  | num q t ht => exact reads_num q t ht
  | str s t ht => exact (readsAnywhere_str s t ht).reads
  | emptyArr w hw => exact (readsAnywhere_emptyArr w hw).reads
  | arr vs t ht ih => exact (readsAnywhere_arr vs t ht ih).reads
  | emptyObj w hw => exact (readsAnywhere_emptyObj w hw).reads
  | obj fields t ht ih => exact (readsAnywhere_obj fields t ht ih).reads
  | item v w t w' hw ht hw' ih => exact reads_item v w t w' hw ih hw'
  | items v vs w t w' ts hw ht hw' hts ih ihs => exact reads_items v vs w t w' ts hw ih hw' ihs
  | member k v u kt u' w t w' hu hk hu' hw ht hw' ih =>
      exact reads_member k v u kt u' w t w' hu hk hu' hw ih hw'
  | members k v fields u kt u' w t w' ts hu hk hu' hw ht hw' hts ih ihs =>
      exact reads_members k v fields u kt u' w t w' ts hu hk hu' hw ih hw' ihs

/-- Numbers are the values that have no end of their own. -/
def isNumeral : ClientValue → Bool
  | .num _ => true
  | _ => false

theorem readsAnywhere_of_spells (v : ClientValue) (t : Bytes)
    (h : Spells clientLexicon (.value v) t) (hv : isNumeral v = false) : ReadsAnywhere v t := by
  cases h with
  | null => exact readsAnywhere_null
  | true => exact readsAnywhere_true
  | false => exact readsAnywhere_false
  | num q t ht => exact absurd hv.symm Bool.false_ne_true
  | str s t ht => exact readsAnywhere_str s t ht
  | emptyArr w hw => exact readsAnywhere_emptyArr w hw
  | arr vs t ht => exact readsAnywhere_arr vs t ht (reads_of_spells _ t ht)
  | emptyObj w hw => exact readsAnywhere_emptyObj w hw
  | obj fields t ht => exact readsAnywhere_obj fields t ht (reads_of_spells _ t ht)

/-- A text of a value parses to the value, whatever follows it that is not
    part of a number. -/
theorem parse_of_spells (v : ClientValue) (t r : Bytes) (h : Spells clientLexicon (.value v) t)
    (hr : Ends r) : parse (t ++ r) = .ok ⟨t ++ r, t.length⟩ v := by
  have hread := reads_of_spells (.value v) t h
    (3 * (t ++ r).length + 3) ⟨t ++ r, 0⟩ r (by rw [List.length_append]; omega) rfl hr
  rw [parse, hread, Cursor.advance, Nat.zero_add]

/-- The same with nothing behind it. -/
theorem parse_whole (v : ClientValue) (t : Bytes) (h : Spells clientLexicon (.value v) t) :
    parse t = .ok ⟨t, t.length⟩ v := by
  have hparse := parse_of_spells v t [] h (fun _ hb => absurd hb (Option.not_mem_none _))
  rw [List.append_nil] at hparse
  exact hparse

/-- A text stands for one value only. -/
theorem spells_unique (v v' : ClientValue) (t : Bytes) (h : Spells clientLexicon (.value v) t)
    (h' : Spells clientLexicon (.value v') t) : v = v' :=
  (Outcome.ok.inj ((parse_whole v t h).symm.trans (parse_whole v' t h'))).2

end Phrases

end JsonText

end MzzPlork

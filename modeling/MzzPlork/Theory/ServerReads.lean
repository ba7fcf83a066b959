import MzzPlork.Theory.Rfc8259

/-!
# What `JSON.parse` Makes of a Text in UTF-8

`JSON.parse` reads every text of RFC 8259, in the code units that the socket
decodes it to. A value is followed by what ends it, and the pieces of a text
are described by what they are decoded to and by what the parser does on that.

## Main definitions

* `wide`: Bytes of ASCII, as code units.
* `Stops`: What can follow a number.
* `readerLexicon`: The dialect: the strings of the standard, and its numbers as
  the language takes them.
* `Piece`: A text of a phrase as the parser has it.

## Theorems

* `numberRest_numeral`: A number.
* `exists_reads_literal`: A string.
* `exists_piece`: A phrase.
* `jsonParse_text`: A text.
-/

namespace MzzPlork

namespace JsonParse

open EventChannel (Coded coded_append)
open JsonText (AreDigits digitsText fractionText signText IsMark)
open Rfc8259 (Literal Numeral Exponent)

section Coding

/-- Bytes of ASCII, as code units. -/
def wide (t : Bytes) : JsString := t.map UInt8.toUInt16

theorem wide_append (t t' : Bytes) : wide (t ++ t') = wide t ++ wide t' := List.map_append

theorem toNat_ofNat_byte (b : UInt8) : (Char.ofNat b.toNat).toNat = b.toNat := by
  have hlt := b.toNat_lt
  refine Wire.toNat_ofNat b.toNat ?_
  simp only [Nat.isValidChar]
  omega

theorem coded_char (c : Char) : Coded (String.utf8EncodeChar c) (Wire.unitsOf c) :=
  ⟨[c], List.flatMap_singleton _ c, List.flatMap_singleton _ c⟩

theorem coded_byte (b : UInt8) (h : b.toNat < 128) : Coded [b] [b.toUInt16] := by
  have hnat := toNat_ofNat_byte b
  have hcoded := coded_char (Char.ofNat b.toNat)
  have hbyte : b.toNat.toUInt8 = b := UInt8.ofNat_toNat
  rw [Wire.utf8EncodeChar_ascii _ (by rw [hnat]; exact h),
    EventChannel.unitsOf_ascii _ (by rw [hnat]; exact h), hnat, hbyte] at hcoded
  exact hcoded

theorem coded_wide (t : Bytes) (h : ∀ b ∈ t, b.toNat < 128) : Coded t (wide t) := by
  induction t with
  | nil => exact ⟨[], rfl, rfl⟩
  | cons b t ih =>
      exact coded_append [b] t [b.toUInt16] _ (coded_byte b (h b List.mem_cons_self))
        (ih (fun x hx => h x (List.mem_cons_of_mem b hx)))

theorem coded_ascii (t : Bytes) (h : t.all (fun b => b.toNat < 128) = true) : Coded t (wide t) :=
  coded_wide t (fun b hb => of_decide_eq_true (List.all_eq_true.mp h b hb))

/-- White space is white space on both sides. -/
theorem space_byte (b : UInt8) (h : Rfc8259.lexicon.space b) :
    b.toNat < 128 ∧ isSpace b.toUInt16 = true := by
  rcases h with rfl | rfl | rfl | rfl <;> decide

theorem coded_blank (w : Bytes) (hw : Rfc8259.lexicon.Blank w) :
    Coded w (wide w) ∧ ∀ u ∈ wide w, isSpace u = true := by
  refine ⟨coded_wide w (fun b hb => (space_byte b (hw b hb)).1), fun u hu => ?_⟩
  rcases List.mem_map.mp hu with ⟨b, hb, rfl⟩
  exact (space_byte b (hw b hb)).2

theorem skipSpace_blank (w r : JsString) (hw : ∀ u ∈ w, isSpace u = true) :
    skipSpace (w ++ r) = skipSpace r := List.dropWhile_append_of_pos hw

theorem skipSpace_cons (u : UInt16) (r : JsString) (hu : isSpace u = false) :
    skipSpace (u :: r) = u :: r := by
  rw [skipSpace, List.dropWhile_cons, hu, if_neg Bool.false_ne_true]

end Coding

section Numbers

/-- A number goes on with this. -/
def goesOn (u : UInt16) : Bool := isDigit u || u = 46 || u = 101 || u = 69

/-- What can follow a number. -/
def Stops (r : JsString) : Prop := ∀ u ∈ r.head?, goesOn u = false

theorem forall_head_append (P : UInt16 → Prop) (s r : JsString) (hs : ∀ u ∈ s.head?, P u)
    (hr : ∀ u ∈ r.head?, P u) : ∀ u ∈ (s ++ r).head?, P u := by
  cases s with
  | nil => exact hr
  | cons u s => exact hs

theorem isDigit_wide (b : UInt8) : isDigit b.toUInt16 = JsonText.isDigit b := by
  simp only [isDigit, JsonText.isDigit, UInt16.le_iff_toNat_le, UInt8.le_iff_toNat_le,
    UInt8.toNat_toUInt16, UInt16.reduceToNat, UInt8.reduceToNat]

theorem isDigit_wide_digits (ds : List Nat) (hd : AreDigits ds) :
    ∀ u ∈ wide (digitsText ds), isDigit u = true := by
  intro u hu
  rcases List.mem_map.mp hu with ⟨b, hb, rfl⟩
  rw [isDigit_wide]
  exact JsonText.isDigit_digitsText ds hd b hb

theorem digitsRest_digits (ds : List Nat) (hd : AreDigits ds) (hne : ds ≠ []) (r : JsString)
    (hr : ∀ u ∈ r.head?, isDigit u = false) : digitsRest (wide (digitsText ds) ++ r) = some r := by
  have hall := isDigit_wide_digits ds hd
  have hrest : r.dropWhile isDigit = r := by
    cases r with
    | nil => rfl
    | cons u r => rw [List.dropWhile_cons, hr u rfl, if_neg Bool.false_ne_true]
  rw [digitsRest, List.dropWhile_append_of_pos hall, hrest]
  cases ds with
  | nil => exact absurd rfl hne
  | cons d ds => exact if_pos (hall _ List.mem_cons_self)

/-- The integer part. A zero is on its own. -/
theorem integerRest_digits (whole : List Nat) (hd : AreDigits whole) (hne : whole ≠ [])
    (hzero : whole.head? = some 0 → whole = [0]) (r : JsString)
    (hr : ∀ u ∈ r.head?, isDigit u = false) :
    integerRest (wide (digitsText whole) ++ r) = some r := by
  rw [integerRest]
  cases whole with
  | nil => exact absurd rfl hne
  | cons d ds =>
      by_cases hd0 : d = 0
      · rcases hd0 with rfl
        rw [hzero rfl]
        exact if_pos rfl
      · rw [if_neg, digitsRest_digits (d :: ds) hd hne r hr]
        intro hhead
        have hunit : (48 + d).toUInt8.toUInt16.toNat = 48 :=
          congrArg UInt16.toNat (Option.some.inj hhead)
        rw [UInt8.toNat_toUInt16, JsonText.toNat_digit d (hd d List.mem_cons_self)] at hunit
        omega

theorem fractionRest_text (fraction : List Nat) (hf : AreDigits fraction) (r : JsString)
    (hr : ∀ u ∈ r.head?, isDigit u = false ∧ u ≠ 46) :
    fractionRest (wide (fractionText fraction) ++ r) = some r := by
  rw [fractionText]
  by_cases hnil : fraction = []
  · rw [if_pos hnil, fractionRest]
    exact if_neg (fun hhead => (hr 46 hhead).2 rfl)
  · rw [if_neg hnil, fractionRest]
    exact (if_pos rfl).trans (digitsRest_digits fraction hf hnil r (fun u hu => (hr u hu).1))

theorem stops_digit (r : JsString) (hr : Stops r) : ∀ u ∈ r.head?, isDigit u = false := by
  intro u hu
  have hstop := hr u hu
  simp only [goesOn, Bool.or_eq_false_iff] at hstop
  exact hstop.1.1.1

theorem stops_ne (r : JsString) (hr : Stops r) (u : UInt16) (h : goesOn u = true) :
    r.head? ≠ some u := fun hhead => Bool.noConfusion ((hr u hhead).symm.trans h)

theorem exponentRest_signed (mark sign : UInt8) (ds : List Nat) (hmark : IsMark mark)
    (hsign : sign = 43 ∨ sign = 45) (hd : AreDigits ds) (hne : ds ≠ []) (r : JsString)
    (hr : Stops r) : exponentRest (wide (mark :: sign :: digitsText ds) ++ r) = some r := by
  have hdigits := digitsRest_digits ds hd hne r (stops_digit r hr)
  rw [exponentRest, if_pos, if_pos]
  · exact hdigits
  · rcases hsign with rfl | rfl
    · exact Or.inl rfl
    · exact Or.inr rfl
  · rcases hmark with rfl | rfl
    · exact Or.inl rfl
    · exact Or.inr rfl

theorem exponentRest_text (e : Int) (x : Bytes) (h : Exponent e x) (r : JsString) (hr : Stops r) :
    exponentRest (wide x ++ r) = some r := by
  cases h with
  | absent =>
      exact if_neg (fun hhead => hhead.elim (stops_ne r hr 101 rfl) (stops_ne r hr 69 rfl))
  | unsigned mark ds hm hd hne =>
      have hdigits := digitsRest_digits ds hd hne r (stops_digit r hr)
      rw [exponentRest, if_pos, if_neg]
      · exact hdigits
      · cases ds with
        | nil => exact absurd rfl hne
        | cons d ds =>
            have hdigit := isDigit_wide_digits (d :: ds) hd _ List.mem_cons_self
            rintro (hhead | hhead)
            · rw [Option.some.inj hhead] at hdigit
              exact Bool.noConfusion hdigit
            · rw [Option.some.inj hhead] at hdigit
              exact Bool.noConfusion hdigit
      · rcases hm with rfl | rfl
        · exact Or.inl rfl
        · exact Or.inr rfl
  | plus mark ds hm hd hne => exact exponentRest_signed mark 43 ds hm (Or.inl rfl) hd hne r hr
  | minus mark ds hm hd hne => exact exponentRest_signed mark 45 ds hm (Or.inr rfl) hd hne r hr

/-- Neither a fraction nor an exponent begins with a digit. -/
theorem head_exponent (e : Int) (x : Bytes) (h : Exponent e x) :
    ∀ u ∈ (wide x).head?, isDigit u = false ∧ u ≠ 46 := by
  intro u hu
  rcases Option.map_eq_some_iff.mp ((List.head?_map ..).symm.trans hu) with ⟨b, hb, rfl⟩
  rcases (Rfc8259.exponentOf_exponent e x h).2.1 b hb with ⟨hdigit, hdot⟩
  refine ⟨(isDigit_wide b).trans hdigit, fun hc => hdot ?_⟩
  have hnat := congrArg UInt16.toNat hc
  rw [UInt8.toNat_toUInt16] at hnat
  exact UInt8.toNat_inj.mp hnat

theorem head_fraction (fraction : List Nat) :
    ∀ u ∈ (wide (fractionText fraction)).head?, isDigit u = false := by
  rw [fractionText]
  by_cases hnil : fraction = []
  · rw [if_pos hnil]
    exact fun _ hu => absurd hu (Option.not_mem_none _)
  · rw [if_neg hnil]
    rintro _ ⟨⟩
    rfl

/-- A number is read to its end. -/
theorem numberRest_numeral (q : Rat) (t : Bytes) (h : Numeral q t) (r : JsString)
    (hr : Stops r) : numberRest (wide t ++ r) = some r := by
  cases h with
  | mk negative whole fraction e x hw hne hzero hf hx =>
      -- Each part is read to its end: what follows begins with none of its code units.
      have hexp := exponentRest_text e x hx r hr
      have hstop : ∀ u ∈ r.head?, isDigit u = false ∧ u ≠ 46 := fun u hu =>
        ⟨stops_digit r hr u hu, fun hc => stops_ne r hr 46 rfl (hc ▸ hu)⟩
      have hafter := forall_head_append _ (wide x) r (head_exponent e x hx) hstop
      have hfrac := fractionRest_text fraction hf (wide x ++ r) hafter
      have hint := integerRest_digits whole hw hne hzero
        (wide (fractionText fraction) ++ (wide x ++ r))
        (forall_head_append _ _ _ (head_fraction fraction) (fun u hu => (hafter u hu).1))
      -- Without a sign the first code unit is a digit.
      have hsign : (if (wide (signText negative ++ (digitsText whole ++ (fractionText fraction
            ++ x))) ++ r).head? = some 45
          then (wide (signText negative ++ (digitsText whole ++ (fractionText fraction ++ x)))
            ++ r).tail
          else wide (signText negative ++ (digitsText whole ++ (fractionText fraction ++ x))) ++ r)
          = wide (digitsText whole) ++ (wide (fractionText fraction) ++ (wide x ++ r)) := by
        simp only [wide_append, List.append_assoc]
        cases negative with
        | true => exact if_pos rfl
        | false =>
            refine if_neg (fun hhead => ?_)
            rcases JsonText.digitsText_head whole hw hne [] with ⟨b, t, hbt, hb⟩
            rw [List.append_nil] at hbt
            rw [hbt] at hhead
            have hdigit := (isDigit_wide b).trans hb
            rw [Option.some.inj hhead] at hdigit
            exact Bool.noConfusion hdigit
      rw [numberRest, hsign, hint]
      simp only [Option.bind_eq_bind, Option.bind_some, hfrac, hexp]

end Numbers

section Strings

/-- A code unit by its number. -/
theorem reads_unicode (a b c d u : UInt16) (t : JsString) (v : Option JsString)
    (hn : fourDigits a b c d = some u) (h : Reads t v) :
    Reads (92 :: 117 :: a :: b :: c :: d :: t) (v.map (u :: ·)) := by
  intro rest
  rw [List.cons_append, List.cons_append, stringRest.eq_def]
  dsimp only
  rw [if_neg (by decide), if_neg (by decide), if_pos rfl, if_pos rfl]
  simp only [List.cons_append, hn, h rest, Option.bind_eq_bind, Option.bind_some]
  cases v <;> rfl

theorem hexOf_wide (b : UInt8) (n : Nat) (h : JsonText.hexDigit b = some n) :
    Wire.hexOf b.toUInt16 = some n := by
  simp only [JsonText.hexDigit, JsonText.isDigit, UInt8.le_iff_toNat_le, UInt8.reduceToNat] at h
  simp only [Wire.hexOf, UInt16.le_iff_toNat_le, UInt8.toNat_toUInt16, UInt16.reduceToNat]
  exact h

theorem fourDigits_wide (a b c d : UInt8) (n : Nat) (h : Rfc8259.fourDigits a b c d = some n) :
    fourDigits a.toUInt16 b.toUInt16 c.toUInt16 d.toUInt16 = some n.toUInt16 := by
  rcases Rfc8259.exists_hexDigits a b c d n h with ⟨na, nb, nc, nd, ha, hb, hc, hd, rfl⟩
  rw [fourDigits, hexOf_wide a na ha, hexOf_wide b nb hb, hexOf_wide c nc hc, hexOf_wide d nd hd]
  rfl

theorem unescape_wide (esc b : UInt8) (h : JsonText.unescape esc = some b) :
    unescape esc.toUInt16 = some b.toUInt16 :=
  of_decide_eq_true (Rfc8259.unescape_all
    (fun esc b => unescape esc.toUInt16 = some b.toUInt16) rfl esc b h)

theorem ascii_hexDigit (b : UInt8) (n : Nat) (h : JsonText.hexDigit b = some n) :
    b.toNat < 128 := by
  have hcases := Rfc8259.hexDigit_cases b n h
  omega

theorem ascii_fourDigits (a b c d : UInt8) (n : Nat) (h : Rfc8259.fourDigits a b c d = some n) :
    ∀ x ∈ [92, 117, a, b, c, d], x.toNat < 128 := by
  rcases Rfc8259.exists_hexDigits a b c d n h with ⟨na, nb, nc, nd, ha, hb, hc, hd, -⟩
  simp only [List.forall_mem_cons, List.not_mem_nil, false_implies, implies_true, and_true]
  exact ⟨by decide, by decide, ascii_hexDigit a na ha, ascii_hexDigit b nb hb,
    ascii_hexDigit c nc hc, ascii_hexDigit d nd hd⟩

theorem ascii_unescape (esc b : UInt8) (h : JsonText.unescape esc = some b) :
    ∀ x ∈ [92, esc], x.toNat < 128 :=
  List.forall_mem_cons.mpr ⟨by decide, List.forall_mem_singleton.mpr (of_decide_eq_true
    (Rfc8259.unescape_all (fun esc _ => esc.toNat < 128) rfl esc b h))⟩

/-- A string is read as what it denotes. -/
theorem exists_reads_literal (k : JsString) (t : Bytes) (h : Literal k t) :
    ∃ s, Coded t s ∧ Reads s (some k) := by
  -- The text is decoded and read along with its grammar.
  induction h with
  | nil => exact ⟨[], ⟨[], rfl, rfl⟩, reads_nil⟩
  | char c k t hctl hquote hback _ ih =>
      rcases ih with ⟨s, hs, hreads⟩
      exact ⟨_, coded_append _ _ _ _ (coded_char c) hs,
        reads_units _ s (some k) (EventChannel.raw_of_mem_unitsOf c hctl hquote hback) hreads⟩
  | escape esc b k t he _ ih =>
      rcases ih with ⟨s, hs, hreads⟩
      exact ⟨_, coded_append [92, esc] t _ s (coded_wide _ (ascii_unescape esc b he)) hs,
        reads_escape _ _ s (some k) (unescape_wide esc b he) hreads⟩
  | unicode a b c d n k t hn _ ih =>
      rcases ih with ⟨s, hs, hreads⟩
      exact ⟨_, coded_append [92, 117, a, b, c, d] t _ s
          (coded_wide _ (ascii_fourDigits a b c d n hn)) hs,
        reads_unicode _ _ _ _ _ s (some k) (fourDigits_wide a b c d n hn) hreads⟩

end Strings

section Phrases

variable (toNumber : JsString → JsNumber)

/-- Members one after the other. -/
def assignAll (o fields : List (JsString × JsValue)) : List (JsString × JsValue) :=
  fields.foldl (fun o f => setField o f.1 f.2) o

/-- The dialect of the language. -/
def readerLexicon : Lexicon JsString JsNumber where
  literal := Literal
  numeral := fun n t => (∃ q, Numeral q t) ∧ toNumber (wide t) = n
  space := Rfc8259.lexicon.space
  object := assignAll []

/-- The first code unit of a value. It is none that is skipped or that ends an
    array or an object. -/
def Starts (s : JsString) : Prop :=
  ∃ u s', s = u :: s' ∧ isSpace u = false ∧ u ≠ 93 ∧ u ≠ 125

/-- What the text of a phrase begins with. -/
def Opens : Phrase JsString JsNumber → JsString → Prop
  | .value _, s => Starts s
  | _, s => ∃ w s', s = w ++ s' ∧ (∀ u ∈ w, isSpace u = true) ∧ Starts s'

/-- What the parser has to do on it. -/
def ReadsPhrase : Phrase JsString JsNumber → JsString → Prop
  | .value v, s => ∀ (fuel : Nat) (r : JsString), 2 * s.length ≤ fuel → Stops r →
      parseValue toNumber fuel (s ++ r) = .ok v r
  | .items vs, s => ∀ (fuel : Nat) (r : JsString) (acc : List JsValue), 2 * s.length + 1 ≤ fuel →
      parseItems toNumber fuel acc (skipSpace (s ++ 93 :: r)) = .ok (.arr (acc ++ vs)) r
  | .members fields, s => ∀ (fuel : Nat) (r : JsString) (acc : List (JsString × JsValue)),
      2 * s.length + 1 ≤ fuel → parseMembers toNumber fuel acc (skipSpace (s ++ 125 :: r))
        = .ok (.obj (assignAll acc fields)) r

/-- A text of a phrase as the parser has it. -/
structure Piece (p : Phrase JsString JsNumber) (t : Bytes) (s : JsString) : Prop where
  coded : Coded t s
  opens : Opens p s
  reads : ReadsPhrase toNumber p s

theorem skipSpace_starts (s r : JsString) (h : Starts s) : skipSpace (s ++ r) = s ++ r := by
  rcases h with ⟨u, s', rfl, hu, -⟩
  exact skipSpace_cons u (s' ++ r) hu

/-- White space, and something that stops a number. -/
theorem stops_blank (w r : JsString) (u : UInt16) (hw : ∀ u ∈ w, isSpace u = true)
    (hu : goesOn u = false) : Stops (w ++ u :: r) := by
  refine forall_head_append _ w _ (fun x hx => ?_) (by rintro _ ⟨⟩; exact hu)
  have hspace := hw x (List.mem_of_mem_head? hx)
  simp only [isSpace, Bool.or_eq_true, decide_eq_true_eq] at hspace
  rcases hspace with ((rfl | rfl) | rfl) | rfl <;> rfl

theorem piece_null : Piece toNumber (.value .null) [110, 117, 108, 108] [110, 117, 108, 108] where
  coded := coded_ascii [110, 117, 108, 108] rfl
  opens := ⟨_, _, rfl, rfl, by decide, by decide⟩
  reads := by
    intro fuel r hfuel _
    rcases Nat.exists_eq_add_of_le' (Nat.le_trans (by decide : 1 ≤ 8) hfuel) with ⟨n, rfl⟩
    rfl

theorem piece_true :
    Piece toNumber (.value (.bool true)) [116, 114, 117, 101] [116, 114, 117, 101] where
  coded := coded_ascii [116, 114, 117, 101] rfl
  opens := ⟨_, _, rfl, rfl, by decide, by decide⟩
  reads := by
    intro fuel r hfuel _
    rcases Nat.exists_eq_add_of_le' (Nat.le_trans (by decide : 1 ≤ 8) hfuel) with ⟨n, rfl⟩
    rfl

theorem piece_false :
    Piece toNumber (.value (.bool false)) [102, 97, 108, 115, 101] [102, 97, 108, 115, 101] where
  coded := coded_ascii [102, 97, 108, 115, 101] rfl
  opens := ⟨_, _, rfl, rfl, by decide, by decide⟩
  reads := by
    intro fuel r hfuel _
    rcases Nat.exists_eq_add_of_le' (Nat.le_trans (by decide : 1 ≤ 10) hfuel) with ⟨n, rfl⟩
    rfl

/-- A number begins with a sign or a digit. -/
theorem head_numeral (q : Rat) (t : Bytes) (h : Numeral q t) :
    ∃ b t', t = b :: t' ∧ (b = 45 ∨ JsonText.isDigit b = true) := by
  cases h with
  | mk negative whole fraction e x hw hne hzero hf hx =>
      cases negative with
      | true => exact ⟨45, _, rfl, Or.inl rfl⟩
      | false =>
          rcases JsonText.digitsText_head whole hw hne (fractionText fraction ++ x) with
            ⟨b, t', hbt, hb⟩
          exact ⟨b, t', hbt, Or.inr hb⟩

theorem isPrefixOf_ne (u u' : UInt16) (p s : JsString) (h : u ≠ u') :
    ¬ (u :: p).isPrefixOf (u' :: s) = true := by
  rw [List.isPrefixOf, Bool.and_eq_true, beq_iff_eq]
  exact fun hc => h hc.1

theorem parseScalar_number (u : UInt16) (s r : JsString) (ht : u ≠ 116) (hf : u ≠ 102)
    (hn : u ≠ 110) (h : numberRest (u :: s ++ r) = some r) :
    parseScalar toNumber (u :: s ++ r) = .ok (.num (toNumber (u :: s))) r := by
  have hlen : (u :: s ++ r).length - r.length = (u :: s).length := by
    rw [List.length_append, Nat.add_sub_cancel]
  rw [parseScalar, show js "true" = [116, 114, 117, 101] from rfl,
    show js "false" = [102, 97, 108, 115, 101] from rfl,
    show js "null" = [110, 117, 108, 108] from rfl, List.cons_append,
    if_neg (isPrefixOf_ne 116 u _ _ ht.symm), if_neg (isPrefixOf_ne 102 u _ _ hf.symm),
    if_neg (isPrefixOf_ne 110 u _ _ hn.symm), ← List.cons_append, h]
  dsimp only
  rw [hlen, List.take_left]

theorem piece_num (n : JsNumber) (t : Bytes) (ht : (readerLexicon toNumber).numeral n t) :
    Piece toNumber (.value (.num n)) t (wide t) := by
  rcases ht with ⟨⟨q, hq⟩, rfl⟩
  rcases head_numeral q t hq with ⟨b, t', rfl, hb⟩
  have hrest := numberRest_numeral q (b :: t') hq
  -- The first byte is one of eleven, and none of them begins anything else.
  have hbyte : b ∈ [45, 48, 49, 50, 51, 52, 53, 54, 55, 56, 57] := by
    simp only [JsonText.isDigit, Bool.and_eq_true, decide_eq_true_eq, UInt8.le_iff_toNat_le,
      UInt8.reduceToNat, List.mem_cons, List.not_mem_nil, or_false, ← UInt8.toNat_inj] at hb ⊢
    omega
  have hhead : [45, 48, 49, 50, 51, 52, 53, 54, 55, 56, 57].all (fun x : UInt8 =>
      !isSpace x.toUInt16 &&
        [34, 91, 93, 102, 110, 116, 123, 125].all (fun u => x.toUInt16 ≠ u)) = true := rfl
  have hb' := List.all_eq_true.mp hhead b hbyte
  rw [Bool.and_eq_true, Bool.not_eq_true'] at hb'
  have hspace := hb'.1
  have hne : ∀ u ∈ [34, 91, 93, 102, 110, 116, 123, 125], b.toUInt16 ≠ u :=
    fun u hu => of_decide_eq_true (List.all_eq_true.mp hb'.2 u hu)
  refine ⟨coded_wide _ (fun x hx => ?_), ⟨_, _, rfl, hspace, hne 93 (by decide),
    hne 125 (by decide)⟩, ?_⟩
  · exact Wire.ascii_of_isNumberByte x ((Rfc8259.numeral_client q _ hq).2.1 x hx)
  · intro fuel r hfuel hr
    rw [wide, List.length_map, List.length_cons] at hfuel
    rcases Nat.exists_eq_add_of_le' (show 1 ≤ fuel by omega) with ⟨k, rfl⟩
    have hscalar := parseScalar_number toNumber b.toUInt16 (wide t') r (hne 116 (by decide))
      (hne 102 (by decide)) (hne 110 (by decide)) (hrest r hr)
    rw [wide, List.map_cons, List.cons_append, parseValue, if_neg (hne 34 (by decide)),
      if_neg (hne 123 (by decide)), if_neg (hne 91 (by decide))]
    exact hscalar

theorem exists_piece_str (k : JsString) (t : Bytes) (ht : Literal k t) :
    ∃ s, Piece toNumber (.value (.str k)) (34 :: t ++ [34]) s := by
  rcases exists_reads_literal k t ht with ⟨s, hs, hreads⟩
  have hquote : Coded [34] [34] := coded_ascii [34] rfl
  refine ⟨34 :: s ++ [34], coded_append (34 :: t) [34] (34 :: s) [34]
    (coded_append [34] t [34] s hquote hs) hquote, ⟨_, _, rfl, rfl, by decide, by decide⟩, ?_⟩
  intro fuel r hfuel _
  simp only [List.length_append, List.length_cons, List.length_nil] at hfuel
  rcases Nat.exists_eq_add_of_le' (show 1 ≤ fuel by omega) with ⟨n, rfl⟩
  rw [List.append_assoc, List.cons_append, parseValue, if_pos rfl, List.singleton_append, hreads r]
  rfl

/-- An array or an object, from what is between its brackets. -/
theorem coded_between (b b' : UInt8) (t : Bytes) (s : JsString) (hb : b.toNat < 128)
    (hb' : b'.toNat < 128) (ht : Coded t s) :
    Coded (b :: t ++ [b']) (b.toUInt16 :: s ++ [b'.toUInt16]) :=
  coded_append (b :: t) [b'] (b.toUInt16 :: s) [b'.toUInt16]
    (coded_append [b] t [b.toUInt16] s (coded_byte b hb) ht) (coded_byte b' hb')

theorem piece_emptyArr (w : Bytes) (hw : Rfc8259.lexicon.Blank w) :
    Piece toNumber (.value (.arr [])) (91 :: w ++ [93]) (91 :: wide w ++ [93]) := by
  rcases coded_blank w hw with ⟨hcoded, hspace⟩
  refine ⟨coded_between 91 93 w (wide w) (by decide) (by decide) hcoded,
    ⟨_, _, rfl, rfl, by decide, by decide⟩, ?_⟩
  intro fuel r hfuel _
  simp only [List.length_append, List.length_cons, List.length_nil] at hfuel
  rcases Nat.exists_eq_add_of_le' (show 1 ≤ fuel by omega) with ⟨n, rfl⟩
  rw [List.append_assoc, List.cons_append, parseValue, if_neg (by decide), if_neg (by decide),
    if_pos rfl, skipSpace_blank _ _ hspace, List.singleton_append,
    skipSpace_cons 93 r (by decide), List.head?_cons, if_pos rfl]
  rfl

theorem piece_emptyObj (w : Bytes) (hw : Rfc8259.lexicon.Blank w) :
    Piece toNumber (.value (.obj (assignAll [] []))) (123 :: w ++ [125])
      (123 :: wide w ++ [125]) := by
  rcases coded_blank w hw with ⟨hcoded, hspace⟩
  refine ⟨coded_between 123 125 w (wide w) (by decide) (by decide) hcoded,
    ⟨_, _, rfl, rfl, by decide, by decide⟩, ?_⟩
  intro fuel r hfuel _
  simp only [List.length_append, List.length_cons, List.length_nil] at hfuel
  rcases Nat.exists_eq_add_of_le' (show 1 ≤ fuel by omega) with ⟨n, rfl⟩
  rw [List.append_assoc, List.cons_append, parseValue, if_neg (by decide), if_pos rfl,
    skipSpace_blank _ _ hspace, List.singleton_append, skipSpace_cons 125 r (by decide),
    List.head?_cons, if_pos rfl]
  rfl

/-- What follows the bracket is none that ends the array or the object. -/
theorem head_opens (s r : JsString)
    (h : ∃ w s', s = w ++ s' ∧ (∀ u ∈ w, isSpace u = true) ∧ Starts s') :
    (skipSpace (s ++ r)).head? ≠ some 93 ∧ (skipSpace (s ++ r)).head? ≠ some 125 := by
  rcases h with ⟨w, s', rfl, hw, hstarts⟩
  rw [List.append_assoc, skipSpace_blank w _ hw, skipSpace_starts s' r hstarts]
  rcases hstarts with ⟨u, s'', rfl, -, harr, hobj⟩
  exact ⟨fun h => harr (Option.some.inj h), fun h => hobj (Option.some.inj h)⟩

theorem piece_arr (vs : List JsValue) (t : Bytes) (s : JsString)
    (h : Piece toNumber (.items vs) t s) :
    Piece toNumber (.value (.arr vs)) (91 :: t ++ [93]) (91 :: s ++ [93]) := by
  refine ⟨coded_between 91 93 t s (by decide) (by decide) h.coded,
    ⟨_, _, rfl, rfl, by decide, by decide⟩, ?_⟩
  intro fuel r hfuel _
  simp only [List.length_append, List.length_cons, List.length_nil] at hfuel
  rcases Nat.exists_eq_add_of_le' (show 1 ≤ fuel by omega) with ⟨n, rfl⟩
  rw [List.append_assoc, List.cons_append, parseValue, if_neg (by decide), if_neg (by decide),
    if_pos rfl, if_neg (head_opens s _ h.opens).1]
  exact h.reads n r [] (by omega)

theorem piece_obj (fields : List (JsString × JsValue)) (t : Bytes) (s : JsString)
    (h : Piece toNumber (.members fields) t s) :
    Piece toNumber (.value (.obj (assignAll [] fields))) (123 :: t ++ [125])
      (123 :: s ++ [125]) := by
  refine ⟨coded_between 123 125 t s (by decide) (by decide) h.coded,
    ⟨_, _, rfl, rfl, by decide, by decide⟩, ?_⟩
  intro fuel r hfuel _
  simp only [List.length_append, List.length_cons, List.length_nil] at hfuel
  rcases Nat.exists_eq_add_of_le' (show 1 ≤ fuel by omega) with ⟨n, rfl⟩
  rw [List.append_assoc, List.cons_append, parseValue, if_neg (by decide), if_pos rfl,
    if_neg (head_opens s _ h.opens).2]
  exact h.reads n r [] (by omega)

/-- A value among white space, up to what ends it. -/
theorem parseValue_padded (v : JsValue) (w s w' : JsString) (hw : ∀ u ∈ w, isSpace u = true)
    (hw' : ∀ u ∈ w', isSpace u = true) (hs : Starts s) (h : ReadsPhrase toNumber (.value v) s)
    (fuel : Nat) (u : UInt16) (r : JsString) (hu : goesOn u = false)
    (hspace : isSpace u = false) (hfuel : 2 * s.length ≤ fuel) :
    ∃ r', parseValue toNumber fuel (skipSpace (w ++ s ++ w' ++ u :: r)) = .ok v r' ∧
      skipSpace r' = u :: r := by
  refine ⟨w' ++ u :: r, ?_, ?_⟩
  · rw [List.append_assoc, List.append_assoc, skipSpace_blank w _ hw, skipSpace_starts s _ hs]
    exact h fuel _ hfuel (stops_blank w' r u hw' hu)
  · rw [skipSpace_blank w' _ hw', skipSpace_cons u r hspace]

theorem piece_item (v : JsValue) (w t w' : Bytes) (s : JsString)
    (hw : Rfc8259.lexicon.Blank w) (hw' : Rfc8259.lexicon.Blank w')
    (h : Piece toNumber (.value v) t s) :
    Piece toNumber (.items [v]) (w ++ t ++ w') (wide w ++ s ++ wide w') := by
  rcases coded_blank w hw with ⟨hcoded, hspace⟩
  rcases coded_blank w' hw' with ⟨hcoded', hspace'⟩
  refine ⟨coded_append _ _ _ _ (coded_append _ _ _ _ hcoded h.coded) hcoded', ?_, ?_⟩
  · rcases h.opens with ⟨u, s', rfl, hu⟩
    exact ⟨wide w, u :: s' ++ wide w', List.append_assoc _ _ _, hspace, _, _, rfl, hu⟩
  · intro fuel r acc hfuel
    simp only [List.length_append] at hfuel
    rcases Nat.exists_eq_add_of_le' (show 1 ≤ fuel by omega) with ⟨n, rfl⟩
    rcases parseValue_padded toNumber v (wide w) s (wide w') hspace hspace' h.opens h.reads n 93 r
      rfl rfl (by omega) with ⟨r', hvalue, hrest⟩
    rw [parseItems, hvalue]
    dsimp only
    rw [hrest]
    rfl

theorem piece_items (v : JsValue) (vs : List JsValue) (w t w' ts : Bytes) (s ss : JsString)
    (hw : Rfc8259.lexicon.Blank w) (hw' : Rfc8259.lexicon.Blank w')
    (h : Piece toNumber (.value v) t s) (hs : Piece toNumber (.items vs) ts ss) :
    Piece toNumber (.items (v :: vs)) (w ++ t ++ w' ++ 44 :: ts)
      (wide w ++ s ++ wide w' ++ 44 :: ss) := by
  rcases coded_blank w hw with ⟨hcoded, hspace⟩
  rcases coded_blank w' hw' with ⟨hcoded', hspace'⟩
  refine ⟨coded_append _ _ _ _ (coded_append _ _ _ _ (coded_append _ _ _ _ hcoded h.coded) hcoded')
    (coded_append [44] ts [44] ss (coded_ascii [44] rfl) hs.coded), ?_, ?_⟩
  · rcases h.opens with ⟨u, s', rfl, hu⟩
    exact ⟨wide w, u :: s' ++ wide w' ++ 44 :: ss, by simp only [List.append_assoc], hspace,
      _, _, rfl, hu⟩
  · intro fuel r acc hfuel
    simp only [List.length_append, List.length_cons] at hfuel
    rcases Nat.exists_eq_add_of_le' (show 1 ≤ fuel by omega) with ⟨n, rfl⟩
    rcases parseValue_padded toNumber v (wide w) s (wide w') hspace hspace' h.opens h.reads n 44
      (ss ++ 93 :: r) rfl rfl (by omega) with ⟨r', hvalue, hrest⟩
    have hnext := hs.reads n r (acc ++ [v]) (by omega)
    rw [List.append_assoc acc, List.singleton_append] at hnext
    rw [List.append_assoc _ (44 :: ss), List.cons_append, parseItems, hvalue]
    dsimp only
    rw [hrest]
    exact hnext

/-- The name of a member, and the colon behind it. -/
theorem keyRest_padded (k ks u' w s r : JsString) (hk : Reads ks (some k))
    (hu' : ∀ u ∈ u', isSpace u = true) (hw : ∀ u ∈ w, isSpace u = true) (hs : Starts s) :
    keyRest ((34 :: ks ++ [34]) ++ u' ++ 58 :: (w ++ s ++ r)) = some (k, s ++ r) := by
  have hname := hk (u' ++ 58 :: (w ++ s ++ r))
  have hcolon : skipSpace (u' ++ 58 :: (w ++ s ++ r)) = 58 :: (w ++ s ++ r) := by
    rw [skipSpace_blank u' _ hu', skipSpace_cons 58 _ rfl]
  have hvalue : skipSpace (w ++ s ++ r) = s ++ r := by
    rw [List.append_assoc, skipSpace_blank w _ hw, skipSpace_starts s r hs]
  rw [List.append_assoc, List.append_assoc, List.singleton_append, List.cons_append, keyRest,
    if_pos rfl, hname]
  simp only [Option.map_some, hcolon, if_true, hvalue]

/-- A member, up to what ends it. -/
theorem parseMembers_padded (k : JsString) (v : JsValue) (u ks u' w s w' : JsString)
    (hu : ∀ x ∈ u, isSpace x = true) (hk : Reads ks (some k)) (hu' : ∀ x ∈ u', isSpace x = true)
    (hw : ∀ x ∈ w, isSpace x = true) (hw' : ∀ x ∈ w', isSpace x = true) (hs : Starts s)
    (h : ReadsPhrase toNumber (.value v) s) (n : Nat) (x : UInt16) (r : JsString)
    (acc : List (JsString × JsValue)) (hx : goesOn x = false) (hspace : isSpace x = false)
    (hfuel : 2 * s.length ≤ n) :
    parseMembers toNumber (n + 1) acc
        (skipSpace (u ++ (34 :: ks ++ [34]) ++ u' ++ 58 :: (w ++ s ++ w') ++ x :: r))
      = if x = 44 then parseMembers toNumber n (setField acc k v) (skipSpace r)
        else if x = 125 then .ok (.obj (setField acc k v)) r
        else .syntaxError := by
  -- What is between the parts of a member is skipped.
  have hskip : skipSpace (u ++ (34 :: ks ++ [34]) ++ u' ++ 58 :: (w ++ s ++ w') ++ x :: r)
      = (34 :: ks ++ [34]) ++ u' ++ 58 :: (w ++ s ++ (w' ++ x :: r)) := by
    rw [show u ++ (34 :: ks ++ [34]) ++ u' ++ 58 :: (w ++ s ++ w') ++ x :: r
      = u ++ ((34 :: ks ++ [34]) ++ u' ++ 58 :: (w ++ s ++ (w' ++ x :: r))) by
        simp only [List.append_assoc, List.cons_append],
      skipSpace_blank u _ hu]
    exact skipSpace_cons 34 _ rfl
  have hvalue := h n (w' ++ x :: r) hfuel (stops_blank w' r x hw' hx)
  have hend : skipSpace (w' ++ x :: r) = x :: r := by
    rw [skipSpace_blank w' _ hw', skipSpace_cons x r hspace]
  rw [hskip, parseMembers, keyRest_padded k ks u' w s _ hk hu' hw hs]
  dsimp only
  rw [hvalue]
  dsimp only
  rw [hend]

/-- The text of a member, decoded. -/
theorem coded_member (u kt u' w t w' : Bytes) (ks s : JsString) (hu : Coded u (wide u))
    (hk : Coded kt ks) (hu' : Coded u' (wide u')) (hw : Coded w (wide w)) (ht : Coded t s)
    (hw' : Coded w' (wide w')) :
    Coded (u ++ (34 :: kt ++ [34]) ++ u' ++ 58 :: (w ++ t ++ w'))
      (wide u ++ (34 :: ks ++ [34]) ++ wide u' ++ 58 :: (wide w ++ s ++ wide w')) := by
  have hname : Coded (34 :: kt ++ [34]) (34 :: ks ++ [34]) :=
    coded_between 34 34 kt ks (by decide) (by decide) hk
  have hvalue := coded_append _ _ _ _ (coded_append _ _ _ _ hw ht) hw'
  exact coded_append _ _ _ _ (coded_append _ _ _ _ (coded_append _ _ _ _ hu hname) hu')
    (coded_append [58] _ [58] _ (coded_ascii [58] rfl) hvalue)

theorem opens_member (u r : JsString) (hu : ∀ x ∈ u, isSpace x = true) :
    ∃ w s', u ++ 34 :: r = w ++ s' ∧ (∀ x ∈ w, isSpace x = true) ∧ Starts s' :=
  ⟨u, 34 :: r, rfl, hu, _, _, rfl, rfl, by decide, by decide⟩

theorem exists_piece_member (k : JsString) (v : JsValue) (u kt u' w t w' : Bytes) (s : JsString)
    (hu : Rfc8259.lexicon.Blank u) (hk : Literal k kt) (hu' : Rfc8259.lexicon.Blank u')
    (hw : Rfc8259.lexicon.Blank w) (hw' : Rfc8259.lexicon.Blank w')
    (h : Piece toNumber (.value v) t s) :
    ∃ s, Piece toNumber (.members [(k, v)])
      (u ++ (34 :: kt ++ [34]) ++ u' ++ 58 :: (w ++ t ++ w')) s := by
  rcases coded_blank u hu with ⟨hcu, hsu⟩
  rcases coded_blank u' hu' with ⟨hcu', hsu'⟩
  rcases coded_blank w hw with ⟨hcw, hsw⟩
  rcases coded_blank w' hw' with ⟨hcw', hsw'⟩
  rcases exists_reads_literal k kt hk with ⟨ks, hks, hreads⟩
  refine ⟨_, coded_member u kt u' w t w' ks s hcu hks hcu' hcw h.coded hcw', ?_, ?_⟩
  · have hopens := opens_member (wide u)
      (ks ++ [34] ++ wide u' ++ 58 :: (wide w ++ s ++ wide w')) hsu
    simpa only [Opens, List.append_assoc, List.cons_append] using hopens
  · intro fuel r acc hfuel
    simp only [List.length_append, List.length_cons] at hfuel
    rcases Nat.exists_eq_add_of_le' (show 1 ≤ fuel by omega) with ⟨n, rfl⟩
    rw [parseMembers_padded toNumber k v (wide u) ks (wide u') (wide w) s (wide w') hsu hreads hsu'
      hsw hsw' h.opens h.reads n 125 r acc rfl rfl (by omega)]
    rfl

theorem exists_piece_members (k : JsString) (v : JsValue) (fields : List (JsString × JsValue))
    (u kt u' w t w' ts : Bytes) (s ss : JsString) (hu : Rfc8259.lexicon.Blank u)
    (hk : Literal k kt) (hu' : Rfc8259.lexicon.Blank u') (hw : Rfc8259.lexicon.Blank w)
    (hw' : Rfc8259.lexicon.Blank w') (h : Piece toNumber (.value v) t s)
    (hs : Piece toNumber (.members fields) ts ss) :
    ∃ s, Piece toNumber (.members ((k, v) :: fields))
      (u ++ (34 :: kt ++ [34]) ++ u' ++ 58 :: (w ++ t ++ w') ++ 44 :: ts) s := by
  rcases coded_blank u hu with ⟨hcu, hsu⟩
  rcases coded_blank u' hu' with ⟨hcu', hsu'⟩
  rcases coded_blank w hw with ⟨hcw, hsw⟩
  rcases coded_blank w' hw' with ⟨hcw', hsw'⟩
  rcases exists_reads_literal k kt hk with ⟨ks, hks, hreads⟩
  refine ⟨wide u ++ (34 :: ks ++ [34]) ++ wide u' ++ 58 :: (wide w ++ s ++ wide w') ++ 44 :: ss,
    coded_append _ _ _ _ (coded_member u kt u' w t w' ks s hcu hks hcu' hcw h.coded hcw')
    (coded_append [44] ts [44] ss (coded_ascii [44] rfl) hs.coded), ?_, ?_⟩
  · have hopens := opens_member (wide u)
      (ks ++ [34] ++ wide u' ++ 58 :: (wide w ++ s ++ wide w') ++ 44 :: ss) hsu
    simpa only [Opens, List.append_assoc, List.cons_append] using hopens
  · intro fuel r acc hfuel
    simp only [List.length_append, List.length_cons] at hfuel
    rcases Nat.exists_eq_add_of_le' (show 1 ≤ fuel by omega) with ⟨n, rfl⟩
    have hmember := parseMembers_padded toNumber k v (wide u) ks (wide u') (wide w) s (wide w') hsu
      hreads hsu' hsw hsw' h.opens h.reads n 44 (ss ++ 125 :: r) acc rfl rfl (by omega)
    rw [if_pos rfl] at hmember
    rw [List.append_assoc _ (44 :: ss)]
    exact hmember.trans (hs.reads n r (setField acc k v) (by omega))

/-- Every phrase is read. -/
theorem exists_piece (p : Phrase JsString JsNumber) (t : Bytes)
    (h : Spells (readerLexicon toNumber) p t) : ∃ s, Piece toNumber p t s := by
  induction h with
  | null => exact ⟨_, piece_null toNumber⟩
  | true => exact ⟨_, piece_true toNumber⟩
  | false => exact ⟨_, piece_false toNumber⟩
  | num n t ht => exact ⟨_, piece_num toNumber n t ht⟩
  | str k t ht => exact exists_piece_str toNumber k t ht
  | emptyArr w hw => exact ⟨_, piece_emptyArr toNumber w hw⟩
  | arr vs t ht ih =>
      rcases ih with ⟨s, hs⟩
      exact ⟨_, piece_arr toNumber vs t s hs⟩
  | emptyObj w hw => exact ⟨_, piece_emptyObj toNumber w hw⟩
  | obj fields t ht ih =>
      rcases ih with ⟨s, hs⟩
      exact ⟨_, piece_obj toNumber fields t s hs⟩
  | item v w t w' hw ht hw' ih =>
      rcases ih with ⟨s, hs⟩
      exact ⟨_, piece_item toNumber v w t w' s hw hw' hs⟩
  | items v vs w t w' ts hw ht hw' hts ih ihs =>
      rcases ih with ⟨s, hs⟩
      rcases ihs with ⟨ss, hss⟩
      exact ⟨_, piece_items toNumber v vs w t w' ts s ss hw hw' hs hss⟩
  | member k v u kt u' w t w' hu hk hu' hw ht hw' ih =>
      rcases ih with ⟨s, hs⟩
      exact exists_piece_member toNumber k v u kt u' w t w' s hu hk hu' hw hw' hs
  | members k v fields u kt u' w t w' ts hu hk hu' hw ht hw' hts ih ihs =>
      rcases ih with ⟨s, hs⟩
      rcases ihs with ⟨ss, hss⟩
      exact exists_piece_members toNumber k v fields u kt u' w t w' ts s ss hu hk hu' hw hw' hs hss

/-- A text is read as the value that it stands for. -/
theorem jsonParse_text (v : JsValue) (w t w' : Bytes) (hw : Rfc8259.lexicon.Blank w)
    (hw' : Rfc8259.lexicon.Blank w') (h : Spells (readerLexicon toNumber) (.value v) t) :
    ∃ s, Coded (w ++ t ++ w') s ∧ jsonParse toNumber s = some v := by
  rcases exists_piece toNumber (.value v) t h with ⟨s, hs⟩
  rcases coded_blank w hw with ⟨hcoded, hspace⟩
  rcases coded_blank w' hw' with ⟨hcoded', hspace'⟩
  refine ⟨wide w ++ s ++ wide w', coded_append _ _ _ _ (coded_append _ _ _ _ hcoded hs.coded)
    hcoded', ?_⟩
  have hstops : Stops (wide w') := by
    cases w' with
    | nil => exact fun _ hu => absurd hu (Option.not_mem_none _)
    | cons b w' =>
        have hstop := stops_blank [] (wide w') b.toUInt16
        refine hstop (fun _ hu => absurd hu List.not_mem_nil) ?_
        have hbyte := hspace' b.toUInt16 List.mem_cons_self
        simp only [isSpace, Bool.or_eq_true, decide_eq_true_eq] at hbyte
        rcases hbyte with ((hb | hb) | hb) | hb <;> rw [hb] <;> rfl
  have hvalue := hs.reads (2 * (wide w ++ s ++ wide w').length + 1) (wide w')
    (by simp only [List.length_append]; omega) hstops
  have hend : skipSpace (wide w') = [] := by
    have hblank := skipSpace_blank (wide w') [] hspace'
    rwa [List.append_nil] at hblank
  rw [jsonParse, List.append_assoc (wide w), skipSpace_blank (wide w) _ hspace,
    skipSpace_starts s _ hs.opens, ← List.append_assoc, hvalue]
  exact if_pos hend

end Phrases

end JsonParse

end MzzPlork

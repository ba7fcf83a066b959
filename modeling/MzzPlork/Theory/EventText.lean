import MzzPlork.Core.ClientEvents
import MzzPlork.Theory.Encoding
import MzzPlork.Theory.JsonParse

/-!
# What an Event Is Printed As

The client writes an event as one JSON object, whose texts go through its
escaper. What the reader has of them is followed through both encodings:
`Coded` relates the bytes that are printed to the code units they are decoded
to.

The escaper takes care of the quote, the backslash and the line feed, so a text
stands between its quotes as it should if it has no other control character.
JSON allows none of these, and with one of them nothing is read.

## Main definitions

* `Coded`: Bytes and what they are decoded to.
* `ClientEvent.members`: What an event says.
* `Clean`: A text that needs no other escapes than the client's.
* `Sent`: A member as it is printed and read.

## Theorems

* `printed_eq`: The four functions print the same form.
* `exists_sent`: What is read of a member.
-/

namespace MzzPlork

namespace EventChannel

open JsonParse Wire

section Characters

/-- Characters in UTF-8. -/
def textBytes (cs : List Char) : Bytes := cs.flatMap String.utf8EncodeChar

/-- Characters in UTF-16. -/
def textUnits (cs : List Char) : JsString := cs.flatMap Wire.unitsOf

/-- A text in UTF-8. -/
def IsUtf8 (t : Bytes) : Prop := ∃ cs, textBytes cs = t

theorem toNat_lt_char (c : Char) : c.val.toNat < 1114112 := by
  have hvalid := c.valid
  simp only [UInt32.isValidChar, Nat.isValidChar] at hvalid
  omega

theorem carried_utf8EncodeChar (c : Char) : Wire.carried (String.utf8EncodeChar c) = c.toNat := by
  have hlt := toNat_lt_char c
  have hc : c.toNat = c.val.toNat := rfl
  -- What a byte carries is left when its leading bits are taken away.
  have hnext (n : Nat) : (n % 64 + 128) % 256 % 64 = n % 64 := by omega
  have htwo (n : Nat) : (n % 32 + 192) % 256 % 32 = n % 32 := by omega
  have hthree (n : Nat) : (n % 16 + 224) % 256 % 16 = n % 16 := by omega
  have hfour (n : Nat) : (n % 8 + 240) % 256 % 8 = n % 8 := by omega
  rw [String.utf8EncodeChar, hc]
  split_ifs <;> simp only [Wire.carried, UInt8.toNat_ofNat', Nat.reducePow, hnext, htwo, hthree,
    hfour] <;> omega

/-- A character is read off its bytes. -/
theorem charOf_utf8EncodeChar (c : Char) : Wire.charOf (String.utf8EncodeChar c) = some c := by
  have hchar : Char.ofNat (Wire.carried (String.utf8EncodeChar c)) = c := by
    rw [carried_utf8EncodeChar, Char.ofNat_toNat]
  rw [Wire.charOf]
  simp only [hchar, if_true]

theorem ofNat_lt_iff (n : Nat) (b : UInt8) (hn : n < 256) : UInt8.ofNat n < b ↔ n < b.toNat := by
  rw [UInt8.lt_iff_toNat_lt, UInt8.toNat_ofNat', Nat.mod_eq_of_lt hn]

theorem unitsOf_ascii (c : Char) (h : c.toNat < 128) :
    Wire.unitsOf c = [c.toNat.toUInt8.toUInt16] := by
  rw [Wire.unitsOf, if_pos (by omega)]
  refine congrArg (fun u => [u]) (UInt16.toNat_inj.mp ?_)
  rw [UInt8.toNat_toUInt16, Nat.toUInt8, Nat.toUInt16, UInt8.toNat_ofNat', UInt16.toNat_ofNat']
  omega

/-- A code unit of a character is the character itself or half of a pair, which
    is far above. -/
theorem toNat_of_mem_unitsOf (c : Char) (u : UInt16) (hu : u ∈ unitsOf c) :
    u.toNat = c.toNat ∨ 0xD800 ≤ u.toNat := by
  have hlt : c.toNat < 1114112 := toNat_lt_char c
  rw [unitsOf] at hu
  split at hu
  · rw [List.mem_singleton.mp hu, Nat.toUInt16, UInt16.toNat_ofNat']
    omega
  · rcases List.mem_pair.mp hu with rfl | rfl <;> rw [Nat.toUInt16, UInt16.toNat_ofNat'] <;> omega

/-- The bytes of a character, in front of others. -/
theorem decodeUtf8_char (c : Char) (t : Bytes) :
    decodeUtf8 (String.utf8EncodeChar c ++ t) = (decodeUtf8 t).map (Wire.unitsOf c ++ ·) := by
  have hchar := charOf_utf8EncodeChar c
  have hlt := toNat_lt_char c
  by_cases hascii : c.toNat < 128
  · rw [utf8EncodeChar_ascii c hascii, unitsOf_ascii c hascii, List.singleton_append,
      decodeUtf8.eq_def]
    dsimp only
    rw [if_pos ((ofNat_lt_iff c.toNat 0x80 (by omega)).mpr hascii)]
    rfl
  · have hnot : ¬ c.val.toNat ≤ 127 := fun hc => hascii (Nat.lt_succ_of_le hc)
    rw [String.utf8EncodeChar] at hchar ⊢
    simp only [if_neg hnot] at hchar ⊢
    -- The first byte tells how many there are.
    split_ifs at hchar ⊢ with htwo hthree
    · have h80 := ofNat_lt_iff (c.val.toNat / 64 % 32 + 192) 0x80 (by omega)
      have hE0 := ofNat_lt_iff (c.val.toNat / 64 % 32 + 192) 0xE0 (by omega)
      simp only [UInt8.reduceToNat] at h80 hE0
      rw [List.cons_append, List.singleton_append, decodeUtf8.eq_def]
      dsimp only
      rw [if_neg (h80.not.mpr (by omega)), if_pos (hE0.mpr (by omega)), hchar]
      cases decodeUtf8 t <;> rfl
    · have h80 := ofNat_lt_iff (c.val.toNat / 4096 % 16 + 224) 0x80 (by omega)
      have hE0 := ofNat_lt_iff (c.val.toNat / 4096 % 16 + 224) 0xE0 (by omega)
      have hF0 := ofNat_lt_iff (c.val.toNat / 4096 % 16 + 224) 0xF0 (by omega)
      simp only [UInt8.reduceToNat] at h80 hE0 hF0
      rw [List.cons_append, List.cons_append, List.singleton_append, decodeUtf8.eq_def]
      dsimp only
      rw [if_neg (h80.not.mpr (by omega)), if_neg (hE0.not.mpr (by omega)),
        if_pos (hF0.mpr (by omega)), hchar]
      cases decodeUtf8 t <;> rfl
    · have h80 := ofNat_lt_iff (c.val.toNat / 262144 % 8 + 240) 0x80 (by omega)
      have hE0 := ofNat_lt_iff (c.val.toNat / 262144 % 8 + 240) 0xE0 (by omega)
      have hF0 := ofNat_lt_iff (c.val.toNat / 262144 % 8 + 240) 0xF0 (by omega)
      simp only [UInt8.reduceToNat] at h80 hE0 hF0
      rw [List.cons_append, List.cons_append, List.cons_append, List.singleton_append,
        decodeUtf8.eq_def]
      dsimp only
      rw [if_neg (h80.not.mpr (by omega)), if_neg (hE0.not.mpr (by omega)),
        if_neg (hF0.not.mpr (by omega)), hchar]
      cases decodeUtf8 t <;> rfl

/-- The reader's decoder, on what is a text. -/
theorem decodeUtf8_textBytes (cs : List Char) (t : Bytes) :
    decodeUtf8 (textBytes cs ++ t) = (decodeUtf8 t).map (textUnits cs ++ ·) := by
  induction cs with
  | nil =>
      rw [textBytes, List.flatMap_nil, List.nil_append]
      exact (Option.map_id' ..).symm
  | cons c cs ih =>
      rw [textBytes, textUnits, List.flatMap_cons, List.flatMap_cons, List.append_assoc,
        decodeUtf8_char, ← textBytes, ih, Option.map_map]
      refine congrFun (congrArg Option.map (funext fun s => ?_)) _
      exact (List.append_assoc ..).symm

end Characters

section Coding

/-- Bytes, and the code units they are decoded to. -/
def Coded (t : Bytes) (s : JsString) : Prop := ∃ cs, textBytes cs = t ∧ textUnits cs = s

theorem Coded.isUtf8 {t : Bytes} {s : JsString} (h : Coded t s) : IsUtf8 t :=
  h.imp (fun _ h => h.1)

theorem coded_append (t t' : Bytes) (s s' : JsString) (h : Coded t s) (h' : Coded t' s') :
    Coded (t ++ t') (s ++ s') := by
  rcases h with ⟨cs, rfl, rfl⟩
  rcases h' with ⟨cs', rfl, rfl⟩
  exact ⟨cs ++ cs', List.flatMap_append, List.flatMap_append⟩

theorem decodeUtf8_coded (t t' : Bytes) (s : JsString) (h : Coded t s) :
    decodeUtf8 (t ++ t') = (decodeUtf8 t').map (s ++ ·) := by
  rcases h with ⟨cs, rfl, rfl⟩
  exact decodeUtf8_textBytes cs t'

theorem decodeUtf8_eq (t : Bytes) (s : JsString) (h : Coded t s) : decodeUtf8 t = some s := by
  have hdecode := decodeUtf8_coded t [] s h
  rwa [List.append_nil, show decodeUtf8 [] = some [] from rfl, Option.map_some,
    List.append_nil] at hdecode

/-- Literals of the source. -/
theorem coded_ascii (s : String) (h : s.toList.all (fun c => c.toNat < 128) = true) :
    Coded (ascii s) (js s) := by
  refine ⟨s.toList, ?_⟩
  rw [ascii, js]
  generalize s.toList = cs at h
  induction cs with
  | nil => exact ⟨rfl, rfl⟩
  | cons c cs ih =>
      rw [List.all_cons, Bool.and_eq_true, decide_eq_true_eq] at h
      rcases ih h.2 with ⟨hbytes, hunits⟩
      rw [textBytes, textUnits, List.flatMap_cons, List.flatMap_cons, ← textBytes, ← textUnits,
        hbytes, hunits, utf8EncodeChar_ascii c h.1, unitsOf, if_pos (by omega)]
      exact ⟨rfl, rfl⟩

/-- A code unit of ASCII is there only if its byte is. -/
theorem mem_of_coded (n : Nat) (hn : n < 128) (t : Bytes) (s : JsString) (h : Coded t s)
    (hmem : n.toUInt16 ∈ s) : n.toUInt8 ∈ t := by
  rcases h with ⟨cs, rfl, rfl⟩
  rcases List.mem_flatMap.mp hmem with ⟨c, hc, hunit⟩
  have hn16 : n.toUInt16.toNat = n := by
    rw [Nat.toUInt16, UInt16.toNat_ofNat']
    omega
  have hval : c.toNat = n := by
    rcases toNat_of_mem_unitsOf c _ hunit with heq | hhigh <;> omega
  refine List.mem_flatMap.mpr ⟨c, hc, ?_⟩
  rw [utf8EncodeChar_ascii c (by omega), hval]
  exact List.mem_singleton_self _

end Coding

section Escaping

/-- The escaper, on characters. -/
def escapeChar (c : Char) : List Char :=
  if c.toNat = 34 then "\\\"".toList
  else if c.toNat = 92 then "\\\\".toList
  else if c.toNat = 10 then "\\n".toList
  else [c]

theorem escapeByte_raw (b : UInt8) (hquote : b ≠ 34) (hback : b ≠ 92) (hline : b ≠ 10) :
    escapeByte b = [b] := by
  unfold escapeByte
  split <;> first | rfl | contradiction

theorem escapeJson_append (t t' : Bytes) :
    escapeJson (t ++ t') = escapeJson t ++ escapeJson t' := List.flatMap_append

theorem escapeJson_raw (t : Bytes) (h : ∀ b ∈ t, b ≠ 34 ∧ b ≠ 92 ∧ b ≠ 10) :
    escapeJson t = t := by
  induction t with
  | nil => rfl
  | cons b t ih =>
      rcases h b List.mem_cons_self with ⟨hquote, hback, hline⟩
      rw [escapeJson, List.flatMap_cons, escapeByte_raw b hquote hback hline, ← escapeJson,
        ih (fun x hx => h x (List.mem_cons_of_mem b hx))]
      rfl

theorem toUInt8_ne (n : Nat) (b : UInt8) (hn : n < 256) (hne : n ≠ b.toNat) : n.toUInt8 ≠ b := by
  rintro rfl
  refine hne ?_
  rw [Nat.toUInt8, UInt8.toNat_ofNat', Nat.mod_eq_of_lt hn]

/-- A byte of ASCII is there only if it is the character. -/
theorem utf8EncodeChar_ne (c : Char) (b : UInt8) (hb : b.toNat < 128) (h : c.toNat ≠ b.toNat) :
    ∀ x ∈ String.utf8EncodeChar c, x ≠ b := by
  intro x hx
  by_cases hascii : c.toNat < 128
  · rw [utf8EncodeChar_ascii c hascii] at hx
    rw [List.mem_singleton.mp hx]
    exact toUInt8_ne _ b (by omega) h
  · rintro rfl
    exact absurd (utf8EncodeChar_high c (by omega) x hx) (by omega)

theorem escapeJson_char (c : Char) :
    escapeJson (String.utf8EncodeChar c) = textBytes (escapeChar c) := by
  unfold escapeChar
  by_cases hascii : c.toNat < 128
  · rw [utf8EncodeChar_ascii c hascii]
    split_ifs with hquote hback hline
    · rw [hquote]
      rfl
    · rw [hback]
      rfl
    · rw [hline]
      rfl
    · rw [textBytes, List.flatMap_singleton, utf8EncodeChar_ascii c hascii]
      exact escapeJson_raw _ (List.forall_mem_singleton.mpr ⟨toUInt8_ne _ 34 (by omega) hquote,
        toUInt8_ne _ 92 (by omega) hback, toUInt8_ne _ 10 (by omega) hline⟩)
  · rw [if_neg (by omega), if_neg (by omega), if_neg (by omega), textBytes,
      List.flatMap_singleton]
    exact escapeJson_raw _ (utf8EncodeChar_raw c (by omega))

theorem escapeJson_textBytes (cs : List Char) :
    escapeJson (textBytes cs) = textBytes (cs.flatMap escapeChar) := by
  induction cs with
  | nil => rfl
  | cons c cs ih =>
      rw [textBytes, List.flatMap_cons, ← textBytes, escapeJson_append, escapeJson_char, ih,
        List.flatMap_cons]
      exact List.flatMap_append.symm

/-- The characters of a text that needs no other escapes. -/
def isClean (c : Char) : Bool := 32 ≤ c.toNat || c.toNat = 10

/-- What an escaped text is read as. -/
def readText (cs : List Char) : Option JsString :=
  if cs.all isClean then some (textUnits cs) else none

theorem readText_cons (c : Char) (cs : List Char) (h : isClean c = true) :
    readText (c :: cs) = (readText cs).map (unitsOf c ++ ·) := by
  rw [readText, readText, List.all_cons, h, Bool.true_and]
  split <;> rfl

theorem raw_of_mem_unitsOf (c : Char) (hctl : 32 ≤ c.toNat) (hquote : c.toNat ≠ 34)
    (hback : c.toNat ≠ 92) : ∀ u ∈ unitsOf c, ¬ u < 32 ∧ u ≠ 34 ∧ u ≠ 92 := by
  intro u hu
  have hval := toNat_of_mem_unitsOf c u hu
  refine ⟨?_, ?_, ?_⟩
  · rw [UInt16.lt_iff_toNat_lt]
    simp only [UInt16.reduceToNat]
    omega
  · rintro rfl
    simp only [UInt16.reduceToNat] at hval
    omega
  · rintro rfl
    simp only [UInt16.reduceToNat] at hval
    omega

theorem reads_char (c : Char) (t : JsString) (v : Option JsString) (h : isClean c = true)
    (ht : Reads t v) : Reads (textUnits (escapeChar c) ++ t) (v.map (unitsOf c ++ ·)) := by
  rw [isClean, Bool.or_eq_true, decide_eq_true_eq, decide_eq_true_eq] at h
  unfold escapeChar
  split_ifs with hquote hback hline
  · rw [unitsOf_ascii c (by omega), hquote]
    exact reads_escape 34 34 t v rfl ht
  · rw [unitsOf_ascii c (by omega), hback]
    exact reads_escape 92 92 t v rfl ht
  · rw [unitsOf_ascii c (by omega), hline]
    exact reads_escape 110 10 t v rfl ht
  · rw [textUnits, List.flatMap_singleton]
    exact reads_units _ t v (raw_of_mem_unitsOf c (h.resolve_right hline) hquote hback) ht

theorem reads_control_char (c : Char) (t : JsString) (h : isClean c = false) :
    Reads (textUnits (escapeChar c) ++ t) none := by
  rw [isClean, Bool.or_eq_false_iff, decide_eq_false_iff_not, decide_eq_false_iff_not] at h
  rw [escapeChar, if_neg (by omega), if_neg (by omega), if_neg h.2, textUnits,
    List.flatMap_singleton, unitsOf_ascii c (by omega)]
  refine reads_control _ t ?_
  rw [UInt16.lt_iff_toNat_lt, UInt8.toNat_toUInt16, Nat.toUInt8, UInt8.toNat_ofNat']
  simp only [UInt16.reduceToNat]
  omega

/-- The escaped text is read as the text, unless it has a control character that
    is not escaped. -/
theorem reads_escaped (cs : List Char) :
    Reads (textUnits (cs.flatMap escapeChar)) (readText cs) := by
  induction cs with
  | nil => exact reads_nil
  | cons c cs ih =>
      rw [List.flatMap_cons, textUnits, List.flatMap_append, ← textUnits, ← textUnits]
      cases h : isClean c with
      | true =>
          rw [readText_cons c cs h]
          exact reads_char c _ _ h ih
      | false =>
          rw [readText, List.all_cons, h, Bool.false_and, if_neg Bool.false_ne_true]
          exact reads_control_char c _ h

theorem mem_escapeJson (b : UInt8) (t : Bytes) (h : b ∈ escapeJson t) :
    (b ∈ t ∧ b ≠ 10) ∨ b = 34 ∨ b = 92 ∨ b = 110 := by
  rcases List.mem_flatMap.mp h with ⟨x, hx, hb⟩
  unfold escapeByte at hb
  split at hb
  · rcases List.mem_pair.mp hb with rfl | rfl
    · exact Or.inr (Or.inr (Or.inl rfl))
    · exact Or.inr (Or.inl rfl)
  · rcases List.mem_pair.mp hb with rfl | rfl <;> exact Or.inr (Or.inr (Or.inl rfl))
  · rcases List.mem_pair.mp hb with rfl | rfl
    · exact Or.inr (Or.inr (Or.inl rfl))
    · exact Or.inr (Or.inr (Or.inr rfl))
  · next _ _ hline =>
      rw [List.mem_singleton.mp hb]
      exact Or.inl ⟨hx, hline⟩

/-- Only a NUL would cut a text short. -/
theorem percentS_eq (t : Bytes) (h : 0 ∉ t) : percentS t = escapeJson t := by
  refine List.takeWhile_eq_self_iff.mpr (fun b hb => decide_eq_true ?_)
  rintro rfl
  rcases mem_escapeJson 0 t hb with ⟨hmem, _⟩ | hc | hc | hc
  · exact h hmem
  all_goals exact absurd hc (by decide)

end Escaping

section Members

/-- The kind of an event. -/
def ClientEvent.kind : ClientEvent → String
  | .state _ => "state"
  | .service _ _ _ => "service"
  | .log _ => "log"
  | .error _ => "error"

/-- The arguments of the call, by the names they are sent under. -/
def ClientEvent.fields : ClientEvent → List (String × Bytes)
  | .state name => [("state", name)]
  | .service name status message => [("service", name), ("status", status), ("message", message)]
  | .log message => [("message", message)]
  | .error message => [("message", message)]

/-- Everything an event says. -/
def ClientEvent.members (e : ClientEvent) : List (String × Bytes) :=
  ("event", ascii e.kind) :: e.fields

/-- How a member is printed. -/
def memberBytes (m : String × Bytes) : Bytes :=
  34 :: ascii m.1 ++ 34 :: 58 :: 34 :: percentS m.2 ++ [34]

/-- How several are printed. -/
def membersBytes : List (String × Bytes) → Bytes
  | [] => []
  | [m] => memberBytes m
  | m :: m' :: ms => memberBytes m ++ 44 :: membersBytes (m' :: ms)

/-- The four functions print the same form. -/
theorem printed_eq (e : ClientEvent) :
    e.printed = 123 :: membersBytes e.members ++ [125] ++ [10] := by
  cases e with
  | state name =>
      simp only [ClientEvent.printed, ClientEvent.members, ClientEvent.kind,
        ClientEvent.fields, emitStateEvent, membersBytes, memberBytes, List.cons_append,
        List.append_assoc, List.nil_append]
      rfl
  | service name status message =>
      simp only [ClientEvent.printed, ClientEvent.members, ClientEvent.kind,
        ClientEvent.fields, emitServiceEvent, membersBytes, memberBytes, List.cons_append,
        List.append_assoc, List.nil_append]
      rfl
  | log message =>
      simp only [ClientEvent.printed, ClientEvent.members, ClientEvent.kind,
        ClientEvent.fields, emitLogEvent, membersBytes, memberBytes, List.cons_append,
        List.append_assoc, List.nil_append]
      rfl
  | error message =>
      simp only [ClientEvent.printed, ClientEvent.members, ClientEvent.kind,
        ClientEvent.fields, emitErrorEvent, membersBytes, memberBytes, List.cons_append,
        List.append_assoc, List.nil_append]
      rfl

/-- A text whose only control characters are line feeds. -/
def Clean (t : Bytes) : Prop := ∀ b ∈ t, 32 ≤ b ∨ b = 10

theorem clean_textBytes (cs : List Char) : Clean (textBytes cs) ↔ cs.all isClean = true := by
  rw [List.all_eq_true]
  constructor
  · intro h c hc
    rw [isClean, Bool.or_eq_true, decide_eq_true_eq, decide_eq_true_eq]
    by_cases hascii : c.toNat < 128
    · have hbyte := h c.toNat.toUInt8 (List.mem_flatMap.mpr ⟨c, hc, by
        rw [utf8EncodeChar_ascii c hascii]
        exact List.mem_singleton_self _⟩)
      rw [UInt8.le_iff_toNat_le, ← UInt8.toNat_inj, Nat.toUInt8, UInt8.toNat_ofNat',
        Nat.mod_eq_of_lt (by omega)] at hbyte
      exact hbyte
    · exact Or.inl (by omega)
  · intro h b hb
    rcases List.mem_flatMap.mp hb with ⟨c, hc, hbyte⟩
    have hclean := h c hc
    rw [isClean, Bool.or_eq_true, decide_eq_true_eq, decide_eq_true_eq] at hclean
    rw [UInt8.le_iff_toNat_le, ← UInt8.toNat_inj]
    simp only [UInt8.reduceToNat]
    by_cases hascii : c.toNat < 128
    · rw [utf8EncodeChar_ascii c hascii] at hbyte
      rw [List.mem_singleton.mp hbyte, Nat.toUInt8, UInt8.toNat_ofNat',
        Nat.mod_eq_of_lt (by omega)]
      exact hclean
    · have hhigh := utf8EncodeChar_high c (by omega) b hbyte
      exact Or.inl (by omega)

/-- A name that stands for itself. -/
def plainKey (k : String) : Bool :=
  k.toList.all (fun c => 32 ≤ c.toNat && c.toNat < 128 && c.toNat != 34 && c.toNat != 92)

theorem plainKey_char (k : String) (h : plainKey k = true) :
    ∀ c ∈ k.toList, 32 ≤ c.toNat ∧ c.toNat < 128 ∧ c.toNat ≠ 34 ∧ c.toNat ≠ 92 := by
  intro c hc
  have hplain := List.all_eq_true.mp h c hc
  simp only [Bool.and_eq_true, decide_eq_true_eq, bne_iff_ne] at hplain
  exact ⟨hplain.1.1.1, hplain.1.1.2, hplain.1.2, hplain.2⟩

theorem coded_key (k : String) (h : plainKey k = true) : Coded (ascii k) (js k) :=
  coded_ascii k (List.all_eq_true.mpr (fun c hc => decide_eq_true (plainKey_char k h c hc).2.1))

theorem reads_key (k : String) (h : plainKey k = true) : Reads (js k) (some (js k)) := by
  have hreads := reads_units (js k) [] (some []) (fun u hu => ?_) reads_nil
  · rw [List.append_nil, Option.map_some, List.append_nil] at hreads
    exact hreads
  · rcases List.mem_map.mp hu with ⟨c, hc, rfl⟩
    rcases plainKey_char k h c hc with ⟨hctl, hascii, hquote, hback⟩
    refine raw_of_mem_unitsOf c hctl hquote hback _ ?_
    rw [unitsOf, if_pos (by omega)]
    exact List.mem_singleton_self _

/-- A member on its way: what is printed of it and what is read of that. -/
structure Sent (m : String × Bytes) (p : Property) : Prop where
  key : p.key = js m.1
  coded : Coded (percentS m.2) p.text
  clean : Clean m.2 → p.value = decodeUtf8 m.2
  refused : ¬ Clean m.2 → p.value = none

theorem exists_sent (m : String × Bytes) (hkey : plainKey m.1 = true) (hutf : IsUtf8 m.2)
    (hnul : 0 ∉ m.2) : ∃ p, Sent m p := by
  rcases hutf with ⟨cs, hcs⟩
  have hclean := clean_textBytes cs
  rw [hcs] at hclean
  refine ⟨⟨js m.1, textUnits (cs.flatMap escapeChar), readText cs, reads_key m.1 hkey,
    reads_escaped cs⟩, rfl, ?_, ?_, ?_⟩
  · rw [percentS_eq m.2 hnul, ← hcs, escapeJson_textBytes]
    exact ⟨_, rfl, rfl⟩
  · intro h
    rw [decodeUtf8_eq m.2 _ ⟨cs, hcs, rfl⟩]
    exact if_pos (hclean.mp h)
  · intro h
    exact if_neg (hclean.not.mp h)

theorem exists_sent_all (ms : List (String × Bytes)) (h : ∀ m ∈ ms, ∃ p, Sent m p) :
    ∃ ps, List.Forall₂ Sent ms ps := by
  induction ms with
  | nil => exact ⟨[], List.Forall₂.nil⟩
  | cons m ms ih =>
      rcases h m List.mem_cons_self with ⟨p, hp⟩
      rcases ih (fun m' hm => h m' (List.mem_cons_of_mem m hm)) with ⟨ps, hps⟩
      exact ⟨p :: ps, List.Forall₂.cons hp hps⟩

theorem keys_sent (ms : List (String × Bytes)) (ps : List Property)
    (h : List.Forall₂ Sent ms ps) : ps.map Property.key = ms.map (fun m => js m.1) := by
  induction h with
  | nil => rfl
  | cons hm hms ih => rw [List.map_cons, List.map_cons, hm.key, ih]

theorem coded_memberBytes (m : String × Bytes) (p : Property) (hkey : plainKey m.1 = true)
    (h : Sent m p) : Coded (memberBytes m) p.spelt := by
  have hname := coded_append (ascii "\"") _ (js "\"") _ (coded_ascii "\"" rfl)
    (coded_key m.1 hkey)
  have hcolon := coded_append _ (ascii "\":\"") _ (js "\":\"") hname (coded_ascii "\":\"" rfl)
  have htext := coded_append _ _ _ _ (coded_append _ _ _ _ hcolon h.coded)
    (coded_ascii "\"" rfl)
  rw [memberBytes, Property.spelt, h.key]
  simp only [List.append_assoc] at htext ⊢
  exact htext

theorem coded_membersBytes (ms : List (String × Bytes)) (ps : List Property)
    (hkeys : ∀ m ∈ ms, plainKey m.1 = true) (h : List.Forall₂ Sent ms ps) :
    Coded (membersBytes ms) (membersText ps) := by
  induction h with
  | nil => exact ⟨[], rfl, rfl⟩
  | @cons m p ms ps hm hms ih =>
      have hmember := coded_memberBytes m p (hkeys m List.mem_cons_self) hm
      have hrest := ih (fun m' hm' => hkeys m' (List.mem_cons_of_mem m hm'))
      cases hms with
      | nil => exact hmember
      | cons hm' hms' =>
          exact coded_append _ _ _ _ hmember
            (coded_append [44] _ [44] _ (coded_ascii "," rfl) hrest)

/-- What is read of the members, where all of them are clean. -/
theorem propertyValues_clean (ms : List (String × Bytes)) (ps : List Property)
    (h : List.Forall₂ Sent ms ps) (hclean : ∀ m ∈ ms, Clean m.2) :
    propertyValues ps
      = ms.mapM (fun m => (decodeUtf8 m.2).map (fun s => (js m.1, Json.str s))) := by
  induction h with
  | nil => rfl
  | @cons m p ms ps hm hms ih =>
      have hvalue := hm.clean (hclean m List.mem_cons_self)
      have hrest := ih (fun m' hm' => hclean m' (List.mem_cons_of_mem m hm'))
      rw [propertyValues] at hrest ⊢
      rw [List.mapM_cons, List.mapM_cons, hrest, hvalue, hm.key]

theorem exists_values (ms : List (String × Bytes)) (h : ∀ m ∈ ms, IsUtf8 m.2) :
    ∃ new, ms.mapM (fun m => (decodeUtf8 m.2).map (fun s => (js m.1, Json.str s)))
      = some (new : List (JsString × JsValue)) := by
  induction ms with
  | nil => exact ⟨[], rfl⟩
  | cons m ms ih =>
      rcases h m List.mem_cons_self with ⟨cs, hcs⟩
      rcases ih (fun m' hm => h m' (List.mem_cons_of_mem m hm)) with ⟨new, hnew⟩
      rw [List.mapM_cons, decodeUtf8_eq m.2 _ ⟨cs, hcs, rfl⟩, hnew]
      exact ⟨_, rfl⟩

theorem clean_of_propertyValues (ms : List (String × Bytes)) (ps : List Property)
    (h : List.Forall₂ Sent ms ps) (new : List (JsString × JsValue))
    (hnew : propertyValues ps = some new) : ∀ m ∈ ms, Clean m.2 := by
  induction h generalizing new with
  | nil => exact fun _ hm => absurd hm List.not_mem_nil
  | @cons m p ms ps hm hms ih =>
      cases hv : p.value with
      | none =>
          rw [propertyValues_none p ps hv] at hnew
          exact absurd hnew (by simp only [reduceCtorEq, not_false_eq_true])
      | some v =>
          rw [propertyValues_some p ps v hv] at hnew
          rcases Option.map_eq_some_iff.mp hnew with ⟨rest, hrest, _⟩
          have hclean : Clean m.2 := by
            by_contra hc
            rw [hm.refused hc] at hv
            exact absurd hv (by simp only [reduceCtorEq, not_false_eq_true])
          exact List.forall_mem_cons.mpr ⟨hclean, ih rest hrest⟩

end Members

end EventChannel

end MzzPlork

import MzzPlork.Core.JsonParse

/-!
# What `JSON.parse` Reads

Every function of the parser takes something off the text it reads, so the
fuel of `jsonParse` is enough for every text, and a text is refused by the
grammar alone.

Behind that come the pieces of a text of one object whose properties are
strings. A piece is described by what the parser makes of it in front of
anything else.

## Main definitions

* `EndsWithin`: An outcome that is none of the fuel.
* `Reads`: What stands between two quotes.
* `membersText`: The properties of such an object.

## Theorems

* `endsWithin_parseValue`: The fuel is enough.
* `jsonParse_eq_none`: What a text is refused for.
* `parseMembers_membersText`, `jsonParse_object`: Such an object is read as its
  properties.
-/

namespace MzzPlork

namespace JsonParse

section Lengths

/-- The text was refused, or fewer than so many code units are left of it. -/
def EndsWithin (bound : Nat) : Parsed → Prop
  | .ok _ rest => rest.length < bound
  | .syntaxError => True
  | .outOfFuel => False

theorem endsWithin_mono (bound bound' : Nat) (p : Parsed) (hle : bound ≤ bound')
    (h : EndsWithin bound p) : EndsWithin bound' p := by
  cases p with
  | ok v rest => exact Nat.lt_of_lt_of_le h hle
  | syntaxError => exact trivial
  | outOfFuel => exact h

theorem length_skipSpace (s : JsString) : (skipSpace s).length ≤ s.length :=
  (List.dropWhile_sublist isSpace).length_le

theorem length_skipSpace_cons (s : JsString) (u : UInt16) (rest : JsString)
    (h : skipSpace s = u :: rest) : rest.length < s.length := by
  have hle := length_skipSpace s
  rw [h, List.length_cons] at hle
  exact hle

theorem stringRest_length (s v rest : JsString) (h : stringRest s = some (v, rest)) :
    rest.length < s.length := by
  fun_induction stringRest s generalizing v rest with
  | case1 => exact absurd h (by simp only [reduceCtorEq, not_false_eq_true])
  | case2 s =>
      rw [(Prod.mk.inj (Option.some.inj h)).2, List.length_cons]
      exact Nat.lt_succ_self _
  | case3 | case4 => exact absurd h (by simp only [reduceCtorEq, not_false_eq_true])
  | case5 a b c d s _ _ ih =>
      rcases Option.bind_eq_some_iff.mp h with ⟨u, _, h⟩
      rcases Option.bind_eq_some_iff.mp h with ⟨r, hr, h⟩
      have hlt := ih r.1 r.2 hr
      rw [← (Prod.mk.inj (Option.some.inj h)).2]
      simp only [List.length_cons]
      omega
  | case6 => exact absurd h (by simp only [reduceCtorEq, not_false_eq_true])
  | case7 e s _ _ _ ih =>
      rcases Option.bind_eq_some_iff.mp h with ⟨u, _, h⟩
      rcases Option.bind_eq_some_iff.mp h with ⟨r, hr, h⟩
      have hlt := ih r.1 r.2 hr
      rw [← (Prod.mk.inj (Option.some.inj h)).2]
      simp only [List.length_cons]
      omega
  | case8 u s _ _ _ ih =>
      rcases Option.map_eq_some_iff.mp h with ⟨r, hr, h⟩
      have hlt := ih r.1 r.2 hr
      rw [← (Prod.mk.inj h).2, List.length_cons]
      exact Nat.lt_succ_of_lt hlt

theorem keyRest_length (s key rest : JsString) (h : keyRest s = some (key, rest)) :
    rest.length < s.length := by
  unfold keyRest at h
  split at h
  · exact absurd h (by simp only [reduceCtorEq, not_false_eq_true])
  · next u s =>
      split at h
      · split at h
        · exact absurd h (by simp only [reduceCtorEq, not_false_eq_true])
        · next k t hstring =>
            split at h
            · exact absurd h (by simp only [reduceCtorEq, not_false_eq_true])
            · next u' t' hskip =>
                split at h
                · have hstr := stringRest_length s k t hstring
                  have hcolon := length_skipSpace_cons t u' t' hskip
                  have hvalue := length_skipSpace t'
                  rw [(Prod.mk.inj (Option.some.inj h)).2] at hvalue
                  rw [List.length_cons]
                  omega
                · exact absurd h (by simp only [reduceCtorEq, not_false_eq_true])
      · exact absurd h (by simp only [reduceCtorEq, not_false_eq_true])

theorem digitsRest_length (s rest : JsString) (h : digitsRest s = some rest) :
    rest.length < s.length := by
  rw [digitsRest] at h
  split at h
  · next hdigit =>
      cases s with
      | nil => exact Bool.noConfusion hdigit
      | cons u s =>
          have hu : isDigit u = true := hdigit
          rw [Option.some.injEq, List.dropWhile_cons, if_pos hu] at h
          rw [← h, List.length_cons]
          exact Nat.lt_succ_of_le (List.dropWhile_sublist isDigit).length_le
  · exact absurd h (by simp only [reduceCtorEq, not_false_eq_true])

theorem integerRest_length (s rest : JsString) (h : integerRest s = some rest) :
    rest.length < s.length := by
  rw [integerRest] at h
  split at h
  · next hzero =>
      cases s with
      | nil => exact absurd hzero (by simp only [List.head?_nil, reduceCtorEq, not_false_eq_true])
      | cons u s =>
          rw [← Option.some.inj h]
          exact Nat.lt_succ_self _
  · exact digitsRest_length s rest h

theorem fractionRest_length (s rest : JsString) (h : fractionRest s = some rest) :
    rest.length ≤ s.length := by
  rw [fractionRest] at h
  split at h
  · have hlt := digitsRest_length _ rest h
    rw [List.length_tail] at hlt
    omega
  · exact le_of_eq (congrArg List.length (Option.some.inj h)).symm

theorem exponentRest_length (s rest : JsString) (h : exponentRest s = some rest) :
    rest.length ≤ s.length := by
  rw [exponentRest] at h
  split at h
  · split at h
    · have hlt := digitsRest_length _ rest h
      simp only [List.length_tail] at hlt
      omega
    · have hlt := digitsRest_length _ rest h
      rw [List.length_tail] at hlt
      omega
  · exact le_of_eq (congrArg List.length (Option.some.inj h)).symm

theorem numberRest_length (s rest : JsString) (h : numberRest s = some rest) :
    rest.length < s.length := by
  rw [numberRest] at h
  rcases Option.bind_eq_some_iff.mp h with ⟨s₁, h₁, h⟩
  rcases Option.bind_eq_some_iff.mp h with ⟨s₂, h₂, h₃⟩
  have hint := integerRest_length _ s₁ h₁
  have hfrac := fractionRest_length s₁ s₂ h₂
  have hexp := exponentRest_length s₂ rest h₃
  have hsign : (if s.head? = some 45 then s.tail else s).length ≤ s.length := by
    split
    · rw [List.length_tail]
      omega
    · exact le_refl _
  omega

end Lengths

section Fuel

variable (toNumber : JsString → JsNumber)

theorem endsWithin_drop (p s : JsString) (v : JsValue) (hp : 0 < p.length)
    (h : p.isPrefixOf s = true) : EndsWithin s.length (.ok v (s.drop p.length)) := by
  have hlen := (List.isPrefixOf_iff_prefix.mp h).length_le
  rw [EndsWithin, List.length_drop]
  omega

theorem endsWithin_parseScalar (s : JsString) : EndsWithin s.length (parseScalar toNumber s) := by
  unfold parseScalar
  split
  · next h => exact endsWithin_drop (js "true") s _ (by decide) h
  · split
    · next h => exact endsWithin_drop (js "false") s _ (by decide) h
    · split
      · next h => exact endsWithin_drop (js "null") s _ (by decide) h
      · split
        · next rest hrest => exact numberRest_length s rest hrest
        · exact trivial

/-- So much fuel is enough for the texts whose length it covers. Every level of
    a value takes one unit of it, and so does every item and every property. -/
def Enough (n : Nat) : Prop :=
  (∀ s, 2 * s.length + 1 ≤ n → EndsWithin s.length (parseValue toNumber n s)) ∧
  (∀ items s, 2 * s.length + 2 ≤ n → EndsWithin s.length (parseItems toNumber n items s)) ∧
  (∀ fields s, 2 * s.length + 2 ≤ n → EndsWithin s.length (parseMembers toNumber n fields s))

theorem enough_zero : Enough toNumber 0 :=
  ⟨fun _ h => absurd h (by omega), fun _ _ h => absurd h (by omega),
    fun _ _ h => absurd h (by omega)⟩

theorem endsWithin_parseValue_succ (n : Nat) (hn : Enough toNumber n) (s : JsString)
    (hs : 2 * s.length + 1 ≤ n + 1) : EndsWithin s.length (parseValue toNumber (n + 1) s) := by
  cases s with
  | nil => exact trivial
  | cons u s =>
      have hskip := length_skipSpace s
      rw [List.length_cons] at hs ⊢
      unfold parseValue
      split
      · split
        · next v rest hrest => exact Nat.lt_succ_of_lt (stringRest_length s v rest hrest)
        · exact trivial
      · split
        · split
          · rw [EndsWithin, List.length_tail]
            omega
          · exact endsWithin_mono _ _ _ (Nat.le_succ_of_le hskip)
              (hn.2.2 [] (skipSpace s) (by omega))
        · split
          · split
            · rw [EndsWithin, List.length_tail]
              omega
            · exact endsWithin_mono _ _ _ (Nat.le_succ_of_le hskip)
                (hn.2.1 [] (skipSpace s) (by omega))
          · exact endsWithin_parseScalar toNumber (u :: s)

theorem endsWithin_parseItems_succ (n : Nat) (hn : Enough toNumber n) (items : List JsValue)
    (s : JsString) (hs : 2 * s.length + 2 ≤ n + 1) :
    EndsWithin s.length (parseItems toNumber (n + 1) items s) := by
  have hvalue := hn.1 s (by omega)
  rw [parseItems]
  cases h : parseValue toNumber n s with
  | syntaxError => exact trivial
  | outOfFuel =>
      rw [h] at hvalue
      exact hvalue
  | ok v rest =>
      rw [h] at hvalue
      have hrest : rest.length < s.length := hvalue
      dsimp only
      cases hskip : skipSpace rest with
      | nil => exact trivial
      | cons u t =>
          have ht := length_skipSpace_cons rest u t hskip
          have hnext := length_skipSpace t
          dsimp only
          split
          · exact endsWithin_mono _ _ _ (by omega) (hn.2.1 (items ++ [v]) (skipSpace t) (by omega))
          · split
            · exact Nat.lt_trans ht hrest
            · exact trivial

theorem endsWithin_parseMembers_succ (n : Nat) (hn : Enough toNumber n)
    (fields : List (JsString × JsValue)) (s : JsString) (hs : 2 * s.length + 2 ≤ n + 1) :
    EndsWithin s.length (parseMembers toNumber (n + 1) fields s) := by
  rw [parseMembers]
  cases hkey : keyRest s with
  | none => exact trivial
  | some r =>
      have hlen := keyRest_length s r.1 r.2 hkey
      have hvalue := hn.1 r.2 (by omega)
      dsimp only
      cases h : parseValue toNumber n r.2 with
      | syntaxError => exact trivial
      | outOfFuel =>
          rw [h] at hvalue
          exact hvalue
      | ok v rest =>
          rw [h] at hvalue
          have hrest : rest.length < r.2.length := hvalue
          dsimp only
          cases hskip : skipSpace rest with
          | nil => exact trivial
          | cons u t =>
              have ht := length_skipSpace_cons rest u t hskip
              have hnext := length_skipSpace t
              dsimp only
              split
              · exact endsWithin_mono _ _ _ (by omega)
                  (hn.2.2 (setField fields r.1 v) (skipSpace t) (by omega))
              · split
                · exact Nat.lt_trans ht (Nat.lt_trans hrest hlen)
                · exact trivial

theorem enough (n : Nat) : Enough toNumber n := by
  induction n with
  | zero => exact enough_zero toNumber
  | succ n ih =>
      exact ⟨endsWithin_parseValue_succ toNumber n ih, endsWithin_parseItems_succ toNumber n ih,
        endsWithin_parseMembers_succ toNumber n ih⟩

/-- The fuel of `jsonParse` is enough, whatever the text. -/
theorem endsWithin_parseValue (s : JsString) :
    EndsWithin (skipSpace s).length (parseValue toNumber (2 * s.length + 1) (skipSpace s)) := by
  have hskip := length_skipSpace s
  exact (enough toNumber (2 * s.length + 1)).1 (skipSpace s) (by omega)

/-- A text that `JSON.parse` throws at is one that the grammar refuses, or one
    with something behind its value. -/
theorem jsonParse_eq_none (s : JsString) (h : jsonParse toNumber s = none) :
    parseValue toNumber (2 * s.length + 1) (skipSpace s) = .syntaxError ∨
      ∃ v rest, parseValue toNumber (2 * s.length + 1) (skipSpace s) = .ok v rest ∧
        skipSpace rest ≠ [] := by
  have hends := endsWithin_parseValue toNumber s
  rw [jsonParse] at h
  cases hv : parseValue toNumber (2 * s.length + 1) (skipSpace s) with
  | syntaxError => exact Or.inl rfl
  | outOfFuel =>
      rw [hv] at hends
      exact hends.elim
  | ok v rest =>
      rw [hv] at h
      refine Or.inr ⟨v, rest, rfl, ?_⟩
      intro hnil
      dsimp only at h
      rw [if_pos hnil] at h
      exact absurd h (by simp only [reduceCtorEq, not_false_eq_true])

end Fuel

section Objects

/-- What the parser makes of the code units between two quotes, whatever stands
    behind them. -/
def Reads (t : JsString) (v : Option JsString) : Prop :=
  ∀ rest, stringRest (t ++ 34 :: rest) = v.map (fun v => (v, rest))

theorem reads_nil : Reads [] (some []) := fun rest => by
  rw [List.nil_append, stringRest.eq_def]
  rfl

/-- A code unit that stands for itself. -/
theorem reads_plain (u : UInt16) (t : JsString) (v : Option JsString) (hctl : ¬ u < 32)
    (hquote : u ≠ 34) (hback : u ≠ 92) (h : Reads t v) : Reads (u :: t) (v.map (u :: ·)) := by
  intro rest
  rw [List.cons_append, stringRest.eq_def]
  dsimp only
  rw [if_neg hquote, if_neg hctl, if_neg hback, h rest, Option.map_map, Option.map_map]
  rfl

theorem reads_units (s t : JsString) (v : Option JsString)
    (hs : ∀ u ∈ s, ¬ u < 32 ∧ u ≠ 34 ∧ u ≠ 92) (h : Reads t v) :
    Reads (s ++ t) (v.map (s ++ ·)) := by
  induction s with
  | nil =>
      rw [show ((fun w : JsString => [] ++ w) = id) from rfl, Option.map_id]
      exact h
  | cons u s ih =>
      rcases hs u List.mem_cons_self with ⟨hctl, hquote, hback⟩
      have hreads := reads_plain u _ _ hctl hquote hback
        (ih (fun x hx => hs x (List.mem_cons_of_mem u hx)))
      rw [Option.map_map] at hreads
      exact hreads

/-- An escape of one letter. -/
theorem reads_escape (e u : UInt16) (t : JsString) (v : Option JsString)
    (he : unescape e = some u) (h : Reads t v) : Reads (92 :: e :: t) (v.map (u :: ·)) := by
  intro rest
  have hletter : e ≠ 117 := by
    rintro rfl
    exact absurd he.symm (Option.some_ne_none u)
  rw [List.cons_append, List.cons_append, stringRest.eq_def]
  dsimp only
  rw [if_neg (by decide), if_neg (by decide), if_pos rfl, if_neg hletter, he, h rest]
  cases v <;> rfl

/-- A control character is refused. -/
theorem reads_control (u : UInt16) (t : JsString) (hctl : u < 32) : Reads (u :: t) none := by
  intro rest
  have hquote : u ≠ 34 := by
    rintro rfl
    exact absurd hctl (by decide)
  rw [List.cons_append, stringRest.eq_def]
  dsimp only
  rw [if_neg hquote, if_pos hctl]
  rfl

/-- A property of an object: its name, which stands for itself, the code units
    between the quotes of its value, and what these stand for. -/
structure Property where
  key : JsString
  text : JsString
  value : Option JsString
  reads_key : Reads key (some key)
  reads_text : Reads text value

/-- How the property is written. -/
def Property.spelt (p : Property) : JsString :=
  34 :: p.key ++ 34 :: 58 :: 34 :: p.text ++ [34]

/-- How several are written. -/
def membersText : List Property → JsString
  | [] => []
  | [p] => p.spelt
  | p :: q :: ps => p.spelt ++ 44 :: membersText (q :: ps)

/-- The properties as they are read, where the grammar allows all of them. -/
def propertyValues (ps : List Property) : Option (List (JsString × JsValue)) :=
  ps.mapM (fun p => p.value.map (fun v => (p.key, .str v)))

theorem keyRest_spelt (p : Property) (rest : JsString) :
    keyRest (p.spelt ++ rest) = some (p.key, 34 :: p.text ++ 34 :: rest) := by
  have hspelt : p.spelt ++ rest = 34 :: (p.key ++ 34 :: 58 :: 34 :: p.text ++ 34 :: rest) := by
    simp only [Property.spelt, List.cons_append, List.append_assoc, List.nil_append]
  have hkey := p.reads_key (58 :: 34 :: p.text ++ 34 :: rest)
  rw [hspelt, keyRest, if_pos rfl]
  simp only [List.cons_append, List.append_assoc] at hkey ⊢
  rw [hkey]
  rfl

theorem setField_fresh (fields : List (JsString × JsValue)) (key : JsString) (v : JsValue)
    (h : key ∉ fields.map Prod.fst) : setField fields key v = fields ++ [(key, v)] := by
  have hnone : fields.lookup key = none := by
    rw [List.lookup_eq_none_iff]
    intro e he
    rw [bne_iff_ne]
    rintro rfl
    exact h (List.mem_map_of_mem he)
  rw [setField, hnone, if_neg (by simp only [Option.isSome_none, reduceCtorEq, not_false_eq_true])]

variable (toNumber : JsString → JsNumber)

theorem parseValue_text (p : Property) (n : Nat) (rest : JsString) :
    parseValue toNumber (n + 1) (34 :: p.text ++ 34 :: rest)
      = match p.value with
        | some v => .ok (.str v) rest
        | none => .syntaxError := by
  rw [List.cons_append, parseValue, if_pos rfl, p.reads_text rest]
  cases p.value <;> rfl

/-- A property in front of anything else. -/
theorem parseMembers_spelt (n : Nat) (fields : List (JsString × JsValue)) (p : Property)
    (rest : JsString) (hfresh : p.key ∉ fields.map Prod.fst) :
    parseMembers toNumber (n + 2) fields (p.spelt ++ rest)
      = match p.value, skipSpace rest with
        | none, _ => .syntaxError
        | some _, [] => .syntaxError
        | some v, u :: rest =>
          if u = 44 then
            parseMembers toNumber (n + 1) (fields ++ [(p.key, .str v)]) (skipSpace rest)
          else if u = 125 then .ok (.obj (fields ++ [(p.key, .str v)])) rest
          else .syntaxError := by
  rw [parseMembers, keyRest_spelt]
  dsimp only
  rw [parseValue_text]
  cases p.value with
  | none => rfl
  | some v =>
      dsimp only
      rw [setField_fresh fields p.key _ hfresh]
      cases skipSpace rest <;> rfl

/-- The last property. -/
theorem parseMembers_last (n : Nat) (fields : List (JsString × JsValue)) (p : Property)
    (rest : JsString) (hfresh : p.key ∉ fields.map Prod.fst) :
    parseMembers toNumber (n + 2) fields (p.spelt ++ 125 :: rest)
      = match p.value with
        | some v => .ok (.obj (fields ++ [(p.key, .str v)])) rest
        | none => .syntaxError := by
  rw [parseMembers_spelt toNumber n fields p _ hfresh]
  cases p.value <;> rfl

/-- A property in front of another one. -/
theorem parseMembers_comma (n : Nat) (fields : List (JsString × JsValue)) (p : Property)
    (rest : JsString) (hfresh : p.key ∉ fields.map Prod.fst) :
    parseMembers toNumber (n + 2) fields (p.spelt ++ 44 :: 34 :: rest)
      = match p.value with
        | some v => parseMembers toNumber (n + 1) (fields ++ [(p.key, .str v)]) (34 :: rest)
        | none => .syntaxError := by
  rw [parseMembers_spelt toNumber n fields p _ hfresh]
  cases p.value <;> rfl

theorem membersText_quote (p : Property) (ps : List Property) :
    ∃ rest, membersText (p :: ps) = 34 :: rest := by
  cases ps with
  | nil => exact ⟨_, rfl⟩
  | cons q ps => exact ⟨_, rfl⟩

theorem propertyValues_none (p : Property) (ps : List Property) (h : p.value = none) :
    propertyValues (p :: ps) = none := by
  rw [propertyValues, List.mapM_cons, h]
  rfl

theorem propertyValues_some (p : Property) (ps : List Property) (v : JsString)
    (h : p.value = some v) :
    propertyValues (p :: ps) = (propertyValues ps).map ((p.key, .str v) :: ·) := by
  rw [propertyValues, List.mapM_cons, h, ← propertyValues]
  cases propertyValues ps <;> rfl

/-- The properties are read one after the other, and what is refused in one of
    them is refused as a whole. -/
theorem parseMembers_membersText (p : Property) (ps : List Property) (n : Nat)
    (fields : List (JsString × JsValue)) (rest : JsString) (hn : ps.length + 2 ≤ n)
    (hnodup : (fields.map Prod.fst ++ (p :: ps).map Property.key).Nodup) :
    parseMembers toNumber n fields (membersText (p :: ps) ++ 125 :: rest)
      = match propertyValues (p :: ps) with
        | some new => .ok (.obj (fields ++ new)) rest
        | none => .syntaxError := by
  have hfresh : p.key ∉ fields.map Prod.fst := fun hmem =>
    (List.nodup_append.mp hnodup).2.2 _ hmem _ List.mem_cons_self rfl
  obtain ⟨n, rfl⟩ : ∃ m, n = m + 2 := ⟨n - 2, by omega⟩
  induction ps generalizing p n fields with
  | nil =>
      rw [membersText, parseMembers_last toNumber n fields p rest hfresh]
      cases hv : p.value with
      | none => rw [propertyValues_none p [] hv]
      | some v =>
          rw [propertyValues_some p [] v hv]
          rfl
  | cons q ps ih =>
      -- After a comma the text goes on with the quote of the next key.
      rcases membersText_quote q ps with ⟨t, ht⟩
      have htext : membersText (p :: q :: ps) ++ 125 :: rest
          = p.spelt ++ 44 :: 34 :: (t ++ 125 :: rest) := by
        rw [membersText, ht, List.append_assoc]
        rfl
      rw [htext, parseMembers_comma toNumber n fields p _ hfresh]
      cases hv : p.value with
      | none => rw [propertyValues_none p (q :: ps) hv]
      | some v =>
          have hnodup' : ((fields ++ [(p.key, Json.str v)]).map Prod.fst
              ++ (q :: ps).map Property.key).Nodup := by
            rw [List.map_append, List.append_assoc]
            exact hnodup
          have hfresh' : q.key ∉ (fields ++ [(p.key, Json.str v)]).map Prod.fst := fun hmem =>
            (List.nodup_append.mp hnodup').2.2 _ hmem _ List.mem_cons_self rfl
          rw [List.length_cons] at hn
          obtain ⟨n, rfl⟩ : ∃ m, n = m + 1 := ⟨n - 1, by omega⟩
          -- What has been read so far is the accumulator of the next round.
          have hnext := ih q (fields ++ [(p.key, Json.str v)]) hnodup' hfresh' n (by omega)
          rw [ht, List.cons_append] at hnext
          rw [propertyValues_some p (q :: ps) v hv]
          dsimp only
          rw [hnext]
          cases propertyValues (q :: ps) with
          | none => rfl
          | some new =>
              rw [Option.map_some]
              simp only [List.append_assoc, List.singleton_append]

theorem length_membersText (ps : List Property) : ps.length ≤ (membersText ps).length := by
  induction ps with
  | nil => exact Nat.zero_le _
  | cons p ps ih =>
      cases ps with
      | nil =>
          rw [membersText, Property.spelt]
          simp only [List.length_append, List.length_cons]
          omega
      | cons q ps =>
          have hcomma : (44 :: membersText (q :: ps)).length = (membersText (q :: ps)).length + 1 :=
            rfl
          rw [membersText, List.length_append, List.length_cons, hcomma]
          omega

theorem parseValue_object (n : Nat) (s : JsString) :
    parseValue toNumber (n + 1) (123 :: 34 :: s) = parseMembers toNumber n [] (34 :: s) := by
  have hopen : ¬ (skipSpace (34 :: s)).head? = some 125 := fun h =>
    absurd (Option.some.inj h) (by decide)
  rw [parseValue, if_neg (by decide), if_pos rfl, if_neg hopen]
  rfl

/-- An object whose properties are strings. -/
theorem jsonParse_object (p : Property) (ps : List Property)
    (hnodup : ((p :: ps).map Property.key).Nodup) :
    jsonParse toNumber (123 :: membersText (p :: ps) ++ [125])
      = (propertyValues (p :: ps)).map Json.obj := by
  rcases membersText_quote p ps with ⟨t, ht⟩
  have hlen := length_membersText (p :: ps)
  have hmembers := parseMembers_membersText toNumber p ps
    (2 * ((membersText (p :: ps) ++ [125]).length + 1)) [] []
    (by rw [List.length_append]; rw [List.length_cons] at hlen; omega) hnodup
  rw [ht, List.cons_append] at hmembers
  rw [ht, List.cons_append, List.cons_append, jsonParse, List.length_cons,
    show skipSpace (123 :: 34 :: (t ++ [125])) = 123 :: 34 :: (t ++ [125]) from rfl,
    parseValue_object, hmembers]
  cases propertyValues (p :: ps) with
  | none => rfl
  | some new => rfl

end Objects

end JsonParse

end MzzPlork

import MzzPlork.Base.JsonTree
import MzzPlork.Theory.Numerals
import MzzPlork.Theory.Parsing

/-!
# What the Client Writes

The writer's text of a value is a text of the grammar, on one line. It stands
for the value with its numbers as the writer leaves them, so that parsing it
gives just that.

The fields of an object are assigned one after the other by the parser. For
the fields of a `std::map`, which come in the order of their keys, this gives
the same fields again.

## Main definitions

* `onWire`: A value as it arrives.
* `IsMap`: The keys of a `std::map`.
* `OneLine`: A text without a line feed.
* `IsSafeInteger`: An integer well within a double's range.
* `lineLexicon`: The dialect of a writer.

## Theorems

* `body_escapeJsonString`: A string is escaped into a spelling of itself.
* `oneLine_of_line`: A text of the dialect is on one line.
* `spells_stringify`: The text of a value.
* `parse_stringify`: What the parser makes of it.
* `lookup_setAll`: What is found after a list of assignments.
* `isMap_setAll`: Assignment keeps the order of the keys.
* `setAll_of_isMap`: The fields of a map, assigned one after the other.
* `onWire_eq_iff`: Which values arrive unchanged.
* `parse_stringify_self`: Among them, all whose numbers are integers.
-/

namespace MzzPlork

namespace JsonText

/-- A text without a line feed. -/
def OneLine (t : Bytes) : Prop := ∀ b ∈ t, b ≠ 10

theorem oneLine_of_all (t : Bytes) (h : t.all (· != 10) = true) : OneLine t :=
  fun b hb => bne_iff_ne.mp (List.all_eq_true.mp h b hb)

section Strings

theorem body_escapeChar (b : UInt8) (s t : Bytes) (ht : Body s t) :
    Body (b :: s) (escapeChar b ++ t) := by
  unfold escapeChar
  split
  · exact Body.escape 34 34 s t rfl ht
  · exact Body.escape 92 92 s t rfl ht
  · exact Body.escape 110 10 s t rfl ht
  · exact Body.escape 116 9 s t rfl ht
  · exact Body.escape 114 13 s t rfl ht
  · next h34 h92 _ _ _ => exact Body.raw b s t h34 h92 ht

/-- A string is escaped into a spelling of itself. -/
theorem body_escapeJsonString (s : Bytes) : Body s (escapeJsonString s) := by
  induction s with
  | nil => exact Body.nil
  | cons b s ih => exact body_escapeChar b s _ ih

theorem oneLine_escapeChar (b : UInt8) : OneLine (escapeChar b) := by
  unfold escapeChar
  split
  · exact oneLine_of_all _ rfl
  · exact oneLine_of_all _ rfl
  · exact oneLine_of_all _ rfl
  · exact oneLine_of_all _ rfl
  · exact oneLine_of_all _ rfl
  · next _ _ h10 _ _ => exact List.forall_mem_singleton.mpr h10

theorem oneLine_escapeJsonString (s : Bytes) : OneLine (escapeJsonString s) := by
  intro x hx
  rcases List.mem_flatMap.mp hx with ⟨b, -, hb⟩
  exact oneLine_escapeChar b x hb

end Strings

section Values

/-- A value as it arrives: its numbers as the writer leaves them. -/
def onWire (v : ClientValue) : ClientValue := v.transform id wireNumber (setAll [])

/-- The dialect of both writers: strings on one line, and no white space. -/
def lineLexicon : Lexicon Bytes Rat where
  literal := fun s t => Body s t ∧ OneLine t
  numeral := clientLexicon.numeral
  space := fun _ => False
  object := setAll []

theorem client_of_line (p : Phrase Bytes Rat) (t : Bytes) (h : Spells lineLexicon p t) :
    Spells clientLexicon p t :=
  Spells.mono (L := lineLexicon) (M := clientLexicon) (fun _ _ ht => ht.1) (fun _ _ ht => ht)
    (fun _ hb => hb.elim) rfl h

theorem oneLine_of_line (p : Phrase Bytes Rat) (t : Bytes) (h : Spells lineLexicon p t) :
    OneLine t :=
  Spells.forall_mem (L := lineLexicon) (· ≠ 10) (oneLine_of_all _ rfl) (fun _ _ ht => ht.2)
    (fun _ _ ht b hb => ne_of_isNumberByte b 10 (ht.2.1 b hb) (by decide)) (fun _ hb => hb.elim) h

theorem numeral_numberText (q : Rat) : lineLexicon.numeral (wireNumber q) (numberText q) :=
  ⟨numberText_ne_nil q, (numberOf_numberText q).2, (numberOf_numberText q).1⟩

theorem literal_escapeJsonString (s : Bytes) : lineLexicon.literal s (escapeJsonString s) :=
  ⟨body_escapeJsonString s, oneLine_escapeJsonString s⟩

theorem quoted_colon (k t : Bytes) :
    quoted k ++ ascii ":" ++ t = 34 :: escapeJsonString k ++ [34, 58] ++ t := by
  rw [quoted, List.append_assoc (ascii "\"" ++ _)]
  rfl

end Values

section Dialects

variable {σ ν : Type} (L : Lexicon σ ν) (f : Bytes → σ) (g : Rat → ν)

/-- The items of an array, with commas between them. -/
theorem spells_itemsText (v : ClientValue) (items : List ClientValue)
    (h : ∀ w ∈ v :: items, Spells L (.value (w.transform f g L.object)) (stringify w)) :
    Spells L (.items ((v :: items).map (Json.transform f g L.object)))
      (itemsText (v :: items)) := by
  induction items generalizing v with
  | nil =>
      rw [itemsText, List.isEmpty_nil, if_pos rfl, List.append_nil]
      exact Spells.item_compact (h v List.mem_cons_self)
  | cons w items ih =>
      rw [itemsText, List.isEmpty_cons, if_neg Bool.false_ne_true]
      exact Spells.items_compact (h v List.mem_cons_self)
        (ih w (fun x hx => h x (List.mem_cons_of_mem v hx)))

/-- The members of an object, with commas between them. -/
theorem spells_fieldsText (d : Bytes × ClientValue) (fields : ClientObject)
    (hk : ∀ e ∈ d :: fields, L.literal (f e.1) (escapeJsonString e.1))
    (h : ∀ e ∈ d :: fields, Spells L (.value (e.2.transform f g L.object)) (stringify e.2)) :
    Spells L (.members ((d :: fields).map (fun e => (f e.1, e.2.transform f g L.object))))
      (fieldsText (d :: fields)) := by
  induction fields generalizing d with
  | nil =>
      rw [fieldsText, List.isEmpty_nil, if_pos rfl, List.append_nil, quoted_colon]
      exact Spells.member_compact (hk d List.mem_cons_self) (h d List.mem_cons_self)
  | cons e fields ih =>
      rw [fieldsText, List.isEmpty_cons, if_neg Bool.false_ne_true, quoted_colon]
      exact Spells.members_compact (hk d List.mem_cons_self) (h d List.mem_cons_self)
        (ih e (fun x hx => hk x (List.mem_cons_of_mem d hx))
          (fun x hx => h x (List.mem_cons_of_mem d hx)))

/-- The text of a value, in a dialect that takes its strings and its numbers as
    they are written. -/
theorem spells_transform {P : Bytes → Prop} {Q : Rat → Prop} {O : List Bytes → Prop}
    (hP : ∀ s, P s → L.literal (f s) (escapeJsonString s))
    (hQ : ∀ q, Q q → L.numeral (g q) (numberText q)) (v : ClientValue)
    (hv : v.Everywhere P Q O) :
    Spells L (.value (v.transform f g L.object)) (stringify v) := by
  induction v using Json.tree_induction with
  | null => exact Spells.null
  | bool b =>
      cases b with
      | true => exact Spells.true
      | false => exact Spells.false
  | num q => exact Spells.num _ _ (hQ q hv)
  | str s => exact Spells.str _ _ (hP s hv)
  | arr items ih =>
      rw [Json.everywhere_arr] at hv
      rw [Json.transform_arr, stringify]
      cases items with
      | nil => exact Spells.emptyArr [] L.blank_nil
      | cons v items =>
          exact Spells.arr _ _ (spells_itemsText L f g v items (fun w hw => ih w hw (hv w hw)))
  | obj fields ih =>
      rw [Json.everywhere_obj] at hv
      rw [Json.transform_obj, stringify]
      cases fields with
      | nil => exact Spells.emptyObj [] L.blank_nil
      | cons d fields =>
          exact Spells.obj _ _ (spells_fieldsText L f g d fields
            (fun e he => hP e.1 (hv.2 e he).1) (fun e he => ih e he (hv.2 e he).2))

end Dialects

section Values

/-- The text of a value. -/
theorem spells_stringify (v : ClientValue) :
    Spells lineLexicon (.value (onWire v)) (stringify v) :=
  spells_transform lineLexicon id wireNumber (fun s _ => literal_escapeJsonString s)
    (fun q _ => numeral_numberText q) v (Json.everywhere_true v)

/-- What the parser makes of the text of a value. -/
theorem parse_stringify (v : ClientValue) :
    parse (stringify v) = .ok ⟨stringify v, (stringify v).length⟩ (onWire v) :=
  parse_whole (onWire v) (stringify v) (client_of_line _ _ (spells_stringify v))

end Values

section Maps

/-- The keys of a `std::map`, in order. -/
abbrev IsMap (keys : List Bytes) : Prop := keys.Pairwise (· < ·)

/-- A key above all others goes to the end. -/
theorem set_append (o : ClientObject) (k : Bytes) (v : ClientValue)
    (h : ∀ k' ∈ o.map Prod.fst, k' < k) : o.set k v = o ++ [(k, v)] := by
  induction o with
  | nil => rfl
  | cons f o ih =>
      have hf : f.1 < k := h f.1 List.mem_cons_self
      have hne : k ≠ f.1 := fun hc => List.lt_irrefl k (by rwa [← hc] at hf)
      have hrest := ih (fun k' hk => h k' (List.mem_cons_of_mem f.1 hk))
      rw [ClientObject.set, if_neg (List.lt_asymm hf), if_neg hne, hrest,
        List.cons_append]

theorem setAll_append (o fields : ClientObject) (h : IsMap ((o ++ fields).map Prod.fst)) :
    setAll o fields = o ++ fields := by
  induction fields generalizing o with
  | nil => exact (List.append_nil o).symm
  | cons f fields ih =>
      have hlast : ∀ k' ∈ o.map Prod.fst, k' < f.1 := by
        rw [IsMap, List.map_append, List.pairwise_append] at h
        exact fun k' hk => h.2.2 k' hk f.1 List.mem_cons_self
      have hassoc : o ++ f :: fields = (o ++ [f]) ++ fields := by
        rw [List.append_assoc, List.singleton_append]
      have htail := ih (o ++ [f]) (by rwa [← hassoc])
      rw [hassoc, ← htail, ← set_append o f.1 f.2 hlast]
      rfl

/-- The fields of a map, assigned one after the other. -/
theorem setAll_of_isMap (fields : ClientObject) (h : IsMap (fields.map Prod.fst)) :
    setAll [] fields = fields := setAll_append [] fields h

theorem mem_set (o : ClientObject) (k : Bytes) (v : ClientValue) (f : Bytes × ClientValue)
    (h : f ∈ o.set k v) : f = (k, v) ∨ f ∈ o := by
  induction o with
  | nil => exact Or.inl (List.mem_singleton.mp h)
  | cons e o ih =>
      rw [ClientObject.set] at h
      split_ifs at h
      · exact List.mem_cons.mp h
      · rcases List.mem_cons.mp h with h | h
        · exact Or.inl h
        · exact Or.inr (List.mem_cons_of_mem e h)
      · rcases List.mem_cons.mp h with h | h
        · exact Or.inr (h ▸ List.mem_cons_self)
        · exact (ih h).imp_right (List.mem_cons_of_mem e)

theorem mem_setAll (o fields : ClientObject) (f : Bytes × ClientValue)
    (h : f ∈ setAll o fields) : f ∈ o ∨ f ∈ fields := by
  induction fields generalizing o with
  | nil => exact Or.inl h
  | cons e fields ih =>
      rcases ih (o.set e.1 e.2) h with h | h
      · rcases mem_set o e.1 e.2 f h with h | h
        · exact Or.inr (h ▸ List.mem_cons_self)
        · exact Or.inl h
      · exact Or.inr (List.mem_cons_of_mem e h)

theorem lookup_set (o : ClientObject) (k k' : Bytes) (v : ClientValue) :
    (o.set k v).lookup k' = if k' = k then some v else o.lookup k' := by
  induction o with
  | nil =>
      rw [ClientObject.set, List.lookup_cons]
      by_cases h : k' = k
      · rw [if_pos h, beq_iff_eq.mpr h]
      · rw [if_neg h, beq_eq_false_iff_ne.mpr h]
  | cons e o ih =>
      rw [ClientObject.set]
      by_cases hlt : k < e.1
      · rw [if_pos hlt, List.lookup_cons]
        by_cases h : k' = k
        · rw [if_pos h, beq_iff_eq.mpr h]
        · rw [if_neg h, beq_eq_false_iff_ne.mpr h]
      · rw [if_neg hlt]
        by_cases heq : k = e.1
        · rw [if_pos heq, List.lookup_cons, List.lookup_cons, ← heq]
          by_cases h : k' = k
          · rw [if_pos h, beq_iff_eq.mpr h]
          · rw [if_neg h, beq_eq_false_iff_ne.mpr h]
        · rw [if_neg heq, List.lookup_cons, List.lookup_cons, ih]
          by_cases he : k' = e.1
          · rw [beq_iff_eq.mpr he]
            exact (if_neg (fun hc => heq (hc.symm.trans he))).symm
          · rw [beq_eq_false_iff_ne.mpr he]

/-- What is found after the assignments, where no key is assigned twice. -/
theorem lookup_setAll (o fields : ClientObject) (h : (fields.map Prod.fst).Nodup) (k : Bytes) :
    (setAll o fields).lookup k = (fields.lookup k).or (o.lookup k) := by
  induction fields generalizing o with
  | nil => rfl
  | cons f fields ih =>
      rcases List.nodup_cons.mp h with ⟨hf, hrest⟩
      have hset :
          (setAll o (f :: fields)).lookup k = (setAll (o.set f.1 f.2) fields).lookup k := rfl
      rw [hset, ih (o.set f.1 f.2) hrest, lookup_set, List.lookup_cons]
      by_cases hk : k = f.1
      · have hnone : fields.lookup k = none := by
          refine List.lookup_eq_none_iff.mpr (fun e he => bne_iff_ne.mpr (fun hc => hf ?_))
          rw [← hk, hc]
          exact List.mem_map_of_mem he
        rw [if_pos hk, beq_iff_eq.mpr hk, hnone]
        rfl
      · rw [if_neg hk, beq_eq_false_iff_ne.mpr hk]

/-- Nothing is lost where no key is assigned twice. -/
theorem mem_setAll_of_mem (o fields : ClientObject) (h : (fields.map Prod.fst).Nodup)
    (e : Bytes × ClientValue) (he : e ∈ fields) : e ∈ setAll o fields := by
  have hlookup : fields.lookup e.1 = some e.2 := by
    rcases List.append_of_mem he with ⟨pre, post, rfl⟩
    refine List.lookup_eq_some_iff.mpr ⟨pre, post, rfl, fun d hd => bne_iff_ne.mpr (fun hc => ?_)⟩
    rw [List.map_append, List.map_cons] at h
    exact (List.nodup_append.mp h).2.2 d.1 (List.mem_map_of_mem hd) e.1 List.mem_cons_self hc.symm
  have hset := lookup_setAll o fields h e.1
  rw [hlookup, Option.some_or] at hset
  rcases List.lookup_eq_some_iff.mp hset with ⟨pre, post, hsplit, -⟩
  rw [hsplit]
  exact List.mem_append_right pre List.mem_cons_self

/-- Assignment keeps the order. -/
theorem isMap_set (o : ClientObject) (k : Bytes) (v : ClientValue) (h : IsMap (o.map Prod.fst)) :
    IsMap ((o.set k v).map Prod.fst) := by
  induction o with
  | nil => exact List.pairwise_singleton _ _
  | cons e o ih =>
      rcases List.pairwise_cons.mp h with ⟨he, ho⟩
      rw [ClientObject.set]
      by_cases hlt : k < e.1
      · rw [if_pos hlt]
        refine List.pairwise_cons.mpr ⟨fun k' hk => ?_, h⟩
        rcases List.mem_cons.mp hk with rfl | hk
        · exact hlt
        · exact List.lt_trans hlt (he k' hk)
      · rw [if_neg hlt]
        by_cases heq : k = e.1
        · rw [if_pos heq]
          exact List.pairwise_cons.mpr ⟨fun k' hk => heq ▸ he k' hk, ho⟩
        · rw [if_neg heq]
          refine List.pairwise_cons.mpr ⟨fun k' hk => ?_, ih ho⟩
          rcases List.mem_map.mp hk with ⟨f, hf, rfl⟩
          rcases mem_set o k v f hf with rfl | hf
          · exact Std.lt_of_le_of_ne (Std.not_lt.mp hlt) (Ne.symm heq)
          · exact he f.1 (List.mem_map_of_mem hf)

theorem isMap_setAll (o fields : ClientObject) (h : IsMap (o.map Prod.fst)) :
    IsMap ((setAll o fields).map Prod.fst) := by
  induction fields generalizing o with
  | nil => exact h
  | cons f fields ih => exact ih (o.set f.1 f.2) (isMap_set o f.1 f.2 h)

theorem isMap_fields (fields : ClientObject) : IsMap ((setAll [] fields).map Prod.fst) :=
  isMap_setAll [] fields List.Pairwise.nil

theorem mem_fields (fields : ClientObject) : ∀ e ∈ setAll [] fields, e ∈ fields := fun e he =>
  (mem_setAll [] fields e he).resolve_left List.not_mem_nil

/-- Which values arrive unchanged. -/
theorem onWire_eq_iff (v : ClientValue)
    (hv : v.Everywhere (fun _ => True) (fun _ => True) IsMap) :
    onWire v = v ↔ v.Everywhere (fun _ => True) Representable (fun _ => True) := by
  have hiff := Json.transform_eq_self_iff wireNumber (setAll []) IsMap setAll_of_isMap v hv
  simp only [wireNumber_eq_iff] at hiff
  exact hiff

theorem onWire_of_everywhere (v : ClientValue)
    (hv : v.Everywhere (fun _ => True) Representable IsMap) : onWire v = v :=
  (onWire_eq_iff v (v.everywhere_mono (fun _ h => h) (fun _ _ => trivial) (fun _ h => h) hv)).mpr
    (v.everywhere_mono (fun _ h => h) (fun _ h => h) (fun _ _ => trivial) hv)

/-- Everything that has arrived is written faithfully. -/
theorem everywhere_onWire (v : ClientValue) :
    (onWire v).Everywhere (fun _ => True) Representable IsMap :=
  Json.everywhere_transform id wireNumber (setAll []) (fun _ h => h)
    (fun q _ => representable_wireNumber q) isMap_fields mem_fields v (Json.everywhere_true v)

theorem onWire_onWire (v : ClientValue) : onWire (onWire v) = onWire v :=
  onWire_of_everywhere _ (everywhere_onWire v)

theorem onWire_obj (fields : ClientObject) (h : IsMap (fields.map Prod.fst)) :
    onWire (.obj fields) = .obj (fields.map (fun e => (e.1, onWire e.2))) := by
  rw [onWire, Json.transform_obj]
  refine congrArg Json.obj (setAll_of_isMap _ ?_)
  rw [List.map_map]
  exact h

end Maps

section Integers

/-- An integer that a double holds with all the integers around it. -/
def IsSafeInteger (q : Rat) : Prop := q.den = 1 ∧ q.num.natAbs < 2 ^ 53

theorem isLongLong_of_isSafeInteger (q : Rat) (h : IsSafeInteger q) : isLongLong q = true := by
  rcases h with ⟨hden, hnum⟩
  refine decide_eq_true ⟨hden, ?_, ?_⟩
  · omega
  · omega

/-- Every value of the six kinds is read back, whatever bytes its strings and
    its keys are made of. -/
theorem parse_stringify_self (v : ClientValue)
    (hv : v.Everywhere (fun _ => True) IsSafeInteger IsMap) :
    parse (stringify v) = .ok ⟨stringify v, (stringify v).length⟩ v := by
  have hrepresentable : v.Everywhere (fun _ => True) Representable IsMap :=
    v.everywhere_mono (fun _ h => h) (fun q hq => Or.inl (isLongLong_of_isSafeInteger q hq))
      (fun _ h => h) hv
  rw [parse_stringify, onWire_of_everywhere v hrepresentable]

/-- Quotes, a NUL and bytes that are no UTF-8, two levels down. -/
def oddValue : ClientValue :=
  .arr [.obj [([0, 34], .str [92, 255, 10]), ([195], .num (-7))], .null, .bool true]

theorem parse_stringify_self_oddValue :
    parse (stringify oddValue) = .ok ⟨stringify oddValue, (stringify oddValue).length⟩ oddValue :=
  parse_stringify_self oddValue
    ⟨⟨by decide, trivial, trivial, trivial, ⟨rfl, by decide⟩, trivial⟩, trivial, trivial, trivial⟩

end Integers

end JsonText

end MzzPlork

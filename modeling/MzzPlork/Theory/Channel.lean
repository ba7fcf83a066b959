import MzzPlork.Theory.EventText

/-!
# The Client's Events on Their Way

An event that is printed is a line of its own, whatever the mode of the stream,
unless there is a carriage return in it. The events whose texts are clean arrive
as they are, and those of a whole run do so in their order.

No other event does. The line it begins with is not one that `JSON.parse`
accepts.

## Main definitions

* `ClientEvent.said`: The object an event stands for.
* `Lossless`: An event that arrives as one object, the one it stands for.

## Theorems

* `lossless_iff`: Which events arrive as they are.
* `receivedEvents_run`: The events of a run.
-/

namespace MzzPlork

namespace EventChannel

open JsonParse Wire

section Lines

/-- What ends a line when the client prints a line feed. -/
def lineEnd (textMode : Bool) : Bytes := if textMode then [13, 10] else [10]

theorem toStdout_append (textMode : Bool) (t t' : Bytes) :
    toStdout textMode (t ++ t') = toStdout textMode t ++ toStdout textMode t' := by
  cases textMode with
  | false => rfl
  | true => exact List.flatMap_append

theorem toStdout_raw (textMode : Bool) (t : Bytes) (h : 10 ∉ t) : toStdout textMode t = t := by
  cases textMode with
  | false => rfl
  | true =>
      rw [toStdout, if_pos rfl]
      induction t with
      | nil => rfl
      | cons b t ih =>
          have hb : b ≠ 10 := fun hb => h (hb ▸ List.mem_cons_self)
          rw [List.flatMap_cons, if_neg hb, ih (fun hmem => h (List.mem_cons_of_mem b hmem))]
          rfl

/-- A line that is printed. -/
theorem toStdout_line (textMode : Bool) (t : Bytes) (h : 10 ∉ t) :
    toStdout textMode (t ++ [10]) = t ++ lineEnd textMode := by
  rw [toStdout_append, toStdout_raw textMode t h]
  cases textMode <;> rfl

theorem coded_lineEnd (textMode : Bool) :
    ∃ s, Coded (lineEnd textMode) s ∧ (s = [10] ∨ s = [13, 10]) := by
  cases textMode with
  | false => exact ⟨[10], coded_ascii "\n" rfl, Or.inl rfl⟩
  | true => exact ⟨[13, 10], coded_ascii "\r\n" rfl, Or.inr rfl⟩

theorem splitLines_plain (u : UInt16) (s line rest : JsString) (lines : List JsString)
    (hline : u ≠ 10) (hreturn : u ≠ 13) (h : splitLines s = (line :: lines, rest)) :
    splitLines (u :: s) = ((u :: line) :: lines, rest) := by
  rw [splitLines, if_neg (fun hc => hreturn hc.1), if_neg (fun hc => hc.elim hline hreturn), h]

/-- A line in front of others. -/
theorem splitLines_line (s ending rest : JsString) (hending : ending = [10] ∨ ending = [13, 10])
    (h : ∀ u ∈ s, u ≠ 10 ∧ u ≠ 13) :
    splitLines (s ++ ending ++ rest) = (s :: (splitLines rest).1, (splitLines rest).2) := by
  induction s with
  | nil => rcases hending with rfl | rfl <;> simp [splitLines]
  | cons u s ih =>
      rcases h u List.mem_cons_self with ⟨hline, hreturn⟩
      exact splitLines_plain u _ s _ _ hline hreturn
        (ih (fun x hx => h x (List.mem_cons_of_mem u hx)))

theorem splitLines_ne_nil (s : JsString) : (splitLines (s ++ [10])).1 ≠ [] := by
  induction s with
  | nil => exact List.cons_ne_nil _ _
  | cons u s ih =>
      rw [List.cons_append, splitLines]
      split
      · exact ih
      · split
        · exact List.cons_ne_nil _ _
        · cases h : splitLines (s ++ [10]) with
          | mk lines rest =>
              rw [h] at ih
              cases lines with
              | nil => exact absurd rfl ih
              | cons line lines => exact List.cons_ne_nil _ _

/-- A text without line feeds that comes out in one piece is a line. -/
theorem splitLines_single (s ending line : JsString) (hending : ending = [10] ∨ ending = [13, 10])
    (h : 10 ∉ s) (hsplit : splitLines (s ++ 125 :: ending) = ([line], [])) :
    line = s ++ [125] := by
  induction s generalizing line with
  | nil =>
      rcases hending with rfl | rfl <;> exact (List.singleton_inj.mp (Prod.mk.inj hsplit).1).symm
  | cons u s ih =>
      have hnot : u ≠ 10 := fun hu => h (hu ▸ List.mem_cons_self)
      have hrest : 10 ∉ s := fun hmem => h (List.mem_cons_of_mem u hmem)
      have hlines : (splitLines (s ++ 125 :: ending)).1 ≠ [] := by
        rcases hending with rfl | rfl
        · have hne := splitLines_ne_nil (s ++ [125])
          rwa [List.append_assoc] at hne
        · have hne := splitLines_ne_nil (s ++ [125, 13])
          rwa [List.append_assoc] at hne
      by_cases hreturn : u = 13
      -- What follows a carriage return is another line.
      · have hhead : ¬ (u = 13 ∧ (s ++ 125 :: ending).head? = some 10) := by
          rintro ⟨_, hhead⟩
          cases s with
          | nil => exact absurd (Option.some.inj hhead) (by decide)
          | cons x s => exact hrest (Option.some.inj hhead ▸ List.mem_cons_self)
        rw [List.cons_append, splitLines, if_neg hhead, if_pos (Or.inr hreturn)] at hsplit
        exact absurd (List.cons.inj (Prod.mk.inj hsplit).1).2 hlines
      · cases hsplit' : splitLines (s ++ 125 :: ending) with
        | mk lines rest =>
            rw [hsplit'] at hlines
            cases lines with
            | nil => exact absurd rfl hlines
            | cons line' lines =>
                rw [List.cons_append, splitLines_plain u _ line' rest lines hnot hreturn hsplit']
                  at hsplit
                rcases Prod.mk.inj hsplit with ⟨hcons, hnil⟩
                rcases List.cons.inj hcons with ⟨hline, hlines⟩
                rw [hlines, hnil] at hsplit'
                rw [← hline, ih line' hrest hsplit', List.cons_append]

end Lines

section Delivery

variable (toNumber : JsString → JsNumber) (textMode : Bool)

/-- The object that says it. -/
def ClientEvent.said (e : ClientEvent) : Option JsValue :=
  (e.members.mapM (fun m => (decodeUtf8 m.2).map (fun s => (js m.1, Json.str s)))).map Json.obj

/-- What is printed of an event is read as one line, and the line as the object
    that says the same. -/
def Lossless (e : ClientEvent) : Prop :=
  ∃ line v, (decodeUtf8 (toStdout textMode e.printed)).map splitLines = some ([line], []) ∧
    jsonParse toNumber line = some v ∧ e.said = some v

/-- An argument that the channel is for. -/
def IsText (t : Bytes) : Prop := IsUtf8 t ∧ 0 ∉ t

/-- The names of the members, in all the forms of an event. -/
def memberNames : List (List String) :=
  [["event", "state"], ["event", "service", "status", "message"], ["event", "message"]]

theorem names_members (e : ClientEvent) : e.members.map Prod.fst ∈ memberNames := by
  cases e with
  | state => exact List.mem_cons_self
  | service => exact List.mem_cons_of_mem _ List.mem_cons_self
  | log | error => exact List.mem_cons_of_mem _ (List.mem_cons_of_mem _ List.mem_cons_self)

theorem kind_mem (e : ClientEvent) : e.kind ∈ ["state", "service", "log", "error"] := by
  cases e <;> simp only [ClientEvent.kind, List.mem_cons, eq_self, true_or, or_true]

theorem plainKey_members (e : ClientEvent) : ∀ m ∈ e.members, plainKey m.1 = true := by
  have hall : ∀ names ∈ memberNames, ∀ k ∈ names, plainKey k = true := by decide
  exact fun m hm => hall _ (names_members e) m.1 (List.mem_map_of_mem hm)

theorem nodup_members (e : ClientEvent) : (e.members.map (fun m => js m.1)).Nodup := by
  have hall : ∀ names ∈ memberNames, (names.map js).Nodup := by decide
  have hnodup := hall _ (names_members e)
  rwa [List.map_map] at hnodup

theorem isText_ascii (s : String) (h : s.toList.all (fun c => c.toNat < 128) = true)
    (hnul : 0 ∉ ascii s) : IsText (ascii s) := ⟨(coded_ascii s h).isUtf8, hnul⟩

theorem isText_kind (e : ClientEvent) : IsText (ascii e.kind) := by
  have hall : ∀ k ∈ ["state", "service", "log", "error"],
      k.toList.all (fun c => c.toNat < 128) = true ∧ 0 ∉ ascii k := by decide
  rcases hall e.kind (kind_mem e) with ⟨hascii, hnul⟩
  exact isText_ascii e.kind hascii hnul

theorem clean_of_all (t : Bytes) (h : t.all (fun b => 32 ≤ b || b = 10) = true) : Clean t := by
  intro b hb
  have hbyte := List.all_eq_true.mp h b hb
  rwa [Bool.or_eq_true, decide_eq_true_eq, decide_eq_true_eq] at hbyte

theorem clean_kind (e : ClientEvent) : Clean (ascii e.kind) := by
  have hall : ∀ k ∈ ["state", "service", "log", "error"],
      (ascii k).all (fun b => 32 ≤ b || b = 10) = true := by decide
  exact clean_of_all _ (hall e.kind (kind_mem e))

theorem forall_membersBytes (P : UInt8 → Prop) (hquote : P 34) (hcolon : P 58) (hcomma : P 44)
    (ms : List (String × Bytes))
    (h : ∀ m ∈ ms, (∀ b ∈ ascii m.1, P b) ∧ ∀ b ∈ percentS m.2, P b) :
    ∀ b ∈ membersBytes ms, P b := by
  have hmember : ∀ m ∈ ms, ∀ b ∈ memberBytes m, P b := by
    intro m hm
    rw [memberBytes]
    simp only [List.forall_mem_append, List.forall_mem_cons, List.not_mem_nil, false_implies,
      implies_true, and_true]
    exact ⟨⟨⟨hquote, (h m hm).1⟩, hquote, hcolon, hquote, (h m hm).2⟩, hquote⟩
  induction ms with
  | nil => exact fun b hb => absurd hb List.not_mem_nil
  | cons m ms ih =>
      have hrest := ih (fun m' hm => h m' (List.mem_cons_of_mem m hm))
        (fun m' hm => hmember m' (List.mem_cons_of_mem m hm))
      cases ms with
      | nil => exact hmember m List.mem_cons_self
      | cons m' ms =>
          exact List.forall_mem_append.mpr ⟨hmember m List.mem_cons_self,
            List.forall_mem_cons.mpr ⟨hcomma, hrest⟩⟩

theorem key_ne_control (k : String) (h : plainKey k = true) (b : UInt8) (hb : b < 32) :
    ∀ x ∈ ascii k, x ≠ b := by
  rintro x hx rfl
  rcases List.mem_map.mp hx with ⟨c, hc, rfl⟩
  rcases plainKey_char k h c hc with ⟨hctl, hascii, _⟩
  rw [UInt8.lt_iff_toNat_lt, Nat.toUInt8, UInt8.toNat_ofNat', Nat.mod_eq_of_lt (by omega)] at hb
  simp only [UInt8.reduceToNat] at hb
  omega

theorem mem_percentS (b : UInt8) (t : Bytes) (h : b ∈ percentS t) : b ∈ escapeJson t :=
  (List.takeWhile_sublist _).subset h

/-- A control character of a line comes out of one of the texts. -/
theorem line_ne_control (e : ClientEvent) (b : UInt8) (hb : b < 32)
    (h : ∀ m ∈ e.members, b ∉ escapeJson m.2) :
    ∀ x ∈ 123 :: membersBytes e.members ++ [125], x ≠ b := by
  have hpunct : ∀ x : UInt8, 32 ≤ x → x ≠ b := fun x hx hxb =>
    absurd (hxb ▸ hx) (UInt8.not_le.mpr hb)
  have hmembers := forall_membersBytes (fun x => x ≠ b) (hpunct 34 (by decide))
    (hpunct 58 (by decide)) (hpunct 44 (by decide)) e.members
    (fun m hm => ⟨key_ne_control m.1 (plainKey_members e m hm) b hb,
      fun x hx hxb => h m hm (hxb ▸ mem_percentS x m.2 hx)⟩)
  exact List.forall_mem_append.mpr ⟨List.forall_mem_cons.mpr ⟨hpunct 123 (by decide), hmembers⟩,
    List.forall_mem_singleton.mpr (hpunct 125 (by decide))⟩

theorem lineFeed_not_mem (t : Bytes) : 10 ∉ escapeJson t := by
  intro hmem
  rcases mem_escapeJson 10 t hmem with ⟨_, hne⟩ | hc | hc | hc
  · exact hne rfl
  all_goals exact absurd hc (by decide)

theorem return_not_mem (t : Bytes) (h : Clean t) : 13 ∉ escapeJson t := by
  intro hmem
  rcases mem_escapeJson 13 t hmem with ⟨hmem, _⟩ | hc | hc | hc
  · exact absurd (h 13 hmem) (by decide)
  all_goals exact absurd hc (by decide)

/-- What the reader has of an event before it looks for lines, and what the
    parser makes of it without the line end. -/
theorem exists_line (e : ClientEvent) (h : ∀ f ∈ e.fields, IsText f.2) :
    ∃ ps ending, List.Forall₂ Sent e.members ps ∧ (ending = [10] ∨ ending = [13, 10]) ∧
      Coded (123 :: membersBytes e.members ++ [125]) (123 :: membersText ps ++ [125]) ∧
      Coded (toStdout textMode e.printed) (123 :: membersText ps ++ 125 :: ending) ∧
      jsonParse toNumber (123 :: membersText ps ++ [125]) = (propertyValues ps).map Json.obj := by
  have htext : ∀ m ∈ e.members, IsText m.2 := List.forall_mem_cons.mpr ⟨isText_kind e, h⟩
  rcases exists_sent_all e.members (fun m hm =>
    exists_sent m (plainKey_members e m hm) (htext m hm).1 (htext m hm).2) with ⟨ps, hps⟩
  rcases coded_lineEnd textMode with ⟨ending, hcoded, hending⟩
  have hmembers := coded_membersBytes e.members ps (plainKey_members e) hps
  have hline : Coded (123 :: membersBytes e.members ++ [125]) (123 :: membersText ps ++ [125]) :=
    coded_append _ _ _ _ (coded_append (ascii "\x7b") _ (js "\x7b") _ (coded_ascii "\x7b" rfl)
      hmembers) (coded_ascii "\x7d" rfl)
  refine ⟨ps, ending, hps, hending, hline, ?_, ?_⟩
  · rw [printed_eq, toStdout_line textMode _ (fun hmem =>
      line_ne_control e 10 (by decide) (fun m _ => lineFeed_not_mem m.2) 10 hmem rfl)]
    have happend := coded_append _ _ _ _ hline hcoded
    rw [List.append_assoc (123 :: membersText ps) [125]] at happend
    exact happend
  · have hnodup := nodup_members e
    rw [← keys_sent e.members ps hps] at hnodup
    cases hps with
    | cons hp hps => exact jsonParse_object toNumber _ _ hnodup

/-- A clean event is a line that is read as what the event says. -/
theorem exists_clean_line (e : ClientEvent) (h : ∀ f ∈ e.fields, IsText f.2)
    (hclean : ∀ f ∈ e.fields, Clean f.2) :
    ∃ line ending v, (ending = [10] ∨ ending = [13, 10]) ∧ (∀ u ∈ line, u ≠ 10 ∧ u ≠ 13) ∧
      Coded (toStdout textMode e.printed) (line ++ ending) ∧
      jsonParse toNumber line = some v ∧ e.said = some v := by
  rcases exists_line toNumber textMode e h with
    ⟨ps, ending, hps, hending, hline, hprinted, hparse⟩
  have hmembers : ∀ m ∈ e.members, Clean m.2 := List.forall_mem_cons.mpr ⟨clean_kind e, hclean⟩
  have htext : ∀ m ∈ e.members, IsUtf8 m.2 :=
    List.forall_mem_cons.mpr ⟨(isText_kind e).1, fun f hf => (h f hf).1⟩
  rcases exists_values e.members htext with ⟨new, hnew⟩
  have hvalues := (propertyValues_clean e.members ps hps hmembers).trans hnew
  rw [hvalues, Option.map_some] at hparse
  refine ⟨_, ending, Json.obj new, hending, fun u hu => ⟨?_, ?_⟩, ?_, hparse, ?_⟩
  · rintro rfl
    exact line_ne_control e 10 (by decide) (fun m _ => lineFeed_not_mem m.2) 10
      (mem_of_coded 10 (by decide) _ _ hline hu) rfl
  · rintro rfl
    exact line_ne_control e 13 (by decide) (fun m hm => return_not_mem m.2 (hmembers m hm)) 13
      (mem_of_coded 13 (by decide) _ _ hline hu) rfl
  · rw [List.append_assoc]
    exact hprinted
  · rw [ClientEvent.said, hnew, Option.map_some]

/-- Which events arrive as they are. -/
theorem lossless_iff (e : ClientEvent) (h : ∀ f ∈ e.fields, IsText f.2) :
    Lossless toNumber textMode e ↔ ∀ f ∈ e.fields, Clean f.2 := by
  constructor
  · rcases exists_line toNumber textMode e h with
      ⟨ps, ending, hps, hending, hline, hprinted, hparse⟩
    rintro ⟨line, v, hsplit, hv, _⟩
    rw [decodeUtf8_eq _ _ hprinted, Option.map_some, Option.some.injEq] at hsplit
    have hlf : 10 ∉ 123 :: membersText ps := fun hmem =>
      line_ne_control e 10 (by decide) (fun m _ => lineFeed_not_mem m.2) 10
        (mem_of_coded 10 (by decide) _ _ hline (List.mem_append_left _ hmem)) rfl
    rw [splitLines_single _ ending line hending hlf hsplit, hparse] at hv
    rcases Option.map_eq_some_iff.mp hv with ⟨new, hnew, _⟩
    exact (List.forall_mem_cons.mp (clean_of_propertyValues e.members ps hps new hnew)).2
  · intro hclean
    rcases exists_clean_line toNumber textMode e h hclean with
      ⟨line, ending, v, hending, hline, hprinted, hparse, hsaid⟩
    have hsplit := splitLines_line line ending [] hending hline
    rw [List.append_nil] at hsplit
    refine ⟨line, v, ?_, hparse, hsaid⟩
    rw [decodeUtf8_eq _ _ hprinted, Option.map_some, hsplit]
    rfl

/-- The events of a run arrive in their order, as long as all of them are
    clean. -/
theorem receivedEvents_run (es : List ClientEvent) (h : ∀ e ∈ es, ∀ f ∈ e.fields, IsText f.2)
    (hclean : ∀ e ∈ es, ∀ f ∈ e.fields, Clean f.2) :
    receivedEvents toNumber (toStdout textMode (es.flatMap ClientEvent.printed))
      = es.mapM ClientEvent.said := by
  induction es with
  | nil => cases textMode <;> rfl
  | cons e es ih =>
      rcases exists_clean_line toNumber textMode e (h e List.mem_cons_self)
        (hclean e List.mem_cons_self) with
        ⟨line, ending, v, hending, hline, hprinted, hparse, hsaid⟩
      have hrest := ih (fun e' he => h e' (List.mem_cons_of_mem e he))
        (fun e' he => hclean e' (List.mem_cons_of_mem e he))
      have honLine : onLine toNumber line = v := by
        rw [onLine, hparse]
      rw [List.flatMap_cons, toStdout_append, receivedEvents, decodeUtf8_coded _ _ _ hprinted,
        List.mapM_cons, hsaid, ← hrest, receivedEvents]
      cases decodeUtf8 (toStdout textMode (es.flatMap ClientEvent.printed)) with
      | none => rfl
      | some s =>
          rw [Option.map_some, Option.map_some, splitLines_line line ending s hending hline,
            List.map_cons, honLine]
          rfl

/-- Every number is the same to the reader, since none is sent. -/
def anyNumber : JsString → JsNumber := fun _ => .finite 0

/-- A message with a quote, a backslash and a line feed. -/
def quotedError : ClientEvent := .error (ascii "\"C:\\x\"\n")

theorem lossless_quoted : Lossless anyNumber true quotedError :=
  (lossless_iff anyNumber true quotedError
    (List.forall_mem_singleton.mpr (isText_ascii "\"C:\\x\"\n" rfl (by decide)))).mpr
    (List.forall_mem_singleton.mpr (clean_of_all _ rfl))

/-- What the client prints when it is kicked for a reason with a tab in it. -/
def tabbedKick : ClientEvent :=
  .service (ascii "server-connection") (ascii "failed") (ascii "kicked by server: a\tb")

/-- The line of it. -/
def tabbedLine : JsString :=
  js "\x7b\"event\":\"service\",\"service\":\"server-connection\",\"status\":\"failed\"," ++
    js "\"message\":\"kicked by server: a\tb\"\x7d"

/-- The line is refused. -/
theorem not_lossless_tab :
    ¬ ∀ (toNumber : JsString → JsNumber) (textMode : Bool) (e : ClientEvent),
      (∀ f ∈ e.fields, IsText f.2) → Lossless toNumber textMode e := by
  intro h
  have htext : ∀ f ∈ tabbedKick.fields, IsText f.2 :=
    List.forall_mem_cons.mpr ⟨isText_ascii _ rfl (by decide),
      List.forall_mem_cons.mpr ⟨isText_ascii _ rfl (by decide),
        List.forall_mem_singleton.mpr (isText_ascii _ rfl (by decide))⟩⟩
  rcases h anyNumber true tabbedKick htext with ⟨line, v, hsplit, hparse, _⟩
  have hline : (decodeUtf8 (toStdout true tabbedKick.printed)).map splitLines
      = some ([tabbedLine], []) := by decide +kernel
  have hrefused : (jsonParse anyNumber tabbedLine).isNone = true := by decide +kernel
  rw [hline, Option.some.injEq] at hsplit
  rw [← List.singleton_inj.mp (Prod.mk.inj hsplit).1] at hparse
  rw [hparse] at hrefused
  exact absurd hrefused (by simp only [Option.isNone_some, reduceCtorEq, not_false_eq_true])

end Delivery

end EventChannel

end MzzPlork

import MzzPlork.Core.Launcher
import MzzPlork.Theory.Channel
import MzzPlork.Theory.Readable
import MzzPlork.Theory.States

/-!
# What the User Is Told of the Client

What the launcher shows as the state of the client is what has become of the
client. It is ready once, where it has been; a run that fails is shown with its
own words; and an end with a code other than 0 is shown as a crash besides,
whether `Run` has returned or not. It makes no difference when the end of the
process is reported.

Both ends of the standard output are in this: the lines that the client prints
on its way (`documents_act`), and what the reader makes of such lines
(`exists_clean_line`). A text with a control character in it is the exception
that the channel has.

## Main definitions

* `announced`: What an event is shown as.
* `Sendable`: The events that the channel takes.
* `wordsOf`: What a client has to say of its state.
* `Told`: What is shown of a run.

## Theorems

* `onEvent_received`: An event, as the callback has it.
* `clientProgress_shown`: The events of a process.
* `told_run`: The events of a run.
-/

namespace MzzPlork

namespace Launcher

open EventChannel MzzPlork.Runtime

section Events

variable (fmt : NumberFormat) (toNumber : JsString → JsNumber) (textMode : Bool)

/-- What is shown of an error. -/
def errorProgress (message : Bytes) : Progress :=
  ⟨.client, .error, some (.str (Wire.units message)), none⟩

/-- What an event is shown as. -/
def announced (e : ClientEvent) : Option Progress :=
  match e with
  | .error message => some (errorProgress message)
  | .state name => if name = ascii "ready" then some readyProgress else none
  | .service _ _ _ | .log _ => none

/-- The event as the callback has it. -/
def received (e : ClientEvent) : JsValue :=
  .obj (e.members.map (fun m => (js m.1, Json.str (Wire.units m.2))))

/-- Texts that the channel takes. -/
def Sendable (e : ClientEvent) : Prop := ∀ f ∈ e.fields, IsText f.2 ∧ Clean f.2

theorem said_eq_received (e : ClientEvent) (h : Sendable e) : e.said = some (received e) := by
  have hall : ∀ ms : List (String × Bytes), (∀ m ∈ ms, IsUtf8 m.2) →
      ms.mapM (fun m => (decodeUtf8 m.2).map (fun s => (js m.1, Json.str s)))
        = some (ms.map (fun m => (js m.1, (Json.str (Wire.units m.2) : JsValue)))) := by
    intro ms hms
    induction ms with
    | nil => rfl
    | cons m ms ih =>
        rcases hms m List.mem_cons_self with ⟨cs, hcs⟩
        have hcoded : Coded m.2 (textUnits cs) := ⟨cs, hcs, rfl⟩
        rw [List.mapM_cons, decodeUtf8_eq _ _ hcoded,
          ih (fun x hx => hms x (List.mem_cons_of_mem m hx)), List.map_cons,
          Wire.units_eq _ _ hcoded]
        rfl
  unfold ClientEvent.said received
  rw [hall e.members (fun m hm => ?_)]
  · rfl
  · rcases List.mem_cons.mp hm with rfl | hm
    · exact (isText_kind e).1
    · exact (h m hm).1.1

/-- A callback that is told of no error, state or end. -/
theorem onEvent_other (event : JsValue) (hnull : JsValue.isNull event = false)
    (herror : carries event "event" "error" = false)
    (hstate : (carries event "event" "state" && carries event "state" "ready") = false)
    (hexit : carries event "event" "exit" = false) :
    onEvent fmt event = ([eventProgress fmt event], true) := by
  unfold onEvent
  rw [hnull, herror, hstate, hexit, Bool.false_and]
  rfl

theorem received_eq (e : ClientEvent) : received e = .obj ((js "event", .str (js e.kind)) ::
    e.fields.map (fun m => (js m.1, Json.str (Wire.units m.2)))) := by
  have hall : ∀ k ∈ ["state", "service", "log", "error"],
      k.toList.all (fun c => c.toNat < 128) = true := by decide
  unfold received ClientEvent.members
  rw [List.map_cons, Wire.units_ascii e.kind (hall e.kind (kind_mem e))]

/-- An event, as the callback has it: the callback comes to its end, and what it
    shows as the state of the client is what the event says. -/
theorem onEvent_received (e : ClientEvent) (h : Sendable e) :
    (onEvent fmt (received e)).2 = true ∧
      clientProgress (onEvent fmt (received e)).1 = (announced e).toList := by
  cases e with
  | state name =>
      by_cases hready : name = ascii "ready"
      · subst hready
        have hreceived : received (.state (ascii "ready")) = .obj [(js "event", .str (js "state")),
            (js "state", .str (js "ready"))] := by
          rw [received_eq, ← Wire.units_ascii "ready" rfl]
          rfl
        rw [hreceived]
        exact ⟨rfl, rfl⟩
      · have hne : Wire.units name ≠ js "ready" := fun heq =>
          hready (Wire.units_injective name (ascii "ready") (h _ List.mem_cons_self).1.1
            (coded_ascii "ready" rfl).isUtf8 (heq.trans (Wire.units_ascii "ready" rfl).symm))
        have hreceived : received (.state name) = .obj [(js "event", .str (js "state")),
            (js "state", .str (Wire.units name))] := received_eq _
        -- Another text is another string to the callback as well.
        have hother := onEvent_other fmt (.obj [(js "event", .str (js "state")),
          (js "state", .str (Wire.units name))]) rfl rfl (decide_eq_false hne) rfl
        rw [hreceived, hother, announced, if_neg hready]
        exact ⟨rfl, rfl⟩
  | service name status message =>
      have hreceived : received (.service name status message) = .obj
          [(js "event", .str (js "service")), (js "service", .str (Wire.units name)),
            (js "status", .str (Wire.units status)), (js "message", .str (Wire.units message))] :=
        received_eq _
      rw [hreceived, onEvent_other fmt _ rfl rfl rfl rfl]
      exact ⟨rfl, rfl⟩
  | log message =>
      have hreceived : received (.log message) = .obj
          [(js "event", .str (js "log")), (js "message", .str (Wire.units message))] :=
        received_eq _
      rw [hreceived, onEvent_other fmt _ rfl rfl rfl rfl]
      exact ⟨rfl, rfl⟩
  | error message =>
      have hreceived : received (.error message) = .obj
          [(js "event", .str (js "error")), (js "message", .str (Wire.units message))] :=
        received_eq _
      rw [hreceived]
      exact ⟨rfl, rfl⟩

/-- The lines of events that are read, one for each event. -/
theorem exists_lines (es : List ClientEvent) (h : ∀ e ∈ es, Sendable e) :
    ∃ s, decodeUtf8 (toStdout textMode (es.flatMap ClientEvent.printed)) = some s ∧
      (splitLines s).1.map (onLine toNumber) = es.map received := by
  have hreceived := receivedEvents_run toNumber textMode es (fun e he f hf => (h e he f hf).1)
    (fun e he f hf => (h e he f hf).2)
  have hsaid : es.mapM ClientEvent.said = some (es.map received) := by
    clear hreceived
    induction es with
    | nil => rfl
    | cons e es ih =>
        rw [List.mapM_cons, said_eq_received e (h e List.mem_cons_self),
          ih (fun x hx => h x (List.mem_cons_of_mem e hx))]
        rfl
  rw [hsaid] at hreceived
  exact Option.map_eq_some_iff.mp hreceived

/-- Lines that are read as events are shown as these. -/
theorem clientProgress_lines (lines : List JsString) (es : List ClientEvent)
    (h : ∀ e ∈ es, Sendable e) (hlines : lines.map (onLine toNumber) = es.map received) :
    clientProgress (lines.flatMap (relayLine fmt toNumber)) = es.filterMap announced := by
  induction lines generalizing es with
  | nil =>
      cases es with
      | nil => rfl
      | cons e es => exact absurd hlines.symm (List.cons_ne_nil _ _)
  | cons line lines ih =>
      cases es with
      | nil => exact absurd hlines (List.cons_ne_nil _ _)
      | cons e es =>
          rw [List.map_cons, List.map_cons, List.cons.injEq] at hlines
          -- The callback comes to its end, so the line does not come once more.
          rcases onEvent_received fmt e (h e List.mem_cons_self) with ⟨hdone, hshown⟩
          have hrest := ih es (fun x hx => h x (List.mem_cons_of_mem e hx)) hlines.2
          have hrelay : relayLine fmt toNumber line = (onEvent fmt (received e)).1 := by
            unfold relayLine
            rw [hlines.1]
            exact if_pos hdone
          unfold clientProgress at hrest hshown ⊢
          rw [List.flatMap_cons, List.filter_append, hrest, hrelay, hshown]
          cases hannounced : announced e with
          | none =>
              rw [List.filterMap_cons_none hannounced]
              rfl
          | some p =>
              rw [List.filterMap_cons_some hannounced]
              rfl

/-- What the end of the process is shown as. -/
def ended (code : Int) : List Progress := if code = 0 then [] else [crashProgress (fmt code)]

theorem clientProgress_exit (code : Int) :
    clientProgress (onEvent fmt (exitEvent code)).1 = ended fmt code := by
  by_cases hcode : code = 0
  · subst hcode
    rfl
  · have hcrashed : (exitEvent code).field (js "crashed") = some (.bool true) :=
      congrArg (fun b => some (Json.bool b)) (decide_eq_true hcode)
    have hended : ended fmt code = [crashProgress (fmt code)] := if_neg hcode
    unfold onEvent
    rw [hcrashed, hended]
    rfl

/-- Everything that is shown of a process that has printed events. -/
theorem clientProgress_shown (es : List ClientEvent) (h : ∀ e ∈ es, Sendable e)
    (lines : List JsString) (hlines : lines.map (onLine toNumber) = es.map received)
    (read : Nat) (code : Int) :
    clientProgress (shown fmt toNumber lines read code)
      = (es.take read).filterMap announced ++ ended fmt code ++
        (es.drop read).filterMap announced := by
  have hbefore := clientProgress_lines fmt toNumber (lines.take read) (es.take read)
    (fun e he => h e (List.mem_of_mem_take he))
    (by rw [List.map_take, List.map_take, hlines])
  have hafter := clientProgress_lines fmt toNumber (lines.drop read) (es.drop read)
    (fun e he => h e (List.mem_of_mem_drop he))
    (by rw [List.map_drop, List.map_drop, hlines])
  have hexit := clientProgress_exit fmt code
  unfold clientProgress at hbefore hafter hexit ⊢
  unfold shown
  rw [List.filter_append, List.filter_append, hbefore, hafter, hexit]

end Events

section Runs

/-- A run without errors is shown as ready where it says so. -/
theorem announced_of_lifecycle (es : List ClientEvent) (herror : errorTexts es = []) :
    es.filterMap announced
      = ((lifecycleTexts es).filter (· = ascii "ready")).map (fun _ => readyProgress) := by
  induction es with
  | nil => rfl
  | cons e es ih =>
      cases e with
      | state name =>
          have hrest := ih herror
          have htexts : lifecycleTexts (.state name :: es) = name :: lifecycleTexts es := rfl
          rw [htexts, List.filter_cons]
          by_cases hready : name = ascii "ready"
          · have hannounced : announced (.state name) = some readyProgress := if_pos hready
            rw [List.filterMap_cons_some hannounced, hrest, if_pos (decide_eq_true hready),
              List.map_cons]
          · have hannounced : announced (.state name) = none := if_neg hready
            rw [List.filterMap_cons_none hannounced, hrest,
              if_neg (fun heq => hready (of_decide_eq_true heq))]
      | service name status message => exact ih herror
      | log message => exact ih herror
      | error message => exact absurd herror (List.cons_ne_nil _ _)

/-- A run that is never ready is shown as what it complains of. -/
theorem announced_of_errors (es : List ClientEvent) (hready : ascii "ready" ∉ lifecycleTexts es) :
    es.filterMap announced = (errorTexts es).map errorProgress := by
  induction es with
  | nil => rfl
  | cons e es ih =>
      cases e with
      | state name =>
          have hne : name ≠ ascii "ready" := fun heq => hready (heq ▸ List.mem_cons_self)
          have hannounced : announced (.state name) = none := if_neg hne
          rw [List.filterMap_cons_none hannounced,
            ih (fun hmem => hready (List.mem_cons_of_mem name hmem))]
          rfl
      | service name status message => exact ih hready
      | log message => exact ih hready
      | error message => exact congrArg (List.cons (errorProgress message)) (ih hready)

/-- What a client has to say of its state: why it has failed, or that it is ready. -/
def wordsOf (c : Client) : List Progress :=
  if c.main = .returned 1 then (errorTexts c.events).map errorProgress
  else if ascii "ready" ∈ lifecycleTexts c.events then [readyProgress]
  else []

/-- What is shown as the state of a client that ends with some code, wherever it
    ends: its own words, with the crash somewhere among them unless the code is
    0. A client that returns 1 has something to say, and one that returns 0 has
    been ready. -/
structure Told (fmt : NumberFormat) (c : Client) (code : Int) (progress : List Progress) :
    Prop where
  shown : ∃ before after, before ++ after = wordsOf c ∧
    progress = before ++ ended fmt code ++ after
  failure : c.main = .returned 1 → errorTexts c.events ≠ []
  success : c.main = .returned 0 → ascii "ready" ∈ lifecycleTexts c.events

variable {services : Services} {c : Client}

/-- Nobody is ready twice. -/
theorem announced_of_documents (h : Documents services c) (hmain : c.main ≠ .returned 1) :
    c.events.filterMap announced
      = if ascii "ready" ∈ lifecycleTexts c.events then [readyProgress] else [] := by
  rcases h with ⟨states, h, _, _⟩
  have herror : errorTexts c.events = [] := by
    by_contra hne
    exact hmain (of_decide_eq_true (h.errors.mp hne))
  have hall : (lifecycles.map RuntimeState.text).Nodup := by decide
  have hnodup : (lifecycleTexts c.events).Nodup := by
    rw [h.phases, List.map_take]
    exact (List.take_sublist _ _).nodup hall
  rw [announced_of_lifecycle _ herror, List.filter_eq, hnodup.count]
  split <;> rfl

/-- The events are shown as what the client has to say. -/
theorem announced_eq_words (h : Documents services c) :
    c.events.filterMap announced = wordsOf c := by
  unfold wordsOf
  split
  · -- The runs that fail do so before they are ready.
    rename_i hmain
    rcases h with ⟨states, h, _, _⟩
    have hphases := h.phases
    rw [hmain] at hphases
    refine announced_of_errors _ ?_
    rw [hphases]
    decide
  · rename_i hmain
    exact announced_of_documents h hmain

/-- What is shown is put together from the events and the end. -/
theorem told_of_documents (fmt : NumberFormat) (h : Documents services c) (read : Nat)
    (code : Int) : Told fmt c code ((c.events.take read).filterMap announced ++ ended fmt code ++
      (c.events.drop read).filterMap announced) where
  shown := by
    refine ⟨_, _, ?_, rfl⟩
    rw [← List.filterMap_append, List.take_append_drop, announced_eq_words h]
  failure := (documented_of_documents h).error.mpr
  success := by
    intro hmain
    rcases h with ⟨states, h, _, _⟩
    rw [h.phases, hmain]
    decide

/-- Whatever the services return, the server says and the threads do, the user
    is told what has become of the client, whatever its end, as long as nothing
    that it prints has a control character. -/
theorem told_run (fmt : NumberFormat) (toNumber : JsString → JsNumber) (textMode : Bool)
    (services : Services) (script : Heartbeat.Script) (parses : Server.ServerMessage → Bool)
    (as : List ClientAction)
    (h : ∀ e ∈ (as.foldl (act services script parses) Client.init).events, Sendable e) :
    ∃ s, decodeUtf8 (toStdout textMode ((as.foldl (act services script parses)
        Client.init).events.flatMap ClientEvent.printed)) = some s ∧
      ∀ read code, Told fmt (as.foldl (act services script parses) Client.init) code
        (clientProgress (shown fmt toNumber (splitLines s).1 read code)) := by
  have hdocuments := Run.foldl_inv (act services script parses) (Documents services)
    (fun _ a h => documents_act a h) as Client.init documents_init
  rcases exists_lines toNumber textMode _ h with ⟨s, hdecode, hlines⟩
  refine ⟨s, hdecode, fun read code => ?_⟩
  rw [clientProgress_shown fmt toNumber _ h _ hlines]
  exact told_of_documents fmt hdocuments read code

theorem sendable_of_ascii (e : ClientEvent)
    (h : e.fields.all (fun f => f.2.all (fun b => 32 ≤ b && b.toNat < 128)) = true) :
    Sendable e := by
  intro f hf
  have hbyte : ∀ b ∈ f.2, 32 ≤ b ∧ b.toNat < 128 := by
    intro b hb
    have hall := List.all_eq_true.mp (List.all_eq_true.mp h f hf) b hb
    rw [Bool.and_eq_true, decide_eq_true_eq, decide_eq_true_eq] at hall
    exact hall
  have hutf : IsUtf8 f.2 :=
    (JsonParse.coded_wide f.2 (fun b hb => (hbyte b hb).2)).isUtf8
  exact ⟨⟨hutf, fun hmem => absurd (hbyte 0 hmem).1 (by decide)⟩,
    fun b hb => Or.inl (hbyte b hb).1⟩

/-- A configuration that cannot be read. -/
def misconfigured : Services where
  configuration := ⟨.failed, ascii "config.json is malformed"⟩
  logLevel := ascii "info"
  serverHost := []
  cache := ⟨.ok, []⟩
  network := ⟨.ok, []⟩
  gameInit := ⟨.ok, []⟩
  gameDetection := ⟨.failed, []⟩
  connects := false
  resourcesInit := ⟨.ok, []⟩
  applied := none

theorem told_run_misconfigured :
    ∃ s, decodeUtf8 (toStdout true (([.main true true].foldl (act misconfigured ⟨[], 0, 0⟩
        (fun _ => true)) Client.init).events.flatMap ClientEvent.printed)) = some s ∧
      ∀ read, ∃ before after, before ++ after
          = [errorProgress (ascii "configuration load failed: config.json is malformed")] ∧
        clientProgress (shown (fun _ => js "1") (fun _ => .finite 0) (splitLines s).1 read 1)
          = before ++ crashProgress (js "1") :: after := by
  have hall : ∀ e ∈ ([.main true true].foldl (act misconfigured ⟨[], 0, 0⟩ (fun _ => true))
      Client.init).events,
      e.fields.all (fun f => f.2.all (fun b => 32 ≤ b && b.toNat < 128)) = true := by decide
  rcases told_run (fun _ => js "1") (fun _ => .finite 0) true misconfigured ⟨[], 0, 0⟩
    (fun _ => true) [.main true true] (fun e he => sendable_of_ascii e (hall e he))
    with ⟨s, hdecode, htold⟩
  refine ⟨s, hdecode, fun read => ?_⟩
  rcases (htold read 1).shown with ⟨before, after, hsplit, hshown⟩
  refine ⟨before, after, hsplit, ?_⟩
  rw [hshown, List.append_assoc]
  rfl

end Runs

end Launcher

end MzzPlork

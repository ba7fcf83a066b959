import MzzPlork.Core.MessageFramer
import MzzPlork.Theory.JsonParse

/-!
# Messages out of Chunks

The framer emits the same for a stream however it was cut into chunks, and what
it emits for a line is a matter of that line: a message or one error, and
nothing for a blank line.

The loop is a reader of pieces in the sense of `Delimited`, with the line feed
for a delimiter.

## Main definitions

* `lineEvents`: What a line leads to.
* `feed`: The framer as a reader of pieces.

## Theorems

* `feed_onData`: What a chunk leads to.
* `foldl_onData_eq`, `received_eq`: What the chunks of a connection lead to.
* `lineEvent_malformed`, `lineEvent_typed`, `lineEvent_untyped`: One line.
* `received_lines`: Independence of the chunks, line by line.
-/

namespace MzzPlork

namespace Wire

namespace MessageFramer

variable (toNumber : JsString → JsNumber) (syntaxErrorText : JsString → JsString)

/-- What a line leads to. -/
def lineEvents (line : JsString) : List FramerEvent :=
  if trim line = [] then [] else [lineEvent toNumber syntaxErrorText line]

theorem onLine_eq (f : MessageFramer) (line : JsString) :
    f.onLine toNumber syntaxErrorText line
      = { f with emitted := f.emitted ++ lineEvents toNumber syntaxErrorText line } := by
  rw [onLine, lineEvents]
  split
  · rw [List.append_nil]
  · rfl

/-- The framer as a reader of pieces. -/
def feed (f : MessageFramer) : Delimited.Feed UInt16 FramerEvent Unit :=
  ⟨f.buffer, f.emitted, ()⟩

/-- What a chunk leads to. -/
theorem feed_onData (f : MessageFramer) (chunk : JsString) :
    (f.onData toNumber syntaxErrorText chunk).feed
      = Delimited.Feed.feed 10 (fun _ => lineEvents toNumber syntaxErrorText) f.feed chunk := by
  refine Delimited.Feed.view_loop 10 _ feed (onDataLoop toNumber syntaxErrorText) (fun _ => rfl)
    (fun n f hcut => ?_) (fun n f line rest hcut => ?_) _ _ (le_refl _)
  · rw [onDataLoop, show Delimited.cut 10 f.buffer = none from hcut]
  · refine ⟨{ f with buffer := rest }.onLine toNumber syntaxErrorText line, ?_, ?_⟩
    · rw [onLine_eq]
      rfl
    · rw [onDataLoop, show Delimited.cut 10 f.buffer = some (line, rest) from hcut]

/-- What chunks lead to, behind what is in the buffer already. -/
theorem foldl_onData_eq (f : MessageFramer) (hf : 10 ∉ f.buffer) (chunks : List JsString) :
    chunks.foldl (onData toNumber syntaxErrorText) f
      = ⟨(Delimited.frames 10 (f.buffer ++ chunks.flatten)).2, f.emitted
        ++ (Delimited.frames 10 (f.buffer ++ chunks.flatten)).1.flatMap
          (lineEvents toNumber syntaxErrorText)⟩ := by
  have hfeed : (chunks.foldl (onData toNumber syntaxErrorText) f).feed
      = Delimited.Feed.feed 10 (fun _ => lineEvents toNumber syntaxErrorText) f.feed
        chunks.flatten := by
    rw [← Delimited.Feed.foldl_feed 10 _ chunks f.feed hf]
    exact (List.foldl_hom feed
      (fun f chunk => (feed_onData toNumber syntaxErrorText f chunk).symm)).symm
  exact congrArg₂ MessageFramer.mk (congrArg Delimited.Feed.kept hfeed)
    (congrArg Delimited.Feed.emitted hfeed)

/-- What the chunks of a connection lead to: what their stream leads to. -/
theorem received_eq (chunks : List JsString) :
    received toNumber syntaxErrorText chunks
      = ⟨(Delimited.frames 10 chunks.flatten).2, (Delimited.frames 10 chunks.flatten).1.flatMap
          (lineEvents toNumber syntaxErrorText)⟩ :=
  foldl_onData_eq toNumber syntaxErrorText new List.not_mem_nil chunks

theorem flatMap_lineEvents (lines : List JsString) :
    lines.flatMap (lineEvents toNumber syntaxErrorText)
      = (lines.filter (fun line => trim line ≠ [])).map (lineEvent toNumber syntaxErrorText) := by
  induction lines with
  | nil => rfl
  | cons line lines ih =>
      rw [List.flatMap_cons, ih, lineEvents]
      by_cases hblank : trim line = []
      · simp only [if_true, List.filter_cons, hblank, ne_eq, not_true_eq_false, decide_false,
          Bool.false_eq_true, if_false, List.nil_append]
      · simp only [if_false, List.filter_cons, ne_eq, hblank, not_false_eq_true, decide_true,
          if_true, List.map_cons, List.singleton_append]

/-- A line that is no JSON leads to an error. -/
theorem lineEvent_malformed (line : JsString)
    (h : JsonParse.jsonParse toNumber line = none) :
    lineEvent toNumber syntaxErrorText line
      = .protocolError (js "malformed JSON line: " ++ syntaxErrorText line) := by
  rw [lineEvent, h]

/-- A line with a string for a type leads to a message. -/
theorem lineEvent_typed (line type : JsString) (message : JsValue)
    (h : JsonParse.jsonParse toNumber line = some message)
    (htype : message.field (js "type") = some (.str type)) :
    lineEvent toNumber syntaxErrorText line
      = .message type (JsValue.orElse (message.field (js "payload")) (.obj [])) := by
  -- Only objects have a field, and they are all truthy.
  have htruthy : message.truthy = true := by
    cases message with
    | obj fields => rfl
    | _ => exact absurd htype (by simp only [Json.field, reduceCtorEq, not_false_eq_true])
  rw [lineEvent, h]
  simp only [htruthy, htype]

/-- Any other JSON leads to an error. -/
theorem lineEvent_untyped (line : JsString) (message : JsValue)
    (h : JsonParse.jsonParse toNumber line = some message)
    (htype : ∀ type, message.field (js "type") ≠ some (.str type)) :
    lineEvent toNumber syntaxErrorText line
      = .protocolError (js "message missing string 'type'") := by
  rw [lineEvent, h]
  simp only []
  split
  · rename_i type _ hfield
    exact absurd hfield (htype type)
  · rfl

/-- However a stream is cut, the same is emitted and the same is kept. The
    stream's complete lines lead to one event each if they are not blank, in
    their order and each for itself: a line with a string for a type to a
    message, other JSON and what is no JSON to an error. The parser never gives
    up on a line for want of fuel. -/
theorem received_lines (chunks : List JsString) :
    (∀ chunks', chunks'.flatten = chunks.flatten →
        received toNumber syntaxErrorText chunks' = received toNumber syntaxErrorText chunks) ∧
      (∃ (lines : List JsString) (rest : JsString),
        chunks.flatten = lines.flatMap (· ++ [10]) ++ rest ∧
        (∀ line ∈ lines, 10 ∉ line) ∧ 10 ∉ rest ∧
        received toNumber syntaxErrorText chunks
          = ⟨rest, (lines.filter (fun line => trim line ≠ [])).map
              (lineEvent toNumber syntaxErrorText)⟩) ∧
      (∀ line, JsonParse.jsonParse toNumber line = none →
        (JsonParse.parseValue toNumber (2 * line.length + 1) (JsonParse.skipSpace line)
            = .syntaxError ∨
          ∃ v rest, JsonParse.parseValue toNumber (2 * line.length + 1)
              (JsonParse.skipSpace line) = .ok v rest ∧ JsonParse.skipSpace rest ≠ []) ∧
          ∃ message, lineEvent toNumber syntaxErrorText line = .protocolError message) ∧
      (∀ line message type, JsonParse.jsonParse toNumber line = some message →
        message.field (js "type") = some (.str type) →
        lineEvent toNumber syntaxErrorText line
          = .message type (JsValue.orElse (message.field (js "payload")) (.obj []))) ∧
      ∀ line message, JsonParse.jsonParse toNumber line = some message →
        (∀ type, message.field (js "type") ≠ some (.str type)) →
        lineEvent toNumber syntaxErrorText line
          = .protocolError (js "message missing string 'type'") := by
  refine ⟨fun chunks' hsame => ?_, ?_, fun line hline => ?_,
    fun line message type => lineEvent_typed toNumber syntaxErrorText line type message,
    lineEvent_untyped toNumber syntaxErrorText⟩
  · rw [received_eq, received_eq, hsame]
  · rcases Delimited.delimited_frames 10 chunks.flatten with ⟨hsplit, hfree⟩
    refine ⟨_, _, hsplit, hfree, Delimited.not_mem_frames 10 _, ?_⟩
    rw [received_eq, flatMap_lineEvents]
  · exact ⟨JsonParse.jsonParse_eq_none toNumber line hline, _,
      lineEvent_malformed toNumber syntaxErrorText line hline⟩

end MessageFramer

end Wire

end MzzPlork

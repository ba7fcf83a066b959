import MzzPlork.Base.Delimited
import MzzPlork.Core.ServerConnection
import MzzPlork.Theory.Writing

/-!
# Lines out of Chunks

The reader thread takes the same messages from a stream of bytes however the
stream was cut into chunks: it is a reader of pieces in the sense of
`Delimited`, with the line feed for a delimiter.

## Main definitions

* `lineCalls`: The calls a line leads to.
* `Reader.feed`: The reader thread as a reader of pieces.
* `lineText`: The line of `Send`.

## Theorems

* `feed_receive`: What a chunk leads to.
* `feed_readerLoop`: The reader on chunks is the reader on the stream.
* `readerLoop_lines`: What a stream of lines leads to, in whichever chunks.
* `spells_lineText`: What a sent line stands for.
-/

namespace MzzPlork

namespace Wire

open JsonText (OneLine)

theorem splitLine_eq (buffer : Bytes) : splitLine buffer = Delimited.cut 10 buffer := by
  induction buffer with
  | nil => rfl
  | cons b buffer ih => rw [splitLine, Delimited.cut, ih]

namespace Reader

/-- The calls a line leads to. -/
def lineCalls (hasHandler : Bool) (line : Bytes) : List ServerMessage :=
  if line = [] ∨ hasHandler = false then [] else (messageOf line).toList

/-- A line that is dispatched leaves the buffer alone, and does not look at it. -/
theorem dispatchLine_eq (r : Reader) (line : Bytes) :
    r.dispatchLine line = { r with calls := r.calls ++ lineCalls r.hasHandler line } := by
  rcases r with ⟨buffer, hasHandler, calls⟩
  unfold dispatchLine lineCalls
  by_cases hline : line = []
  · simp only [hline, true_or, if_true, List.append_nil]
  · cases hasHandler with
    | false =>
        simp only [if_neg hline, or_true, if_true, List.append_nil, Bool.false_eq_true, if_false]
        cases messageOf line <;> rfl
    | true =>
        simp only [hline, Bool.true_eq_false, or_self, if_false, if_true]
        cases messageOf line with
        | none => simp only [Option.toList_none, List.append_nil]
        | some message => rfl

/-- The reader thread as a reader of pieces. -/
def feed (r : Reader) : Delimited.Feed UInt8 ServerMessage Bool :=
  ⟨r.readBuffer, r.calls, r.hasHandler⟩

theorem feed_injective (r r' : Reader) (h : r.feed = r'.feed) : r = r' := by
  rcases r with ⟨buffer, hasHandler, calls⟩
  rcases r' with ⟨buffer', hasHandler', calls'⟩
  simp only [feed, Delimited.Feed.mk.injEq] at h
  rcases h with ⟨rfl, rfl, rfl⟩
  rfl

/-- What a chunk leads to. -/
theorem feed_receive (r : Reader) (chunk : Bytes) :
    (r.receive chunk).feed = Delimited.Feed.feed 10 lineCalls r.feed chunk := by
  refine Delimited.Feed.view_loop 10 lineCalls feed (fun n r => r.dispatchLines n) (fun _ => rfl)
    (fun n r hcut => ?_) (fun n r line rest hcut => ?_) _ _ (le_refl _)
  · have hnone : splitLine r.readBuffer = none := (splitLine_eq _).trans hcut
    simp only [dispatchLines, hnone]
  · have hsome : splitLine r.readBuffer = some (line, rest) := (splitLine_eq _).trans hcut
    refine ⟨{ r with readBuffer := rest }.dispatchLine line, ?_, ?_⟩
    · rw [dispatchLine_eq]
      rfl
    · simp only [dispatchLines, hsome]

/-- The loop ends at an empty chunk only. -/
theorem readerLoop_eq_foldl (chunks : List Bytes) (r : Reader) (hne : ∀ c ∈ chunks, c ≠ []) :
    r.readerLoop chunks = chunks.foldl receive r := by
  induction chunks generalizing r with
  | nil => rfl
  | cons c chunks ih =>
      rw [readerLoop, if_neg (hne c List.mem_cons_self), List.foldl_cons,
        ih _ (fun c' hc => hne c' (List.mem_cons_of_mem c hc))]

/-- The reader on chunks is the reader on the stream. -/
theorem feed_readerLoop (r : Reader) (chunks : List Bytes) (hne : ∀ c ∈ chunks, c ≠ [])
    (hr : 10 ∉ r.readBuffer) :
    (r.readerLoop chunks).feed = Delimited.Feed.feed 10 lineCalls r.feed chunks.flatten := by
  rw [readerLoop_eq_foldl chunks r hne, ← Delimited.Feed.foldl_feed 10 lineCalls chunks r.feed hr]
  exact (List.foldl_hom feed (fun r chunk => (feed_receive r chunk).symm)).symm

/-- What a stream of lines leads to, in whichever chunks it arrives. -/
theorem readerLoop_lines (chunks lines : List Bytes) (hne : ∀ c ∈ chunks, c ≠ [])
    (h : ∀ line ∈ lines, OneLine line) (hcut : chunks.flatten = lines.flatMap (· ++ [10])) :
    (start true).readerLoop chunks
      = { start true with calls := lines.flatMap (lineCalls true) } := by
  have hfree : ∀ line ∈ lines, 10 ∉ line := fun line hl hmem => h line hl 10 hmem rfl
  have hframes := Delimited.frames_delimited 10 lines [] hfree List.not_mem_nil
  rw [List.append_nil] at hframes
  refine feed_injective _ _ ?_
  rw [feed_readerLoop _ chunks hne List.not_mem_nil, hcut, Delimited.Feed.feed,
    Delimited.Feed.drain]
  simp only [feed, start, List.nil_append, hframes]

end Reader

section Sending

/-- The line of `Send` without its line feed. -/
def lineText (type payload : Bytes) : Bytes :=
  123 :: (34 :: ascii "type" ++ [34, 58] ++ (34 :: type ++ [34]) ++
    44 :: (34 :: ascii "payload" ++ [34, 58] ++ payload)) ++ [125]

theorem sendLine_eq (type payload : Bytes) (hne : payload ≠ []) :
    sendLine type payload = lineText type payload ++ [10] := by
  rw [sendLine, if_neg hne, lineText]
  simp only [List.append_assoc, List.cons_append, List.nil_append]
  rfl

/-- The line is a text of any dialect that takes its names as they are. -/
theorem spells_lineText {σ ν : Type} {L : Lexicon σ ν} (typeKey payloadKey t : σ) (v : Json σ ν)
    (type payload : Bytes) (htype : L.literal typeKey (ascii "type"))
    (hpayload : L.literal payloadKey (ascii "payload")) (ht : L.literal t type)
    (hv : Spells L (.value v) payload) :
    Spells L (.value (.obj (L.object [(typeKey, .str t), (payloadKey, v)])))
      (lineText type payload) :=
  Spells.obj _ _ (Spells.members_compact htype (Spells.str t type ht)
    (Spells.member_compact hpayload hv))

theorem oneLine_lineText (type payload : Bytes) (ht : OneLine type) (hp : OneLine payload) :
    OneLine (lineText type payload) := by
  have htype : OneLine (34 :: ascii "type" ++ [34, 58]) := JsonText.oneLine_of_all _ rfl
  have hpayload : OneLine (34 :: ascii "payload" ++ [34, 58]) := JsonText.oneLine_of_all _ rfl
  rw [lineText]
  simp only [OneLine, List.forall_mem_append, List.forall_mem_cons] at htype hpayload ht hp ⊢
  exact ⟨⟨by decide, ⟨htype, ⟨by decide, ht⟩, by decide, List.forall_mem_nil _⟩, by decide,
    hpayload, hp⟩, by decide, List.forall_mem_nil _⟩

end Sending

end Wire

end MzzPlork

/-
The completion tracker of the stream relay
(`vellum-proxy-runtime/src/streaming.rs`).  Chunks of bytes become text, the
text is cut into event blocks, and each block is read once: completed output
items, the completed response and a terminal error.  Nothing of it depends on
how the bytes were divided into chunks.
-/
import Vellum.Library.Json
import Vellum.Proxy.Sse

namespace Vellum.Proxy

open List

structure SseCompletionTracker where
  utf8 : List Char := []
  remainder : List UInt8 := []
  completedItems : List Json := []
  completedResponse : Option Json := none
  terminalError : Option String := none
  terminalErrorEvent : Option Json := none
  justCompleted : Bool := false

namespace SseCompletionTracker

/-- The message of a failure event, wherever the provider puts it. -/
def errorMessage (value : Json) : Option String :=
  (((value.pointer ["response", "error", "message"]).or
    (value.pointer ["error", "message"])).or
    (value.get "message")).bind Json.asStr

/-- The effect of one parsed event. -/
def feedValue (tracker : SseCompletionTracker) (value : Json) :
    SseCompletionTracker :=
  match (value.get "type").bind Json.asStr with
  | some kind =>
    if kind = "response.output_item.done" then
      match value.get "item" with
      | some item =>
        { tracker with
          completedItems := tracker.completedItems ++ [item] }
      | none => tracker
    else if kind = "response.completed" then
      { tracker with
        completedResponse := value.get "response"
        justCompleted := true }
    else if kind = "response.failed" ∨ kind = "error" then
      { tracker with
        terminalErrorEvent := some value
        terminalError := errorMessage value }
    else tracker
  | none => tracker

section Parsing

-- `serde_json::from_str::<Value>`; `none` when the text is no JSON.
variable (fromStr : String → Option Json)

variable (tracker : SseCompletionTracker) (bytes : List UInt8)

/-- One event block.  Only the first data line counts. -/
def feedBlock (block : List Char) : SseCompletionTracker :=
  match (Text.lines block).findSome? (stripSseField · "data".toList) with
  | none => tracker
  | some data =>
    match fromStr (String.ofList data) with
    | none => tracker
    | some value => tracker.feedValue value

/-- Whether an output array holds the item already: by id, or by value. -/
def isDuplicate (item existing : Json) : Bool :=
  (match (item.get "id").bind Json.asStr,
      (existing.get "id").bind Json.asStr with
    | some left, some right => left = right
    | _, _ => false) || existing.same item

/-- The completed response with the items that were completed on the way. -/
def fullResponse : Option Json :=
  match tracker.completedResponse with
  | some (.obj fields) =>
    match ((Json.obj fields).get "output").getD (.arr []) with
    | .arr output =>
      let merged := tracker.completedItems.foldl (fun output item =>
        if output.any (isDuplicate item) then output
        else output ++ [item]) output
      some (.obj (Json.insertField "output" (.arr merged) fields))
    | _ => none
  | _ => none

/-- Take every whole block off the text and feed it. -/
def feedBlocks : SseCompletionTracker :=
  let taken := takeSseBlocks tracker.utf8
  taken.1.foldl (feedBlock fromStr) { tracker with utf8 := taken.2 }

/-- One chunk from the wire, with the response if the chunk completed it. -/
def pushChunk : SseCompletionTracker × Option Json :=
  let text := appendUtf8Safe tracker.utf8 tracker.remainder bytes
  let next := feedBlocks fromStr { tracker with
    justCompleted := false, utf8 := text.1, remainder := text.2 }
  (next, if next.justCompleted then next.fullResponse else none)

/-- The chunks of a stream, one after the other. -/
def pushChunks (chunks : List (List UInt8)) : SseCompletionTracker :=
  chunks.foldl (fun state bytes => (pushChunk fromStr state bytes).1) tracker

/-- The blocks fed while the chunks arrive. -/
def blocksFed (tracker : SseCompletionTracker) :
    List (List UInt8) → List (List Char)
  | [] => []
  | bytes :: chunks =>
    (takeSseBlocks
      (appendUtf8Safe tracker.utf8 tracker.remainder bytes).1).1 ++
      blocksFed (pushChunk fromStr tracker bytes).1 chunks

/-- What the blocks have told, without the text still to be read. -/
def reading : SseCompletionTracker :=
  { tracker with utf8 := [], remainder := [], justCompleted := false }

theorem feedBlock_utf8 (tracker : SseCompletionTracker) (block : List Char) :
    (feedBlock fromStr tracker block).utf8 = tracker.utf8 ∧
      (feedBlock fromStr tracker block).remainder = tracker.remainder := by
  simp only [feedBlock, feedValue]
  repeat' split
  all_goals exact ⟨rfl, rfl⟩

theorem reading_feedBlock (tracker : SseCompletionTracker)
    (block : List Char) :
    reading (feedBlock fromStr tracker block) =
      reading (feedBlock fromStr tracker.reading block) := by
  simp only [feedBlock, feedValue]
  repeat' split
  all_goals rfl

theorem foldl_feedBlock_utf8 (blocks : List (List Char))
    (tracker : SseCompletionTracker) :
    (blocks.foldl (feedBlock fromStr) tracker).utf8 = tracker.utf8 ∧
      (blocks.foldl (feedBlock fromStr) tracker).remainder =
        tracker.remainder := by
  induction blocks generalizing tracker with
  | nil => exact ⟨rfl, rfl⟩
  | cons block blocks ih =>
    have hblock := feedBlock_utf8 fromStr tracker block
    have hrest := ih (feedBlock fromStr tracker block)
    rw [foldl_cons]
    exact ⟨hrest.1.trans hblock.1, hrest.2.trans hblock.2⟩

theorem reading_foldl_feedBlock (blocks : List (List Char))
    (tracker : SseCompletionTracker) :
    reading (blocks.foldl (feedBlock fromStr) tracker) =
      reading (blocks.foldl (feedBlock fromStr) tracker.reading) := by
  induction blocks generalizing tracker with
  | nil => rfl
  | cons block blocks ih =>
    rw [foldl_cons, foldl_cons, ih, reading_feedBlock, ← ih]

/-- Between two chunks neither the bytes nor the text hold anything that
could be taken. -/
structure Settled (tracker : SseCompletionTracker) : Prop where
  bytes : utf8Cutter.cut () tracker.remainder = none
  text : blockCutter.cut () tracker.utf8 = none

/-- The text a tracker decodes from the bytes that follow, and the bytes left
over. -/
def decoded : List Char × List UInt8 :=
  let drained := utf8Cutter.drain () (tracker.remainder ++ bytes)
  (tracker.utf8 ++ drained.1, drained.2.2)

variable {tracker : SseCompletionTracker}

theorem appendUtf8Safe_eq_decoded (hsettled : tracker.Settled)
    (bytes : List UInt8) :
    appendUtf8Safe tracker.utf8 tracker.remainder bytes =
      tracker.decoded bytes :=
  appendUtf8Safe_eq_drain hsettled.bytes tracker.utf8 bytes

/-- One chunk: the text decoded so far is cut into blocks, and the blocks are
read in order. -/
theorem pushChunk_spec (hsettled : tracker.Settled) (bytes : List UInt8) :
    (pushChunk fromStr tracker bytes).1.utf8 =
        (takeSseBlocks (tracker.decoded bytes).1).2 ∧
      (pushChunk fromStr tracker bytes).1.remainder =
        (tracker.decoded bytes).2 ∧
      (pushChunk fromStr tracker bytes).1.reading =
        reading ((takeSseBlocks (tracker.decoded bytes).1).1.foldl
          (feedBlock fromStr) tracker.reading) := by
  simp only [pushChunk, feedBlocks, appendUtf8Safe_eq_decoded hsettled]
  refine ⟨(foldl_feedBlock_utf8 ..).1, (foldl_feedBlock_utf8 ..).2, ?_⟩
  rw [reading_foldl_feedBlock]
  rfl

theorem Settled.pushChunk (hsettled : tracker.Settled) (bytes : List UInt8) :
    (pushChunk fromStr tracker bytes).1.Settled := by
  obtain ⟨htext, hbytes, -⟩ := pushChunk_spec fromStr hsettled bytes
  constructor
  · rw [hbytes]
    exact utf8Cutter.cut_drain () (tracker.remainder ++ bytes)
  · rw [htext]
    exact blockCutter.cut_drain () (tracker.decoded bytes).1

/-- Decoding is the same whether the bytes come in one piece or in two. -/
theorem decoded_append (bytes more : List UInt8) :
    tracker.decoded (bytes ++ more) =
      ((tracker.decoded bytes).1 ++
          (utf8Cutter.drain () ((tracker.decoded bytes).2 ++ more)).1,
        (utf8Cutter.drain () ((tracker.decoded bytes).2 ++ more)).2.2) := by
  simp only [decoded]
  rw [← append_assoc, utf8Cutter.drain_append, append_assoc]

theorem takeSseBlocks_append (text more : List Char) :
    takeSseBlocks (text ++ more) =
      ((takeSseBlocks text).1 ++
          (takeSseBlocks ((takeSseBlocks text).2 ++ more)).1,
        (takeSseBlocks ((takeSseBlocks text).2 ++ more)).2) := by
  simp only [takeSseBlocks]
  rw [blockCutter.drain_append]

theorem pushChunks_spec (hsettled : tracker.Settled)
    (chunks : List (List UInt8)) :
    (pushChunks fromStr tracker chunks).utf8 =
        (takeSseBlocks (tracker.decoded chunks.flatten).1).2 ∧
      (pushChunks fromStr tracker chunks).remainder =
        (tracker.decoded chunks.flatten).2 ∧
      blocksFed fromStr tracker chunks =
        (takeSseBlocks (tracker.decoded chunks.flatten).1).1 ∧
      (pushChunks fromStr tracker chunks).reading =
        reading ((takeSseBlocks (tracker.decoded chunks.flatten).1).1.foldl
          (feedBlock fromStr) tracker.reading) := by
  induction chunks generalizing tracker with
  | nil =>
    have hbytes := utf8Cutter.drain_of_cut_none hsettled.bytes
    have htext := blockCutter.drain_of_cut_none hsettled.text
    simp [pushChunks, blocksFed, decoded, takeSseBlocks, hbytes, htext,
      reading]
  | cons bytes chunks ih =>
    obtain ⟨htext, hbytes, hread⟩ := pushChunk_spec fromStr hsettled bytes
    obtain ⟨ihText, ihBytes, ihBlocks, ihRead⟩ :=
      ih (hsettled.pushChunk fromStr bytes)
    have hdecoded : (pushChunk fromStr tracker bytes).1.decoded
        chunks.flatten =
        ((takeSseBlocks (tracker.decoded bytes).1).2 ++
            (utf8Cutter.drain ()
              ((tracker.decoded bytes).2 ++ chunks.flatten)).1,
          (utf8Cutter.drain ()
            ((tracker.decoded bytes).2 ++ chunks.flatten)).2.2) := by
      simp only [decoded, htext, hbytes]
    rw [hdecoded] at ihText ihBytes ihBlocks ihRead
    rw [flatten_cons, decoded_append, takeSseBlocks_append]
    refine ⟨ihText, ihBytes, ?_, ?_⟩
    · rw [blocksFed, ihBlocks, appendUtf8Safe_eq_decoded hsettled]
    · rw [foldl_append, reading_foldl_feedBlock, ← hread]
      exact ihRead

/-- A tracker that has read nothing yet. -/
theorem settled_new : ({} : SseCompletionTracker).Settled :=
  ⟨rfl, rfl⟩

/-- Bytes appended chunk by chunk to an empty text buffer. -/
def decodeChunks (chunks : List (List UInt8)) : List Char × List UInt8 :=
  chunks.foldl (fun text bytes => appendUtf8Safe text.1 text.2 bytes) ([], [])

theorem decodeChunks_eq_drain (chunks : List (List UInt8)) :
    decodeChunks chunks =
      ((utf8Cutter.drain () chunks.flatten).1,
        (utf8Cutter.drain () chunks.flatten).2.2) := by
  induction chunks using reverseRecOn with
  | nil =>
    rw [flatten_nil, utf8Cutter.drain_of_cut_none rfl]
    rfl
  | append_singleton chunks bytes ih =>
    have hsettled := utf8Cutter.cut_drain () chunks.flatten
    rw [decodeChunks, foldl_append, ← decodeChunks, ih,
      flatten_append, flatten_singleton, utf8Cutter.drain_append]
    exact appendUtf8Safe_eq_drain hsettled _ bytes

/-- For every division of a byte string into chunks, feeding the chunks one
by one leaves a new tracker with what the whole string in one chunk leaves:
items, response, errors, pending text and undecided bytes.  The text decoded
on the way is the lossy decoding of the bytes in front of an incomplete
character at the end, and the blocks fed are those of that text. -/
theorem push_chunks_eq_whole (chunks : List (List UInt8)) :
    (let run := pushChunks fromStr {} chunks
     let whole := (pushChunk fromStr {} chunks.flatten).1
     run.completedItems = whole.completedItems ∧
       run.completedResponse = whole.completedResponse ∧
       run.fullResponse = whole.fullResponse ∧
       run.terminalError = whole.terminalError ∧
       run.terminalErrorEvent = whole.terminalErrorEvent ∧
       run.utf8 = whole.utf8 ∧ run.remainder = whole.remainder) ∧
    (let text := decodeChunks chunks
     text = appendUtf8Safe [] [] chunks.flatten ∧
       (∃ front, chunks.flatten = front ++ text.2 ∧
         fromUtf8Lossy front = text.1) ∧
       utf8Head text.2 = .incomplete ∧
       (pushChunks fromStr {} chunks).remainder = text.2 ∧
       blocksFed fromStr {} chunks = (takeSseBlocks text.1).1 ∧
       blocksFed fromStr {} chunks = blocksFed fromStr {} [chunks.flatten] ∧
       (pushChunks fromStr {} chunks).utf8 = (takeSseBlocks text.1).2) := by
  have hrun := pushChunks_spec fromStr settled_new chunks
  have hwhole := pushChunks_spec fromStr settled_new [chunks.flatten]
  have hdecode := decodeChunks_eq_drain chunks
  have hinit : ({} : SseCompletionTracker).decoded chunks.flatten =
      decodeChunks chunks := by
    rw [hdecode]
    rfl
  rw [hinit] at hrun
  rw [flatten_singleton, hinit] at hwhole
  obtain ⟨hutf8, hremainder, hblocks, hread⟩ := hrun
  obtain ⟨hutf8', hremainder', hblocks', hread'⟩ := hwhole
  have hsame := hread.trans hread'.symm
  simp only [reading, SseCompletionTracker.mk.injEq, true_and, and_true]
    at hsame
  obtain ⟨hitems, hresponse, herror, hevent⟩ := hsame
  constructor
  · refine ⟨hitems, hresponse, ?_, herror, hevent, ?_, ?_⟩
    · simp only [fullResponse, hitems, hresponse]
      rfl
    · exact hutf8.trans hutf8'.symm
    · exact hremainder.trans hremainder'.symm
  · refine ⟨?_, ?_, ?_, hremainder, hblocks, ?_, hutf8⟩
    · rw [← hinit, ← appendUtf8Safe_eq_decoded settled_new]
    · rw [hdecode]
      exact drain_eq_lossy_front chunks.flatten
    · rw [hdecode]
      exact utf8Cutter_incomplete.mp (utf8Cutter.cut_drain () _)
    · exact hblocks.trans hblocks'.symm

end Parsing

end SseCompletionTracker

end Vellum.Proxy

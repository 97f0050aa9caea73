/-
The event stream of the Chat adapter is well formed after every sequence of
calls: consecutive sequence numbers, one terminal event at the end, fresh
output indexes each closed once, and final texts that are the concatenation
of the deltas that were streamed.
-/
import Vellum.Proxy.ChatStream

namespace Vellum.Proxy

open List Option

namespace StreamEvent

/-- The output index an event opens. -/
@[simp]
def addedIndex : StreamEvent → Option Nat
  | outputItemAdded index _ => some index
  | _ => none

/-- The output index an event closes. -/
@[simp]
def doneIndex : StreamEvent → Option Nat
  | outputItemDone index _ => some index
  | _ => none

/-- A piece of the reasoning summary at an output index. -/
@[simp]
def reasoningPiece (index : Nat) : StreamEvent → Option String
  | reasoningTextDelta at_ delta => if at_ = index then some delta else none
  | _ => none

/-- A piece of the message text at an output index. -/
@[simp]
def textPiece (index : Nat) : StreamEvent → Option String
  | outputTextDelta at_ delta => if at_ = index then some delta else none
  | _ => none

/-- A final reasoning text and where it belongs. -/
@[simp]
def reasoningResult : StreamEvent → Option (Nat × String)
  | reasoningTextDone index text | reasoningPartDone index text =>
    some (index, text)
  | _ => none

/-- A final message text and where it belongs. -/
@[simp]
def textResult : StreamEvent → Option (Nat × String)
  | outputTextDone index text | contentPartDone index text =>
    some (index, text)
  | _ => none

/-- An event that closes something. -/
def isClosing (event : StreamEvent) : Bool :=
  event.isTerminal || event.doneIndex.isSome || event.reasoningResult.isSome ||
    event.textResult.isSome

end StreamEvent

open StreamEvent

/-- What a client may rely on in the events of one stream. -/
structure WellFormed (events : List StreamEvent) : Prop where
  /-- Nothing follows a terminal event. -/
  terminal_last : ∀ before event after, events = before ++ event :: after →
    event.isTerminal = true → after = []
  /-- Output indexes are fresh. -/
  fresh : (events.filterMap addedIndex).Nodup
  /-- Once the stream has ended, every item that was added has been closed
  once behind that. -/
  closed : (∃ event ∈ events, event.isTerminal = true) →
    ∀ before event after index, events = before ++ event :: after →
      event.addedIndex = some index →
      (after.filterMap doneIndex).count index = 1
  reasoning : ∀ event ∈ events, ∀ index text,
    event.reasoningResult = some (index, text) →
      text = String.join (events.filterMap (reasoningPiece index))
  text : ∀ event ∈ events, ∀ index text,
    event.textResult = some (index, text) →
      text = String.join (events.filterMap (textPiece index))

namespace ChatSseAdapter

/-- What holds of the events so far and the adapter holds behind an emission. -/
abbrev Emission.Keeps (emission : Emission)
    (holds : List StreamEvent → ChatSseAdapter → Prop)
    (events : List StreamEvent) : Prop :=
  holds (events ++ emission.2) emission.1

section

variable {events : List StreamEvent}
  {holds : List StreamEvent → ChatSseAdapter → Prop}

theorem Emission.Keeps.andThen {first : Emission}
    {second : ChatSseAdapter → Emission} (hfirst : first.Keeps holds events)
    (hsecond : ∀ events, holds events first.1 →
      (second first.1).Keeps holds events) :
    (first.andThen second).Keeps holds events := by
  have hboth := hsecond _ hfirst
  rw [Emission.Keeps, append_assoc] at hboth
  exact hboth

theorem keeps_nil {adapter : ChatSseAdapter} (hholds : holds events adapter) :
    Emission.Keeps (adapter, []) holds events := by
  rw [Emission.Keeps, append_nil]
  exact hholds

theorem keeps_pushIfPresent {push : ChatSseAdapter → String → Emission}
    (hpush : ∀ events adapter text, holds events adapter →
      (push adapter text).Keeps holds events)
    {adapter : ChatSseAdapter} (hholds : holds events adapter)
    (piece : Option String) :
    (pushIfPresent push piece adapter).Keeps holds events := by
  cases piece with
  | none => exact keeps_nil hholds
  | some text => exact hpush events adapter text hholds

end

/-- A text streamed in pieces at an output index that is open or not. -/
structure Streamed (index : Option Nat) (text : String)
    (pieces : Nat → List String) : Prop where
  joined : ∀ i, String.join (pieces i) = if index = some i then text else ""
  unopened : index = none → text = ""

theorem Streamed.opened {text : String} {pieces : Nat → List String}
    (hstreamed : Streamed none text pieces) (i : Nat) :
    Streamed (some i) text pieces := by
  constructor
  · intro j
    rw [hstreamed.joined j, hstreamed.unopened rfl]
    simp
  · intro hnone
    cases hnone

theorem Streamed.extend {i : Nat} {text : String}
    {pieces : Nat → List String} (hstreamed : Streamed (some i) text pieces)
    (delta : String) :
    Streamed (some i) (text ++ delta)
      fun j => pieces j ++ if i = j then [delta] else [] := by
  constructor
  · intro j
    rw [String.join_append, hstreamed.joined j]
    by_cases heq : i = j
    · simp [heq]
    · simp [heq]
  · intro hnone
    cases hnone

/-- The output indexes of the open items. -/
def openIndexes (adapter : ChatSseAdapter) : List Nat :=
  adapter.reasoningIndex.toList ++ adapter.messageIndex.toList ++
    adapter.toolCalls.map fun entry => entry.2.outputIndex

/-- The adapter and the events it has emitted, while the stream is open. -/
structure Tracked (events : List StreamEvent) (adapter : ChatSseAdapter) :
    Prop where
  unclosed : ∀ event ∈ events, event.isClosing = false
  added : events.filterMap addedIndex = List.range adapter.nextOutputIndex
  indexes : adapter.openIndexes.Perm (List.range adapter.nextOutputIndex)
  sorted : OrderedMap.Sorted adapter.toolCalls
  callsAdded : ∀ entry ∈ adapter.toolCalls, entry.2.added = true
  reasoningFlag : adapter.reasoningAdded = adapter.reasoningIndex.isSome
  messageFlag : adapter.messageAdded = adapter.messageIndex.isSome
  reasoning : Streamed adapter.reasoningIndex adapter.reasoning
    fun i => events.filterMap (reasoningPiece i)
  text : Streamed adapter.messageIndex adapter.text
    fun i => events.filterMap (textPiece i)

variable {events : List StreamEvent} {adapter : ChatSseAdapter}

theorem tracked_new (model : String) (toolContext : CodexToolContext)
    (namespaceContext : NamespaceToolContext) (millis : Nat) :
    Tracked [] (newWithContext model toolContext namespaceContext millis) := by
  constructor
  all_goals simp [newWithContext, openIndexes, OrderedMap.Sorted]
  all_goals constructor <;> simp

/-- Events that neither close nor stream anything. -/
structure Plain (more : List StreamEvent) : Prop where
  unclosed : more.any isClosing = false
  reasoning : ∀ i, more.filterMap (reasoningPiece i) = []
  text : ∀ i, more.filterMap (textPiece i) = []

section

variable (htracked : Tracked events adapter)
include htracked

variable {more : List StreamEvent}

theorem Tracked.unclosed_append (hmore : more.any isClosing = false) :
    ∀ event ∈ events ++ more, event.isClosing = false := by
  intro event hevent
  rcases mem_append.mp hevent with hold | hnew
  · exact htracked.unclosed event hold
  · rw [List.any_eq_false] at hmore
    simpa using hmore event hnew

/-- Plain events that open nothing leave the tracking alone. -/
theorem Tracked.silent (hplain : Plain more)
    (hadded : more.filterMap addedIndex = []) :
    Tracked (events ++ more) adapter := by
  constructor
  · exact htracked.unclosed_append hplain.unclosed
  · rw [filterMap_append, hadded, append_nil]
    exact htracked.added
  · exact htracked.indexes
  · exact htracked.sorted
  · exact htracked.callsAdded
  · exact htracked.reasoningFlag
  · exact htracked.messageFlag
  · simpa only [filterMap_append, hplain.reasoning, append_nil]
      using htracked.reasoning
  · simpa only [filterMap_append, hplain.text, append_nil]
      using htracked.text

/-- An item opened at the next output index. -/
theorem Tracked.opening {next : ChatSseAdapter} (hplain : Plain more)
    (hadded : more.filterMap addedIndex = [adapter.nextOutputIndex])
    (hnext : next.nextOutputIndex = adapter.nextOutputIndex + 1)
    (hopen : next.openIndexes.Perm
      (adapter.nextOutputIndex :: adapter.openIndexes))
    (hsorted : OrderedMap.Sorted next.toolCalls)
    (hcalls : ∀ entry ∈ next.toolCalls, entry.2.added = true)
    (hreasoning : next.reasoningAdded = next.reasoningIndex.isSome ∧
      Streamed next.reasoningIndex next.reasoning
        fun i => events.filterMap (reasoningPiece i))
    (htext : next.messageAdded = next.messageIndex.isSome ∧
      Streamed next.messageIndex next.text
        fun i => events.filterMap (textPiece i)) :
    Tracked (events ++ more) next := by
  constructor
  · exact htracked.unclosed_append hplain.unclosed
  · rw [filterMap_append, hadded, hnext, htracked.added, range_succ]
  · rw [hnext, range_succ]
    exact hopen.trans ((htracked.indexes.cons _).trans
      (perm_append_singleton _ _).symm)
  · exact hsorted
  · exact hcalls
  · exact hreasoning.1
  · exact htext.1
  · simpa only [filterMap_append, hplain.reasoning, append_nil]
      using hreasoning.2
  · simpa only [filterMap_append, hplain.text, append_nil]
      using htext.2

/-- Fields that say nothing about items. -/
theorem Tracked.settings (started finished terminalSeen : Bool)
    (usage : Option Json) (contentFilter : ModelContentFilter)
    (sequence : Nat) :
    Tracked events { adapter with
      started, finished, terminalSeen, usage, contentFilter, sequence } :=
  ⟨htracked.unclosed, htracked.added, htracked.indexes, htracked.sorted,
    htracked.callsAdded, htracked.reasoningFlag, htracked.messageFlag,
    htracked.reasoning, htracked.text⟩

end

theorem index_none_of_flag {flag : Bool} {index : Option Nat}
    (hflag : flag = index.isSome) (hadded : ¬ flag = true) :
    index = none := by
  rw [hflag] at hadded
  simpa using hadded

/-- Pieces after one more event. -/
theorem filterMap_snoc {W : Type} (view : StreamEvent → Option W)
    (events : List StreamEvent) (event : StreamEvent) :
    (events ++ [event]).filterMap view =
      events.filterMap view ++ (view event).toList := by
  rw [filterMap_append]
  cases hview : view event <;> simp [hview]

/-- Opening the reasoning item and adding to its text do not interfere. -/
theorem pushReasoning_eq (adapter : ChatSseAdapter) (reasoning : String) :
    pushReasoning adapter reasoning =
      (openReasoning adapter).andThen fun adapter =>
        ({ adapter with reasoning := adapter.reasoning ++ reasoning },
          [.reasoningTextDelta (adapter.reasoningIndex.getD 0) reasoning]) := by
  simp only [pushReasoning, openReasoning, Emission.andThen]
  split <;> rfl

theorem showText_eq (adapter : ChatSseAdapter) {content : String}
    (hcontent : content ≠ "") :
    showText adapter content =
      (openMessage adapter).andThen fun adapter =>
        ({ adapter with text := adapter.text ++ content },
          [.outputTextDelta (adapter.messageIndex.getD 0) content]) := by
  simp only [showText, hcontent, ↓reduceIte, openMessage, Emission.andThen]
  split <;> rfl

section

variable (htracked : Tracked events adapter)
include htracked

theorem tracked_ensureStarted (clock : Clock) :
    (ensureStarted clock adapter).Keeps Tracked events := by
  rw [ensureStarted]
  split
  · exact keeps_nil htracked
  · have hquiet : Tracked (events ++
        [.created (adapter.startedResponse clock.created),
          .inProgress (adapter.startedResponse clock.inProgress)]) adapter :=
      htracked.silent ⟨rfl, fun _ => rfl, fun _ => rfl⟩ rfl
    exact hquiet.settings true _ _ _ _ _

theorem tracked_openReasoning :
    (openReasoning adapter).Keeps Tracked events := by
  rw [openReasoning]
  split
  · exact keeps_nil htracked
  · rename_i hadded
    have hnone := index_none_of_flag htracked.reasoningFlag hadded
    have hstreamed := htracked.reasoning
    rw [hnone] at hstreamed
    refine htracked.opening ⟨rfl, fun _ => rfl, fun _ => rfl⟩ rfl rfl ?_
      htracked.sorted htracked.callsAdded ⟨rfl, hstreamed.opened _⟩
      ⟨htracked.messageFlag, htracked.text⟩
    simp only [openIndexes, hnone, toList_none, toList_some]
    exact List.Perm.refl _

theorem tracked_openMessage :
    (openMessage adapter).Keeps Tracked events := by
  rw [openMessage]
  split
  · exact keeps_nil htracked
  · rename_i hadded
    have hnone := index_none_of_flag htracked.messageFlag hadded
    have hstreamed := htracked.text
    rw [hnone] at hstreamed
    refine htracked.opening ⟨rfl, fun _ => rfl, fun _ => rfl⟩ rfl rfl ?_
      htracked.sorted htracked.callsAdded
      ⟨htracked.reasoningFlag, htracked.reasoning⟩ ⟨rfl, hstreamed.opened _⟩
    simp only [openIndexes, hnone, toList_none, toList_some,
      append_nil, append_assoc]
    exact perm_middle

theorem openReasoning_index :
    (openReasoning adapter).1.reasoningIndex.isSome = true := by
  rw [openReasoning]
  split
  · rename_i hadded
    exact htracked.reasoningFlag ▸ hadded
  · rfl

theorem openMessage_index :
    (openMessage adapter).1.messageIndex.isSome = true := by
  rw [openMessage]
  split
  · rename_i hadded
    exact htracked.messageFlag ▸ hadded
  · rfl

theorem tracked_reasoningDelta
    (hindex : adapter.reasoningIndex.isSome = true) (reasoning : String) :
    Tracked (events ++
        [.reasoningTextDelta (adapter.reasoningIndex.getD 0) reasoning])
      { adapter with reasoning := adapter.reasoning ++ reasoning } := by
  obtain ⟨i, hi⟩ := isSome_iff_exists.mp hindex
  have hstreamed := htracked.reasoning
  rw [hi] at hstreamed
  have hextended := hstreamed.extend reasoning
  constructor
  · exact htracked.unclosed_append rfl
  · rw [filterMap_snoc]
    simpa [addedIndex] using htracked.added
  · exact htracked.indexes
  · exact htracked.sorted
  · exact htracked.callsAdded
  · exact htracked.reasoningFlag
  · exact htracked.messageFlag
  · simp only [filterMap_snoc, hi, getD_some, reasoningPiece]
    convert hextended using 3
    split <;> rfl
  · simpa only [filterMap_snoc, textPiece, toList_none,
      append_nil] using htracked.text

theorem tracked_textDelta (hindex : adapter.messageIndex.isSome = true)
    (content : String) :
    Tracked (events ++
        [.outputTextDelta (adapter.messageIndex.getD 0) content])
      { adapter with text := adapter.text ++ content } := by
  obtain ⟨i, hi⟩ := isSome_iff_exists.mp hindex
  have hstreamed := htracked.text
  rw [hi] at hstreamed
  have hextended := hstreamed.extend content
  constructor
  · exact htracked.unclosed_append rfl
  · rw [filterMap_snoc]
    simpa [addedIndex] using htracked.added
  · exact htracked.indexes
  · exact htracked.sorted
  · exact htracked.callsAdded
  · exact htracked.reasoningFlag
  · exact htracked.messageFlag
  · simpa only [filterMap_snoc, reasoningPiece, toList_none,
      append_nil] using htracked.reasoning
  · simp only [filterMap_snoc, hi, getD_some, textPiece]
    convert hextended using 3
    split <;> rfl

theorem tracked_pushReasoning (reasoning : String) :
    (pushReasoning adapter reasoning).Keeps Tracked events := by
  rw [pushReasoning_eq]
  apply (tracked_openReasoning htracked).andThen
  intro events hopened
  exact tracked_reasoningDelta hopened (openReasoning_index htracked) reasoning

theorem tracked_showText (content : String) :
    (showText adapter content).Keeps Tracked events := by
  by_cases hcontent : content = ""
  · rw [showText, if_pos hcontent]
    exact keeps_nil htracked
  · rw [showText_eq adapter hcontent]
    apply (tracked_openMessage htracked).andThen
    intro events hopened
    exact tracked_textDelta hopened (openMessage_index htracked) content

theorem tracked_pushContent (content : String) :
    (pushContent adapter content).Keeps Tracked events :=
  tracked_showText (htracked.settings _ _ _ _ _ _) _

end

/-- The argument delta of a fragment, if there is one. -/
def callDelta (context : CodexToolContext) (fragment : CallFragment)
    (entry : StreamToolCall) : List StreamEvent :=
  if fragment.arguments = "" || translatedNative context entry.name then []
  else [.argumentsDelta (callIdOr entry.id fragment.index) entry.outputIndex
    fragment.arguments]

theorem plain_callDelta (context : CodexToolContext)
    (fragment : CallFragment) (entry : StreamToolCall) :
    Plain (callDelta context fragment entry) ∧
      (callDelta context fragment entry).filterMap addedIndex = [] := by
  rw [callDelta]
  split
  · exact ⟨⟨rfl, fun _ => rfl, fun _ => rfl⟩, rfl⟩
  · exact ⟨⟨rfl, fun _ => rfl, fun _ => rfl⟩, rfl⟩

theorem pushCall_first (crates : Crates) {fragment : CallFragment}
    (hnone : OrderedMap.lookup fragment.index adapter.toolCalls = none) :
    let entry := StreamToolCall.extend
      { outputIndex := adapter.nextOutputIndex } fragment
    pushCall crates adapter fragment =
      ({ adapter with
          toolCalls := OrderedMap.upsert fragment.index (fun _ => entry)
            adapter.toolCalls
          nextOutputIndex := adapter.nextOutputIndex + 1 },
        .outputItemAdded adapter.nextOutputIndex
          (addedCallItem crates adapter.toolContext
            (callIdOr entry.id fragment.index) entry.name) ::
          callDelta adapter.toolContext fragment entry) := by
  simp only [pushCall, callEntry, hnone, getD_none, callDelta]
  rfl

theorem pushCall_later (crates : Crates) {fragment : CallFragment}
    {old : StreamToolCall}
    (hsome : OrderedMap.lookup fragment.index adapter.toolCalls = some old)
    (hadded : old.added = true) :
    pushCall crates adapter fragment =
      ({ adapter with
          toolCalls := OrderedMap.upsert fragment.index
            (fun _ => old.extend fragment) adapter.toolCalls },
        callDelta adapter.toolContext fragment (old.extend fragment)) := by
  simp only [pushCall, callEntry, hsome, getD_some, callDelta, hadded]
  rfl

theorem callsAdded_upsert {entries : List (Nat × StreamToolCall)}
    (hadded : ∀ entry ∈ entries, entry.2.added = true)
    (index : Nat) (call : StreamToolCall) (fragment : CallFragment) :
    ∀ entry ∈ OrderedMap.upsert index (fun _ => call.extend fragment) entries,
      entry.2.added = true := by
  induction entries with
  | nil =>
    intro entry hentry
    rw [OrderedMap.upsert, mem_singleton] at hentry
    rw [hentry]
    rfl
  | cons head rest ih =>
    have hhead := hadded head mem_cons_self
    have hrest := fun entry hentry =>
      hadded entry (mem_cons_of_mem head hentry)
    rw [OrderedMap.upsert]
    split
    · exact forall_mem_cons.mpr ⟨rfl, hrest⟩
    · split
      · exact forall_mem_cons.mpr ⟨rfl, hadded⟩
      · exact forall_mem_cons.mpr ⟨hhead, ih hrest⟩

section

variable (crates : Crates) (clock : Clock)
variable (htracked : Tracked events adapter)
include htracked

theorem tracked_pushCall (fragment : CallFragment) :
    (pushCall crates adapter fragment).Keeps Tracked events := by
  have hcalls := fun call => callsAdded_upsert htracked.callsAdded
    fragment.index call fragment
  have hsorted := htracked.sorted
  cases hlookup : OrderedMap.lookup fragment.index adapter.toolCalls with
  | none =>
    rw [pushCall_first crates hlookup]
    obtain ⟨hplain, hindexes⟩ := plain_callDelta adapter.toolContext
      fragment (StreamToolCall.extend
        { outputIndex := adapter.nextOutputIndex } fragment)
    refine htracked.opening
      ⟨hplain.unclosed, hplain.reasoning, hplain.text⟩ ?_ rfl ?_
      (hsorted.upsert _ _) (hcalls _)
      ⟨htracked.reasoningFlag, htracked.reasoning⟩
      ⟨htracked.messageFlag, htracked.text⟩
    · exact congrArg (adapter.nextOutputIndex :: ·) hindexes
    · simp only [openIndexes]
      exact ((OrderedMap.upsert_perm hlookup).map _).append_left _
        |>.trans perm_middle
  | some old =>
    have hadded := htracked.callsAdded _ (OrderedMap.mem_of_lookup hlookup)
    rw [pushCall_later crates hlookup hadded]
    obtain ⟨hplain, hindexes⟩ := plain_callDelta adapter.toolContext
      fragment (old.extend fragment)
    have hquiet := htracked.silent hplain hindexes
    have hsame : (OrderedMap.upsert fragment.index
        (fun _ => old.extend fragment) adapter.toolCalls).map
        (fun entry => entry.2.outputIndex) =
        adapter.toolCalls.map fun entry => entry.2.outputIndex :=
      OrderedMap.map_upsert hsorted hlookup rfl
    constructor
    · exact hquiet.unclosed
    · exact hquiet.added
    · simpa only [openIndexes, hsame] using htracked.indexes
    · exact hsorted.upsert _ _
    · exact hcalls old
    · exact hquiet.reasoningFlag
    · exact hquiet.messageFlag
    · exact hquiet.reasoning
    · exact hquiet.text

theorem tracked_pushCalls (fragments : List CallFragment) :
    (pushCalls crates adapter fragments).Keeps Tracked events := by
  induction fragments generalizing events adapter with
  | nil => exact keeps_nil htracked
  | cons fragment fragments ih =>
    apply (tracked_pushCall crates htracked fragment).andThen
    intro events hfirst
    exact ih hfirst

theorem tracked_countUsage (usage : Option Json) :
    Tracked events (adapter.countUsage usage) := by
  cases usage with
  | none => exact htracked
  | some usage => exact htracked.settings _ _ _ _ _ _

theorem tracked_beforeCalls (delta : ChatDelta) :
    (beforeCalls clock adapter delta).Keeps Tracked events := by
  refine Emission.Keeps.andThen (Emission.Keeps.andThen
    (tracked_ensureStarted (tracked_countUsage htracked delta.usage) clock)
    ?_) ?_
  · intro events hstarted
    apply keeps_pushIfPresent _ hstarted
    exact fun _ _ text h => tracked_pushReasoning h text
  · intro events hreasoned
    apply keeps_pushIfPresent _ hreasoned
    exact fun _ _ text h => tracked_pushContent h text

theorem tracked_pushDelta (delta : ChatDelta) :
    (pushDelta crates clock adapter delta).Keeps Tracked events := by
  have hparts : (pushParts crates clock adapter delta).Keeps Tracked events := by
    apply (tracked_beforeCalls clock htracked delta).andThen
    intro events hbefore
    exact tracked_pushCalls crates hbefore delta.calls
  exact hparts.settings _ _ _ _ _ _

theorem tracked_beforeClose :
    (beforeClose clock adapter).Keeps Tracked events := by
  refine Emission.Keeps.andThen (tracked_ensureStarted htracked clock) ?_
  intro events hstarted
  exact tracked_showText (hstarted.settings _ _ _ _ _ _) _

end

variable {log : List NumberedEvent} {event : StreamEvent}

theorem Tracked.unclosed_views (htracked : Tracked events adapter)
    (hevent : event ∈ events) :
    event.isTerminal = false ∧ event.doneIndex = none ∧
      event.reasoningResult = none ∧ event.textResult = none := by
  have hplain := htracked.unclosed event hevent
  simp only [isClosing, Bool.or_eq_false_iff, isSome_eq_false_iff,
    isNone_iff_eq_none] at hplain
  exact ⟨hplain.1.1.1, hplain.1.1.2, hplain.1.2, hplain.2⟩

/-- The events of a stream that is still open. -/
theorem Tracked.wellFormed (htracked : Tracked events adapter) :
    WellFormed events := by
  constructor
  · intro before event after hevents hterminal
    have hmem : event ∈ events := by simp [hevents]
    rw [(htracked.unclosed_views hmem).1] at hterminal
    cases hterminal
  · rw [htracked.added]
    exact nodup_range
  · rintro ⟨event, hevent, hterminal⟩
    rw [(htracked.unclosed_views hevent).1] at hterminal
    cases hterminal
  · intro event hevent index text hresult
    rw [(htracked.unclosed_views hevent).2.2.1] at hresult
    cases hresult
  · intro event hevent index text hresult
    rw [(htracked.unclosed_views hevent).2.2.2] at hresult
    cases hresult

/-- Events that close items: nothing is opened or streamed any more, and the
final texts are the adapter's. -/
structure Closing (adapter : ChatSseAdapter) (more : List StreamEvent) :
    Prop where
  open_ : ∀ event ∈ more, event.isTerminal = false
  added : ∀ event ∈ more, event.addedIndex = none
  reasoningPieces : ∀ i, more.filterMap (reasoningPiece i) = []
  textPieces : ∀ i, more.filterMap (textPiece i) = []
  reasoning : ∀ event ∈ more, ∀ index text,
    event.reasoningResult = some (index, text) →
      adapter.reasoningIndex = some index ∧ text = adapter.reasoning
  text : ∀ event ∈ more, ∀ index text,
    event.textResult = some (index, text) →
      adapter.messageIndex = some index ∧ text = adapter.text

theorem Closing.nil : Closing adapter [] := by
  constructor <;> simp

theorem Closing.append {first second : List StreamEvent}
    (hfirst : Closing adapter first) (hsecond : Closing adapter second) :
    Closing adapter (first ++ second) := by
  constructor
  · exact forall_mem_append.mpr ⟨hfirst.open_, hsecond.open_⟩
  · exact forall_mem_append.mpr ⟨hfirst.added, hsecond.added⟩
  · intro i
    rw [filterMap_append, hfirst.reasoningPieces,
      hsecond.reasoningPieces, append_nil]
  · intro i
    rw [filterMap_append, hfirst.textPieces, hsecond.textPieces,
      append_nil]
  · exact forall_mem_append.mpr ⟨hfirst.reasoning, hsecond.reasoning⟩
  · exact forall_mem_append.mpr ⟨hfirst.text, hsecond.text⟩

theorem closing_reasoningDone : Closing adapter adapter.reasoningDone := by
  rw [reasoningDone]
  cases hindex : adapter.reasoningIndex with
  | none => exact Closing.nil
  | some index =>
    constructor
    all_goals simp [isTerminal, hindex]

theorem closing_messageDone : Closing adapter adapter.messageDone := by
  rw [messageDone]
  cases hindex : adapter.messageIndex with
  | none => exact Closing.nil
  | some index =>
    constructor
    all_goals simp [isTerminal, hindex]

theorem closing_callDone (crates : Crates) (call : StreamToolCall) :
    Closing adapter (callDone crates adapter call) := by
  rw [callDone]
  split
  · apply Closing.append
    · split
      · exact Closing.nil
      · constructor
        all_goals simp [isTerminal]
    · constructor
      all_goals simp [isTerminal]
  · split
    · constructor
      all_goals simp [isTerminal]
    · constructor
      all_goals simp [isTerminal]

theorem callDone_doneIndex (crates : Crates) (call : StreamToolCall) :
    (callDone crates adapter call).filterMap doneIndex =
      [call.outputIndex] := by
  simp only [callDone]
  split
  · split <;> rfl
  · split <;> rfl

theorem closeItems_spec (crates : Crates) (now : Nat) :
    ∃ body, closeItems crates now adapter =
        body ++ [terminalEvent crates now adapter] ∧
      Closing adapter body ∧ body.filterMap doneIndex = adapter.openIndexes := by
  refine ⟨_, rfl, ?_, ?_⟩
  · refine Closing.append (Closing.append closing_reasoningDone
      closing_messageDone) ?_
    generalize adapter.toolCalls = calls
    induction calls with
    | nil => exact Closing.nil
    | cons entry rest ih => exact (closing_callDone crates entry.2).append ih
  · rw [filterMap_append, filterMap_append, openIndexes]
    congr 1
    · rw [reasoningDone, messageDone]
      cases adapter.reasoningIndex <;> cases adapter.messageIndex <;> rfl
    · generalize adapter.toolCalls = calls
      induction calls with
      | nil => rfl
      | cons entry rest ih =>
        rw [flatMap_cons, filterMap_append, ih,
          callDone_doneIndex]
        rfl

theorem terminalEvent_isTerminal (crates : Crates) (now : Nat)
    (adapter : ChatSseAdapter) :
    (terminalEvent crates now adapter).isTerminal = true := by
  rw [terminalEvent]
  split <;> rfl

/-- A terminal event opens, closes and streams nothing. -/
theorem views_of_isTerminal (hterminal : event.isTerminal = true) :
    event.addedIndex = none ∧ event.reasoningResult = none ∧
      event.textResult = none ∧ (∀ i, event.reasoningPiece i = none) ∧
      ∀ i, event.textPiece i = none := by
  cases event <;> simp_all [isTerminal]

theorem Tracked.closed_once (htracked : Tracked events adapter)
    {closing : List StreamEvent}
    (hadded : ∀ event ∈ closing, event.addedIndex = none)
    (hdone : closing.filterMap doneIndex = adapter.openIndexes)
    {before after : List StreamEvent} {index : Nat}
    (hevents : events ++ closing = before ++ event :: after)
    (hevent : event.addedIndex = some index) :
    (after.filterMap doneIndex).count index = 1 := by
  rcases append_eq_append_iff.mp hevents with
    ⟨middle, -, hclosing⟩ | ⟨middle, hold, hmiddle⟩
  · have hmem : event ∈ closing := by simp [hclosing]
    rw [hadded event hmem] at hevent
    cases hevent
  · cases middle with
    | nil =>
      rw [nil_append] at hmiddle
      have hmem : event ∈ closing := hmiddle ▸ mem_cons_self
      rw [hadded event hmem] at hevent
      cases hevent
    | cons head rest =>
      rw [cons_append] at hmiddle
      obtain ⟨rfl, rfl⟩ := List.cons.inj hmiddle
      have hmem : event ∈ events := by simp [hold]
      have hrest : rest.filterMap doneIndex = [] := by
        apply filterMap_eq_nil_iff.mpr
        intro other hother
        exact (htracked.unclosed_views (by simp [hold, hother])).2.1
      have hindex : index ∈ events.filterMap addedIndex :=
        mem_filterMap.mpr ⟨event, hmem, hevent⟩
      rw [htracked.added] at hindex
      rw [filterMap_append, hrest, nil_append, hdone,
        htracked.indexes.count_eq]
      exact count_eq_one_of_mem nodup_range hindex

theorem Tracked.wellFormed_closed (htracked : Tracked events adapter)
    {body : List StreamEvent} {terminal : StreamEvent}
    (hclosing : Closing adapter body)
    (hdone : body.filterMap doneIndex = adapter.openIndexes)
    (hterminal : terminal.isTerminal = true) :
    WellFormed (events ++ body ++ [terminal]) := by
  obtain ⟨hadded, hreasoning, htext, hreasoningPiece, htextPiece⟩ :=
    views_of_isTerminal hterminal
  have hbodyAdded : body.filterMap addedIndex = [] :=
    filterMap_eq_nil_iff.mpr hclosing.added
  have hindexes : (events ++ body ++ [terminal]).filterMap addedIndex =
      List.range adapter.nextOutputIndex := by
    rw [filterMap_snoc, hadded, filterMap_append, hbodyAdded,
      htracked.added]
    simp
  have hreasoningPieces (i : Nat) :
      (events ++ body ++ [terminal]).filterMap (reasoningPiece i) =
        events.filterMap (reasoningPiece i) := by
    rw [filterMap_snoc, hreasoningPiece, filterMap_append,
      hclosing.reasoningPieces]
    simp
  have htextPieces (i : Nat) :
      (events ++ body ++ [terminal]).filterMap (textPiece i) =
        events.filterMap (textPiece i) := by
    rw [filterMap_snoc, htextPiece, filterMap_append,
      hclosing.textPieces]
    simp
  constructor
  · intro before event after hevents hevent
    rcases eq_nil_or_concat after with hnil | ⟨front, last, rfl⟩
    · exact hnil
    · -- an event before the last one is not terminal
      have hfront : events ++ body = before ++ event :: front := by
        rw [concat_eq_append, ← cons_append,
          ← append_assoc] at hevents
        exact (append_inj' hevents rfl).1
      have hmem : event ∈ events ++ body := by simp [hfront]
      rcases mem_append.mp hmem with hold | hnew
      · rw [(htracked.unclosed_views hold).1] at hevent
        cases hevent
      · rw [hclosing.open_ event hnew] at hevent
        cases hevent
  · rw [hindexes]
    exact nodup_range
  · rintro - before event after index hevents hevent
    rw [append_assoc] at hevents
    refine htracked.closed_once ?_ ?_ hevents hevent
    · intro closing hclosing'
      rcases mem_append.mp hclosing' with hbody | hlast
      · exact hclosing.added closing hbody
      · rw [mem_singleton.mp hlast, hadded]
    · rw [filterMap_snoc, hdone]
      cases terminal <;> simp_all [isTerminal]
  · intro event hevent index text hresult
    rw [hreasoningPieces, (htracked.reasoning).joined index]
    rcases mem_append.mp hevent with hevent | hlast
    · rcases mem_append.mp hevent with hold | hnew
      · rw [(htracked.unclosed_views hold).2.2.1] at hresult
        cases hresult
      · obtain ⟨hindex, rfl⟩ := hclosing.reasoning event hnew index text hresult
        rw [if_pos hindex]
    · rw [mem_singleton.mp hlast, hreasoning] at hresult
      cases hresult
  · intro event hevent index text hresult
    rw [htextPieces, (htracked.text).joined index]
    rcases mem_append.mp hevent with hevent | hlast
    · rcases mem_append.mp hevent with hold | hnew
      · rw [(htracked.unclosed_views hold).2.2.2] at hresult
        cases hresult
      · obtain ⟨hindex, rfl⟩ := hclosing.text event hnew index text hresult
        rw [if_pos hindex]
    · rw [mem_singleton.mp hlast, htext] at hresult
      cases hresult

theorem Tracked.wellFormed_closeItems (htracked : Tracked events adapter)
    (crates : Crates) (now : Nat) :
    WellFormed (events ++ closeItems crates now adapter) := by
  obtain ⟨body, hbody, hclosing, hdone⟩ := closeItems_spec crates now
  have hclosed := htracked.wellFormed_closed hclosing hdone
    (terminalEvent_isTerminal crates now adapter)
  rw [append_assoc, ← hbody] at hclosed
  exact hclosed

theorem wellFormed_finish (crates : Crates) (clock : Clock)
    (htracked : Tracked events adapter) :
    WellFormed (events ++ (finish crates clock adapter).2) := by
  have hbefore := tracked_beforeClose clock htracked
  have hclosed := hbefore.wellFormed_closeItems crates clock.completed
  rw [append_assoc] at hclosed
  exact hclosed

theorem number_spec (sequence : Nat) (events : List StreamEvent) :
    (number sequence events).map NumberedEvent.event = events ∧
      (number sequence events).map NumberedEvent.sequence =
        List.range' sequence events.length := by
  induction events generalizing sequence with
  | nil => exact ⟨rfl, rfl⟩
  | cons event rest ih =>
    obtain ⟨hevents, hsequence⟩ := ih (sequence + 1)
    constructor
    · rw [number, map_cons, hevents]
    · rw [number, map_cons, hsequence, length_cons,
        List.range'_succ]

/-- The adapter together with everything it has emitted. -/
structure Sound (log : List NumberedEvent) (adapter : ChatSseAdapter) :
    Prop where
  numbers : log.map NumberedEvent.sequence = List.range log.length
  sequence : adapter.sequence = log.length
  wellFormed : WellFormed (log.map NumberedEvent.event)
  tracked : adapter.finished = false →
    Tracked (log.map NumberedEvent.event) adapter

/-- A call that emits `emission`, in a stream that was still open. -/
theorem Sound.emitted (hsound : Sound log adapter) {emission : Emission}
    (hsequence : emission.1.sequence = adapter.sequence)
    (hwellFormed : WellFormed
      (log.map NumberedEvent.event ++ emission.2))
    (htracked : emission.1.finished = false →
      Tracked (log.map NumberedEvent.event ++ emission.2) emission.1) :
    Sound (log ++ (numbered emission).2) (numbered emission).1 := by
  obtain ⟨hevents, hnumbers⟩ := number_spec log.length emission.2
  have hstart : emission.1.sequence = log.length :=
    hsequence.trans hsound.sequence
  have hmore : (numbered emission).2 = number log.length emission.2 := by
    rw [← hstart]
    rfl
  have hlength : (number log.length emission.2).length =
      emission.2.length := by
    rw [← length_map NumberedEvent.event, hevents]
  have hall : (log ++ (numbered emission).2).map NumberedEvent.event =
      log.map NumberedEvent.event ++ emission.2 := by
    rw [hmore, map_append, hevents]
  constructor
  · rw [hmore, map_append, hnumbers, hsound.numbers, length_append,
      hlength, range_eq_range', range_eq_range',
      ← List.range'_append_1, Nat.zero_add]
  · rw [hmore, length_append, hlength, ← hstart]
    rfl
  · rw [hall]
    exact hwellFormed
  · intro hopen
    rw [hall]
    exact (htracked hopen).settings _ _ _ _ _ _

theorem Sound.finish (hsound : Sound log adapter)
    (hopen : adapter.finished = false) (crates : Crates) (clock : Clock) :
    Sound (log ++ (numbered (finish crates clock
        { adapter with finished := true })).2)
      (numbered (ChatSseAdapter.finish crates clock
        { adapter with finished := true })).1 := by
  have hsame := SameStream.finish crates clock
    { adapter with finished := true }
  have hstart : Tracked (log.map NumberedEvent.event)
      { adapter with finished := true } :=
    (hsound.tracked hopen).settings _ true _ _ _ _
  apply hsound.emitted hsame.sequence (wellFormed_finish crates clock hstart)
  intro hfinished
  rw [hsame.finished] at hfinished
  cases hfinished

theorem Sound.call (hsound : Sound log adapter) (crates : Crates)
    (next : ChatCall) :
    Sound (log ++ (call crates adapter next).2)
      (ChatSseAdapter.call crates adapter next).1 := by
  have hidle : Sound (log ++ []) adapter := by
    rw [append_nil]
    exact hsound
  cases next with
  | pushData clock data =>
    rw [ChatSseAdapter.call, pushData]
    split
    · exact hidle
    · rename_i hfinished
      rw [Bool.not_eq_true] at hfinished
      split
      · exact hsound.finish hfinished crates clock
      · split
        · exact hidle
        · rename_i value _
          have htracked := tracked_pushDelta crates clock
            (hsound.tracked hfinished) (ChatDelta.read crates value)
          exact hsound.emitted (SameStream.pushDelta ..).sequence
            htracked.wellFormed fun _ => htracked
  | finishIfTerminal clock =>
    rw [ChatSseAdapter.call, finishIfTerminal]
    split
    · exact hidle
    · rename_i hterminal
      simp only [Bool.or_eq_true, Bool.not_eq_true', not_or,
        Bool.not_eq_true] at hterminal
      exact hsound.finish hterminal.1 crates clock

theorem Sound.run (hsound : Sound log adapter) (crates : Crates)
    (calls : List ChatCall) :
    Sound (log ++ (run crates adapter calls).2)
      (ChatSseAdapter.run crates adapter calls).1 := by
  induction calls generalizing log adapter with
  | nil =>
    rw [ChatSseAdapter.run, append_nil]
    exact hsound
  | cons next calls ih =>
    have hrest := ih (hsound.call crates next)
    rw [append_assoc] at hrest
    exact hrest

theorem sound_new (model : String) (toolContext : CodexToolContext)
    (namespaceContext : NamespaceToolContext) (millis : Nat) :
    Sound [] (newWithContext model toolContext namespaceContext millis) := by
  have htracked := tracked_new model toolContext namespaceContext millis
  exact ⟨rfl, rfl, htracked.wellFormed, fun _ => htracked⟩

/-- Whatever is pushed and however the stream ends, the events of a new
adapter are numbered from zero without gaps and form a well-formed stream. -/
theorem stream_well_formed (crates : Crates) (model : String)
    (toolContext : CodexToolContext)
    (namespaceContext : NamespaceToolContext) (millis : Nat)
    (calls : List ChatCall) :
    let adapter := newWithContext model toolContext namespaceContext millis
    let log := (ChatSseAdapter.run crates adapter calls).2
    log.map NumberedEvent.sequence = List.range log.length ∧
      WellFormed (log.map NumberedEvent.event) := by
  have hsound := (sound_new model toolContext namespaceContext millis).run
    crates calls
  exact ⟨hsound.numbers, hsound.wellFormed⟩

end ChatSseAdapter

end Vellum.Proxy

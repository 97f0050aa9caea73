/-
Where an item stands in the completed response of a Chat stream.  An item is
announced at the output index it takes when its first piece arrives; the
response lists the reasoning, the message and the calls by their provider
index.  The two agree on the streams whose items arrive in that order.
-/
import Vellum.Library.Arrivals
import Vellum.Proxy.ChatWellFormed

namespace Vellum.Proxy

open List Option Arrivals StreamEvent OrderedMap

/-- An item of a stream. -/
inductive Slot where
  | reasoning
  | message
  | call (index : Nat)
deriving DecidableEq

/-- The order in which the completed response lists the items. -/
def Slot.rank : Slot → Nat
  | .reasoning => 0
  | .message => 1
  | .call index => index + 2

@[simp]
theorem Slot.rank_reasoning : Slot.reasoning.rank = 0 := rfl

@[simp]
theorem Slot.rank_message : Slot.message.rank = 1 := rfl

@[simp]
theorem Slot.rank_call (index : Nat) : (Slot.call index).rank = index + 2 := rfl

namespace ChatSseAdapter

section

variable (crates : Crates) (adapter : ChatSseAdapter)

/-- The items that the completed response lists. -/
def outputSlots : List Slot :=
  (if adapter.reasoning = "" then [] else [.reasoning]) ++
  (if adapter.text = "" then [] else [.message]) ++
  adapter.toolCalls.map fun entry => .call entry.1

/-- An item as it stands in the completed response. -/
def slotItem : Slot → Json
  | .reasoning => reasoningItem adapter.reasoningId
      [summaryPart adapter.reasoning]
  | .message => completedMessageItem adapter.messageId adapter.phase adapter.text
  | .call index =>
    match OrderedMap.lookup index adapter.toolCalls with
    | some call => completedCallItem crates adapter index call
    | none => .null

/-- The announcements of an item among the events of a part. -/
def announced (slot : Slot) (emission : Emission) : List (Nat × Slot) :=
  (emission.2.filterMap addedIndex).map fun index => (index, slot)

def callAnnouncements (crates : Crates) (adapter : ChatSseAdapter) :
    List CallFragment → List (Nat × Slot)
  | [] => []
  | fragment :: fragments =>
    announced (.call fragment.index) (pushCall crates adapter fragment) ++
      callAnnouncements crates (pushCall crates adapter fragment).1 fragments

def deltaAnnouncements (clock : Clock) (adapter : ChatSseAdapter)
    (delta : ChatDelta) : List (Nat × Slot) :=
  let started := ensureStarted clock (adapter.countUsage delta.usage)
  let reasoned := pushIfPresent pushReasoning delta.reasoning started.1
  let shown := pushIfPresent pushContent delta.content reasoned.1
  announced .reasoning reasoned ++ announced .message shown ++
    callAnnouncements crates shown.1 delta.calls

def finishAnnouncements (clock : Clock) (adapter : ChatSseAdapter) :
    List (Nat × Slot) :=
  announced .message (showTrailing (ensureStarted clock adapter).1)

/-- The items that a call of the adapter announces, with the output index of
their `output_item.added` event. -/
def announcements : ChatCall → List (Nat × Slot)
  | .pushData clock data =>
    if adapter.finished then []
    else if Text.trim data.toList = "[DONE]".toList then
      finishAnnouncements clock { adapter with finished := true }
    else
      match crates.fromStr data with
      | none => []
      | some value =>
        deltaAnnouncements crates clock adapter (ChatDelta.read crates value)
  | .finishIfTerminal clock =>
    if adapter.finished || !adapter.terminalSeen then []
    else finishAnnouncements clock { adapter with finished := true }

/-- The announcements of a run. -/
def announcementsOf (crates : Crates) (adapter : ChatSseAdapter) :
    List ChatCall → List (Nat × Slot)
  | [] => []
  | next :: calls =>
    announcements crates adapter next ++
      announcementsOf crates (call crates adapter next).1 calls

def reasoningArrivals : Option String → List Slot
  | some _ => [.reasoning]
  | none => []

def contentArrivals (filter : ModelContentFilter) : Option String → List Slot
  | some content => if (filter.push content.toList).2 = [] then [] else [.message]
  | none => []

/-- The items that the pieces of a chunk belong to. -/
def deltaArrivals (delta : ChatDelta) : List Slot :=
  reasoningArrivals delta.reasoning ++
    contentArrivals adapter.contentFilter delta.content ++
    delta.calls.map fun fragment => .call fragment.index

/-- The text that the filter held back may be the first of the message. -/
def finishArrivals : List Slot :=
  if adapter.contentFilter.finish.2 = [] then [] else [.message]

/-- The items that the pieces which a call brings belong to. -/
def arrivals : ChatCall → List Slot
  | .pushData _ data =>
    if adapter.finished then []
    else if Text.trim data.toList = "[DONE]".toList then
      finishArrivals adapter
    else
      match crates.fromStr data with
      | none => []
      | some value => deltaArrivals adapter (ChatDelta.read crates value)
  | .finishIfTerminal _ =>
    if adapter.finished || !adapter.terminalSeen then []
    else finishArrivals adapter

def arrivalsOf (crates : Crates) (adapter : ChatSseAdapter) :
    List ChatCall → List Slot
  | [] => []
  | next :: calls =>
    arrivals crates adapter next ++
      arrivalsOf crates (call crates adapter next).1 calls

/-- The items arrive for the first time in the order in which the completed
response lists them. -/
def ArriveInOrder (slots : List Slot) : Prop :=
  (arriveAll [] slots).Pairwise fun left right => left.rank < right.rank

instance (slots : List Slot) : Decidable (ArriveInOrder slots) :=
  inferInstanceAs (Decidable (List.Pairwise _ _))

/-- The output index that an item was announced at. -/
def slotIndex : Slot → Option Nat
  | .reasoning => adapter.reasoningIndex
  | .message => adapter.messageIndex
  | .call index =>
    (OrderedMap.lookup index adapter.toolCalls).map StreamToolCall.outputIndex

end

/-- An item is open when it has a text or fragments. -/
structure Consistent (adapter : ChatSseAdapter) : Prop where
  sorted : OrderedMap.Sorted adapter.toolCalls
  callsAdded : ∀ entry ∈ adapter.toolCalls, entry.2.added = true
  reasoningFlag : adapter.reasoningAdded = adapter.reasoningIndex.isSome
  messageFlag : adapter.messageAdded = adapter.messageIndex.isSome
  reasoning : adapter.reasoning = "" ↔ adapter.reasoningIndex = none
  text : adapter.text = "" ↔ adapter.messageIndex = none

/-- The adapter and the items that have arrived, in the order of their first
arrival. -/
structure Lined (seen : List Slot) (adapter : ChatSseAdapter) : Prop where
  consistent : adapter.Consistent
  nodup : seen.Nodup
  next : adapter.nextOutputIndex = seen.length
  index : ∀ slot, (adapter.slotIndex slot).isSome = true ↔ slot ∈ seen

theorem lined_new (model : String) (toolContext : CodexToolContext)
    (namespaceContext : NamespaceToolContext) (millis : Nat) :
    Lined [] (newWithContext model toolContext namespaceContext millis) := by
  constructor
  · constructor
    all_goals simp [newWithContext, OrderedMap.Sorted]
  · exact nodup_nil
  · rfl
  · intro slot
    cases slot <;> simp [slotIndex, newWithContext, OrderedMap.lookup]

variable {seen : List Slot} {adapter : ChatSseAdapter}

/-- Fields that say nothing about items. -/
theorem Lined.settings (hlined : Lined seen adapter)
    (started finished terminalSeen : Bool) (usage : Option Json)
    (contentFilter : ModelContentFilter) (sequence : Nat) :
    Lined seen { adapter with
      started, finished, terminalSeen, usage, contentFilter, sequence } := by
  obtain ⟨⟨hsorted, hcalls, hreasoningFlag, hmessageFlag, hreasoning, htext⟩,
    hnodup, hnext, hindex⟩ := hlined
  refine ⟨⟨hsorted, hcalls, hreasoningFlag, hmessageFlag, hreasoning, htext⟩,
    hnodup, hnext, ?_⟩
  intro slot
  rw [← hindex slot]
  cases slot <;> rfl

/-- A part of a call that brings a piece of an item. -/
structure Brings (seen : List Slot) (slot : Slot) (emission : Emission) :
    Prop where
  lined : Lined (arrive seen slot) emission.1
  announced : announced slot emission = taken seen slot

section

variable (crates : Crates) {events : List StreamEvent} {slot : Slot}
  (clock : Clock) {emission : Emission}

/-- A piece of an item that is open. -/
theorem Lined.brings_more (hlined : Lined seen adapter)
    (hopen : (adapter.slotIndex slot).isSome = true)
    (hconsistent : emission.1.Consistent)
    (hnext : emission.1.nextOutputIndex = adapter.nextOutputIndex)
    (hindex : ∀ other, (emission.1.slotIndex other).isSome = true ↔
      (adapter.slotIndex other).isSome = true)
    (hadded : emission.2.filterMap addedIndex = []) :
    Brings seen slot emission := by
  have hmem := (hlined.index slot).mp hopen
  constructor
  · rw [arrive_of_mem hmem]
    exact ⟨hconsistent, hlined.nodup, hnext.trans hlined.next,
      fun other => (hindex other).trans (hlined.index other)⟩
  · rw [taken, if_pos hmem, announced, hadded]
    rfl

theorem Lined.brings_first (hlined : Lined seen adapter)
    (hclosed : adapter.slotIndex slot = none)
    (hconsistent : emission.1.Consistent)
    (hnext : emission.1.nextOutputIndex = adapter.nextOutputIndex + 1)
    (hindex : ∀ other, (emission.1.slotIndex other).isSome = true ↔
      (adapter.slotIndex other).isSome = true ∨ other = slot)
    (hadded : emission.2.filterMap addedIndex = [adapter.nextOutputIndex]) :
    Brings seen slot emission := by
  have hnew : slot ∉ seen := by
    intro hmem
    have hopen := (hlined.index slot).mpr hmem
    rw [hclosed] at hopen
    cases hopen
  have hnodup := nodup_arrive hlined.nodup slot
  rw [arrive_of_notMem hnew] at hnodup
  constructor
  · rw [arrive_of_notMem hnew]
    refine ⟨hconsistent, hnodup, ?_, ?_⟩
    · rw [hnext, hlined.next, length_append, length_singleton]
    · intro other
      rw [hindex, hlined.index, mem_append, mem_singleton]
  · rw [taken, if_neg hnew, announced, hadded, hlined.next]
    rfl

theorem append_ne_empty {piece : String} (hpiece : piece ≠ "")
    (text : String) : text ++ piece ≠ "" := by
  intro hempty
  have hlist := congrArg String.toList hempty
  rw [String.toList_append] at hlist
  exact hpiece (String.toList_inj.mp (append_eq_nil_iff.mp hlist).2)

theorem brings_pushReasoning (hlined : Lined seen adapter)
    {reasoning : String} (hpiece : reasoning ≠ "") :
    Brings seen .reasoning (pushReasoning adapter reasoning) := by
  obtain ⟨hsorted, hcalls, hreasoningFlag, hmessageFlag, hreasoning, htext⟩ :=
    hlined.consistent
  have hnonempty := append_ne_empty hpiece adapter.reasoning
  cases hindex : adapter.reasoningIndex with
  | some index =>
    rw [hindex] at hreasoningFlag
    have hopen : openReasoning { adapter with
        reasoning := adapter.reasoning ++ reasoning } =
        ({ adapter with reasoning := adapter.reasoning ++ reasoning }, []) :=
      if_pos hreasoningFlag
    rw [pushReasoning, hopen]
    refine hlined.brings_more ?_ ?_ rfl ?_ rfl
    · rw [slotIndex, hindex]
      rfl
    · exact ⟨hsorted, hcalls, by simp [Emission.andThen, hreasoningFlag, hindex],
        hmessageFlag, by simp [Emission.andThen, hnonempty, hindex], htext⟩
    · intro other
      cases other <;> rfl
  | none =>
    rw [hindex] at hreasoningFlag
    have hopen : openReasoning { adapter with
        reasoning := adapter.reasoning ++ reasoning } = _ :=
      if_neg (by rw [hreasoningFlag]; exact Bool.false_ne_true)
    rw [pushReasoning, hopen]
    refine hlined.brings_first (by rw [slotIndex, hindex]) ?_ rfl ?_ rfl
    · exact ⟨hsorted, hcalls, rfl, hmessageFlag,
        by simp [Emission.andThen, hnonempty], htext⟩
    · intro other
      cases other <;> simp [slotIndex, Emission.andThen]

theorem brings_showText (hlined : Lined seen adapter) {content : String}
    (hpiece : content ≠ "") :
    Brings seen .message (showText adapter content) := by
  obtain ⟨hsorted, hcalls, hreasoningFlag, hmessageFlag, hreasoning, htext⟩ :=
    hlined.consistent
  have hnonempty := append_ne_empty hpiece adapter.text
  cases hindex : adapter.messageIndex with
  | some index =>
    rw [hindex] at hmessageFlag
    have hopen : openMessage { adapter with
        text := adapter.text ++ content } =
        ({ adapter with text := adapter.text ++ content }, []) :=
      if_pos hmessageFlag
    rw [showText, if_neg hpiece, hopen]
    refine hlined.brings_more ?_ ?_ rfl ?_ rfl
    · rw [slotIndex, hindex]
      rfl
    · exact ⟨hsorted, hcalls, hreasoningFlag,
        by simp [Emission.andThen, hmessageFlag, hindex], hreasoning,
        by simp [Emission.andThen, hnonempty, hindex]⟩
    · intro other
      cases other <;> rfl
  | none =>
    rw [hindex] at hmessageFlag
    have hopen : openMessage { adapter with
        text := adapter.text ++ content } = _ :=
      if_neg (by rw [hmessageFlag]; exact Bool.false_ne_true)
    rw [showText, if_neg hpiece, hopen]
    refine hlined.brings_first (by rw [slotIndex, hindex]) ?_ rfl ?_ rfl
    · exact ⟨hsorted, hcalls, hreasoningFlag, rfl, hreasoning,
        by simp [Emission.andThen, hnonempty]⟩
    · intro other
      cases other <;> simp [slotIndex, Emission.andThen]

theorem brings_pushCall (hlined : Lined seen adapter)
    (fragment : CallFragment) :
    Brings seen (.call fragment.index) (pushCall crates adapter fragment) := by
  obtain ⟨hsorted, hcalls, hreasoningFlag, hmessageFlag, hreasoning, htext⟩ :=
    hlined.consistent
  cases hlookup : OrderedMap.lookup fragment.index adapter.toolCalls with
  | some old =>
    have hadded := hcalls _ (mem_of_lookup hlookup)
    rw [pushCall_later crates hlookup hadded]
    refine hlined.brings_more ?_ ?_ rfl ?_ (plain_callDelta _ _ _).2
    · rw [slotIndex, hlookup]
      rfl
    · exact ⟨hsorted.upsert _ _, callsAdded_upsert hcalls _ _ _,
        hreasoningFlag, hmessageFlag, hreasoning, htext⟩
    · intro other
      cases other with
      | reasoning => rfl
      | message => rfl
      | call index =>
        simp only [slotIndex, isSome_map,
          lookup_upsert _ _ hsorted]
        split
        · rename_i heq
          rw [heq, hlookup]
          rfl
        · rfl
  | none =>
    have hfirst := pushCall_first crates hlookup
    dsimp only at hfirst
    rw [hfirst]
    refine hlined.brings_first ?_ ?_ rfl ?_ ?_
    · rw [slotIndex, hlookup]
      rfl
    · exact ⟨hsorted.upsert _ _, callsAdded_upsert hcalls _ _ _,
        hreasoningFlag, hmessageFlag, hreasoning, htext⟩
    · intro other
      cases other with
      | reasoning => simp [slotIndex]
      | message => simp [slotIndex]
      | call index =>
        simp only [slotIndex, isSome_map, Slot.call.injEq,
          lookup_upsert _ _ hsorted]
        split
        · simp_all
        · simp_all
    · exact congrArg (adapter.nextOutputIndex :: ·) (plain_callDelta _ _ _).2

/-- What a call, or a part of it, does to the items. -/
structure BringsAll (seen slots : List Slot) (after : ChatSseAdapter)
    (announcements : List (Nat × Slot)) : Prop where
  lined : Lined (arriveAll seen slots) after
  announced : announcements = takenAll seen slots

theorem BringsAll.nothing (hlined : Lined seen adapter) :
    BringsAll seen [] adapter [] := ⟨hlined, rfl⟩

theorem Brings.all (hbrings : Brings seen slot emission) :
    BringsAll seen [slot] emission.1
      (ChatSseAdapter.announced slot emission) where
  lined := hbrings.lined
  announced := hbrings.announced.trans (append_nil _).symm

theorem BringsAll.append {front back : List Slot}
    {between after : ChatSseAdapter} {first second : List (Nat × Slot)}
    (hfirst : BringsAll seen front between first)
    (hsecond : BringsAll (arriveAll seen front) back after second) :
    BringsAll seen (front ++ back) after (first ++ second) where
  lined := by
    rw [arriveAll_append]
    exact hsecond.lined
  announced := by
    rw [takenAll_append, hfirst.announced, hsecond.announced]

@[simp]
theorem contentFilter_countUsage (adapter : ChatSseAdapter)
    (usage : Option Json) :
    (adapter.countUsage usage).contentFilter = adapter.contentFilter := by
  cases usage <;> rfl

@[simp]
theorem contentFilter_ensureStarted (adapter : ChatSseAdapter) :
    (ensureStarted clock adapter).1.contentFilter = adapter.contentFilter := by
  rw [ensureStarted]
  split <;> rfl

@[simp]
theorem contentFilter_pushReasoning (piece : Option String)
    (adapter : ChatSseAdapter) :
    (pushIfPresent pushReasoning piece adapter).1.contentFilter =
      adapter.contentFilter := by
  cases piece with
  | none => rfl
  | some reasoning =>
    simp only [pushIfPresent, pushReasoning, openReasoning, Emission.andThen]
    split <;> rfl

theorem reasoning_read_ne (value : Json) :
    (ChatDelta.read crates value).reasoning ≠ some "" := by
  intro hread
  have hkept := (filter_eq_some_iff.mp hread).2
  exact absurd rfl (of_decide_eq_true hkept)

section

variable (hlined : Lined seen adapter)
include hlined

theorem bringsAll_pushCalls (fragments : List CallFragment) :
    BringsAll seen (fragments.map fun fragment => .call fragment.index)
      (pushCalls crates adapter fragments).1
      (callAnnouncements crates adapter fragments) := by
  induction fragments generalizing seen adapter with
  | nil => exact .nothing hlined
  | cons fragment fragments ih =>
    have hfirst := brings_pushCall crates hlined fragment
    exact hfirst.all.append (ih hfirst.lined)

/-- Text of the filter's, if there is any, is a piece of the message. -/
theorem bringsAll_showText (text : List Char) :
    BringsAll seen (if text = [] then [] else [.message])
      (showText adapter (String.ofList text)).1
      (announced .message (showText adapter (String.ofList text))) := by
  split
  · rename_i hempty
    rw [hempty]
    exact .nothing hlined
  · rename_i htext
    have hpiece : String.ofList text ≠ "" := by
      intro heq
      have hlist := congrArg String.toList heq
      rw [String.toList_ofList] at hlist
      exact htext hlist
    exact (brings_showText hlined hpiece).all

theorem Lined.countUsage (usage : Option Json) :
    Lined seen (adapter.countUsage usage) := by
  cases usage with
  | none => exact hlined
  | some usage => exact hlined.settings _ _ _ _ _ _

theorem Lined.ensureStarted (clock : Clock) :
    Lined seen (ensureStarted clock adapter).1 := by
  rw [ChatSseAdapter.ensureStarted]
  split
  · exact hlined
  · exact hlined.settings _ _ _ _ _ _

theorem bringsAll_reasoning {piece : Option String}
    (hpiece : piece ≠ some "") :
    BringsAll seen (reasoningArrivals piece)
      (pushIfPresent pushReasoning piece adapter).1
      (announced .reasoning (pushIfPresent pushReasoning piece adapter)) := by
  cases piece with
  | none => exact .nothing hlined
  | some reasoning =>
    have hne : reasoning ≠ "" := fun heq => hpiece (congrArg some heq)
    exact (brings_pushReasoning hlined hne).all

theorem bringsAll_content (piece : Option String) :
    BringsAll seen (contentArrivals adapter.contentFilter piece)
      (pushIfPresent pushContent piece adapter).1
      (announced .message (pushIfPresent pushContent piece adapter)) := by
  cases piece with
  | none => exact .nothing hlined
  | some content =>
    exact bringsAll_showText (hlined.settings _ _ _ _
      (adapter.contentFilter.push content.toList).1 _) _

theorem bringsAll_delta {delta : ChatDelta}
    (hreasoning : delta.reasoning ≠ some "") :
    BringsAll seen (deltaArrivals adapter delta)
      (pushDelta crates clock adapter delta).1
      (deltaAnnouncements crates clock adapter delta) := by
  have hstarted := (hlined.countUsage delta.usage).ensureStarted clock
  have hreasoned := bringsAll_reasoning hstarted hreasoning
  have hshown := bringsAll_content hreasoned.lined delta.content
  rw [contentFilter_pushReasoning, contentFilter_ensureStarted,
    contentFilter_countUsage] at hshown
  have hboth := hreasoned.append hshown
  have hall := hboth.append (bringsAll_pushCalls crates hboth.lined delta.calls)
  exact ⟨hall.lined.settings _ _ _ _ _ _, hall.announced⟩

theorem bringsAll_finish :
    BringsAll seen (finishArrivals adapter)
      (finish crates clock adapter).1 (finishAnnouncements clock adapter) := by
  have hfiltered : Lined seen { (ensureStarted clock adapter).1 with
      contentFilter := adapter.contentFilter.finish.1 } :=
    (hlined.ensureStarted clock).settings _ _ _ _ _ _
  have hshown := bringsAll_showText hfiltered adapter.contentFilter.finish.2
  have htrailing : showTrailing (ensureStarted clock adapter).1 =
      showText { (ensureStarted clock adapter).1 with
        contentFilter := adapter.contentFilter.finish.1 }
        (String.ofList adapter.contentFilter.finish.2) := by
    rw [showTrailing, contentFilter_ensureStarted]
  rw [finishArrivals, finishAnnouncements, finish, beforeClose]
  simp only [Emission.andThen]
  rw [htrailing]
  exact hshown

theorem bringsAll_call (next : ChatCall) :
    BringsAll seen (arrivals crates adapter next) (call crates adapter next).1
      (announcements crates adapter next) := by
  have hfinish := fun clock => bringsAll_finish crates clock
    (hlined.settings adapter.started true adapter.terminalSeen adapter.usage
      adapter.contentFilter adapter.sequence)
  cases next with
  | pushData clock data =>
    rw [arrivals, call, announcements, pushData]
    split
    · exact .nothing hlined
    · split
      · exact ⟨(hfinish clock).lined.settings _ _ _ _ _ _,
          (hfinish clock).announced⟩
      · cases crates.fromStr data with
        | none => exact .nothing hlined
        | some value =>
          have hdelta := bringsAll_delta crates clock hlined
            (reasoning_read_ne crates value)
          exact ⟨hdelta.lined.settings _ _ _ _ _ _, hdelta.announced⟩
  | finishIfTerminal clock =>
    rw [arrivals, call, announcements, finishIfTerminal]
    split
    · exact .nothing hlined
    · exact ⟨(hfinish clock).lined.settings _ _ _ _ _ _,
        (hfinish clock).announced⟩

theorem bringsAll_run (calls : List ChatCall) :
    BringsAll seen (arrivalsOf crates adapter calls)
      (run crates adapter calls).1 (announcementsOf crates adapter calls) := by
  induction calls generalizing seen adapter with
  | nil => exact .nothing hlined
  | cons next calls ih =>
    have hfirst := bringsAll_call crates hlined next
    exact hfirst.append (ih hfirst.lined)

end

/-- The response lists the items that have arrived. -/
theorem Lined.mem_outputSlots (hlined : Lined seen adapter) (slot : Slot) :
    slot ∈ adapter.outputSlots ↔ slot ∈ seen := by
  obtain ⟨hsorted, -, -, -, hreasoning, htext⟩ := hlined.consistent
  rw [← hlined.index slot, outputSlots]
  cases slot with
  | reasoning =>
    rw [slotIndex, isSome_iff_ne_none, ne_eq, ← hreasoning]
    by_cases hempty : adapter.reasoning = "" <;> simp [hempty]
  | message =>
    rw [slotIndex, isSome_iff_ne_none, ne_eq, ← htext]
    by_cases hempty : adapter.text = "" <;> simp [hempty]
  | call index =>
    rw [slotIndex, isSome_map]
    constructor
    · intro hmem
      have hcall : .call index ∈ adapter.toolCalls.map fun entry =>
          Slot.call entry.1 := by
        simpa using hmem
      obtain ⟨entry, hentry, hindex⟩ := List.mem_map.mp hcall
      obtain rfl := Slot.call.inj hindex
      rw [lookup_of_mem hsorted hentry]
      rfl
    · intro hsome
      obtain ⟨call, hlookup⟩ := isSome_iff_exists.mp hsome
      exact mem_append_right _ (List.mem_map.mpr
        ⟨_, mem_of_lookup hlookup, rfl⟩)

/-- The response lists the items by their rank. -/
theorem outputSlots_pairwise (hsorted : OrderedMap.Sorted adapter.toolCalls) :
    adapter.outputSlots.Pairwise fun left right => left.rank < right.rank := by
  have hcalls : (adapter.toolCalls.map fun entry => Slot.call entry.1).Pairwise
      fun left right => left.rank < right.rank := by
    rw [OrderedMap.Sorted, pairwise_map] at hsorted
    rw [pairwise_map]
    exact hsorted.imp fun hlt => Nat.add_lt_add_right hlt 2
  have hlate : ∀ slot ∈ adapter.toolCalls.map fun entry => Slot.call entry.1,
      0 < slot.rank ∧ 1 < slot.rank := by
    intro slot hslot
    obtain ⟨entry, -, rfl⟩ := List.mem_map.mp hslot
    rw [Slot.rank_call]
    omega
  rw [outputSlots, append_assoc]
  generalize (adapter.toolCalls.map fun entry => Slot.call entry.1) = calls
    at hcalls hlate ⊢
  by_cases hreasoning : adapter.reasoning = "" <;>
    by_cases htext : adapter.text = "" <;>
    simp +contextual [hreasoning, htext, hcalls, hlate]

/-- The response lists the items in the order of their first arrival exactly
when they arrived in the order in which it lists them. -/
theorem Lined.outputSlots_eq_iff (hlined : Lined seen adapter) :
    adapter.outputSlots = seen ↔
      seen.Pairwise fun left right => left.rank < right.rank := by
  have hpairwise := outputSlots_pairwise hlined.consistent.sorted
  constructor
  · intro heq
    rw [← heq]
    exact hpairwise
  · intro hseen
    have hnodup : adapter.outputSlots.Nodup :=
      hpairwise.imp fun hlt heq => Nat.ne_of_lt hlt (congrArg Slot.rank heq)
    have hperm : adapter.outputSlots.Perm seen :=
      (perm_ext_iff_of_nodup hnodup hlined.nodup).mpr
        hlined.mem_outputSlots
    exact hperm.eq_of_pairwise
      (fun _ _ _ _ hlt hgt => absurd hlt (Nat.lt_asymm hgt)) hpairwise hseen

theorem completedOutput_eq (hsorted : OrderedMap.Sorted adapter.toolCalls) :
    adapter.completedOutput crates =
      adapter.outputSlots.map (slotItem crates adapter) := by
  have hcalls : (adapter.toolCalls.map fun entry =>
        completedCallItem crates adapter entry.1 entry.2) =
      (adapter.toolCalls.map fun entry => Slot.call entry.1).map
        (slotItem crates adapter) := by
    rw [List.map_map]
    apply map_congr_left
    intro entry hentry
    rw [Function.comp_apply, slotItem,
      lookup_of_mem hsorted hentry]
  rw [completedOutput, outputSlots, map_append, map_append, ← hcalls]
  by_cases hreasoning : adapter.reasoning = "" <;>
    by_cases htext : adapter.text = "" <;>
    simp [hreasoning, htext, slotItem]

theorem get_output_completedResponse (now : Nat) :
    (adapter.completedResponse crates now).get "output" =
      some (.arr (adapter.completedOutput crates)) := by
  rw [completedResponse]
  cases adapter.usage with
  | none => rfl
  | some usage =>
    rw [withUsage, Json.get_insertField, if_neg (by decide)]
    rfl

theorem announced_fst (slot : Slot) (emission : Emission) :
    (announced slot emission).map Prod.fst = emission.2.filterMap addedIndex := by
  rw [announced, List.map_map]
  exact List.map_id _

theorem callAnnouncements_fst (adapter : ChatSseAdapter)
    (fragments : List CallFragment) :
    (callAnnouncements crates adapter fragments).map Prod.fst =
      (pushCalls crates adapter fragments).2.filterMap addedIndex := by
  induction fragments generalizing adapter with
  | nil => rfl
  | cons fragment fragments ih =>
    rw [callAnnouncements, map_append, announced_fst, ih, pushCalls,
      Emission.andThen, filterMap_append]

theorem ensureStarted_added (adapter : ChatSseAdapter) :
    (ensureStarted clock adapter).2.filterMap addedIndex = [] := by
  rw [ensureStarted]
  split <;> rfl

theorem deltaAnnouncements_fst (adapter : ChatSseAdapter) (delta : ChatDelta) :
    (deltaAnnouncements crates clock adapter delta).map Prod.fst =
      (pushDelta crates clock adapter delta).2.filterMap addedIndex := by
  rw [deltaAnnouncements, pushDelta, pushParts, beforeCalls]
  simp only [Emission.andThen, map_append, filterMap_append,
    announced_fst, callAnnouncements_fst, ensureStarted_added,
    nil_append]

theorem finishAnnouncements_fst (adapter : ChatSseAdapter) :
    (finishAnnouncements clock adapter).map Prod.fst =
      (finish crates clock adapter).2.filterMap addedIndex := by
  have hclose : ∀ adapter : ChatSseAdapter,
      (closeItems crates clock.completed adapter).filterMap addedIndex = [] := by
    intro adapter
    obtain ⟨body, hbody, hclosing, -⟩ :=
      @closeItems_spec adapter crates clock.completed
    have hterminal := (views_of_isTerminal (terminalEvent_isTerminal crates
      clock.completed adapter)).1
    rw [hbody, filterMap_snoc, hterminal,
      filterMap_eq_nil_iff.mpr hclosing.added]
    rfl
  rw [finishAnnouncements, announced_fst, finish, beforeClose]
  simp only [Emission.andThen, filterMap_append, ensureStarted_added,
    hclose, nil_append, append_nil]

theorem announcements_fst (adapter : ChatSseAdapter) (next : ChatCall) :
    (announcements crates adapter next).map Prod.fst =
      ((call crates adapter next).2.map NumberedEvent.event).filterMap
        addedIndex := by
  have hnumbered : ∀ emission : Emission,
      ((numbered emission).2.map NumberedEvent.event).filterMap addedIndex =
        emission.2.filterMap addedIndex := by
    intro emission
    rw [numbered, (number_spec _ _).1]
  cases next with
  | pushData clock data =>
    rw [announcements, call, pushData]
    split
    · rfl
    · split
      · rw [hnumbered, finishAnnouncements_fst crates]
      · cases crates.fromStr data with
        | none => rfl
        | some value =>
          dsimp only
          rw [hnumbered, deltaAnnouncements_fst]
  | finishIfTerminal clock =>
    rw [announcements, call, finishIfTerminal]
    split
    · rfl
    · rw [hnumbered, finishAnnouncements_fst crates]

/-- The announcements of a run are its `output_item.added` events. -/
theorem announcementsOf_fst (adapter : ChatSseAdapter) (calls : List ChatCall) :
    (announcementsOf crates adapter calls).map Prod.fst =
      ((run crates adapter calls).2.map NumberedEvent.event).filterMap
        addedIndex := by
  induction calls generalizing adapter with
  | nil => rfl
  | cons next calls ih =>
    rw [announcementsOf, map_append, announcements_fst, ih, run,
      map_append, filterMap_append]

theorem Tracked.no_completed (htracked : Tracked events adapter)
    (response : Json) : .completed response ∉ events := by
  intro hmem
  have hopen := (htracked.unclosed_views hmem).1
  cases hopen

/-- The adapter and the events it has emitted; once the stream has ended, the
last of them closed its items. -/
structure Ended (crates : Crates) (events : List StreamEvent)
    (adapter : ChatSseAdapter) : Prop where
  tracked : adapter.finished = false → Tracked events adapter
  closed : adapter.finished = true → ∃ front now, Tracked front adapter ∧
    events = front ++ closeItems crates now adapter

theorem ended_finish (htracked : Tracked events adapter) (crates : Crates)
    (clock : Clock) :
    Ended crates
      (events ++ (finish crates clock { adapter with finished := true }).2)
      (numbered (finish crates clock { adapter with finished := true })).1 := by
  have hbefore := tracked_beforeClose clock
    (htracked.settings adapter.started true adapter.terminalSeen adapter.usage
      adapter.contentFilter adapter.sequence)
  have hsame := SameStream.finish crates clock { adapter with finished := true }
  constructor
  · intro hopen
    have hclosed : (finish crates clock
      { adapter with finished := true }).1.finished = false := hopen
    rw [hsame.finished] at hclosed
    cases hclosed
  · intro _
    refine ⟨_, clock.completed, hbefore.settings _ _ _ _ _ _, ?_⟩
    rw [finish, Emission.andThen, ← append_assoc]
    rfl

theorem Ended.call {crates : Crates} {log : List NumberedEvent}
    (hended : Ended crates (log.map NumberedEvent.event) adapter)
    (next : ChatCall) :
    Ended crates ((log ++ (call crates adapter next).2).map
      NumberedEvent.event) (call crates adapter next).1 := by
  have hidle : Ended crates ((log ++ []).map NumberedEvent.event) adapter := by
    rw [append_nil]
    exact hended
  have hevents : ∀ emission : Emission,
      (log ++ (numbered emission).2).map NumberedEvent.event =
        log.map NumberedEvent.event ++ emission.2 := by
    intro emission
    rw [map_append, numbered, (number_spec _ _).1]
  cases next with
  | pushData clock data =>
    rw [ChatSseAdapter.call, pushData]
    split
    · exact hidle
    · rename_i hopen
      have htracked := hended.tracked (Bool.not_eq_true _ ▸ hopen)
      split
      · rw [hevents]
        exact ended_finish htracked crates clock
      · cases crates.fromStr data with
        | none => exact hidle
        | some value =>
          have hdelta := tracked_pushDelta crates clock htracked
            (ChatDelta.read crates value)
          have hsame := SameStream.pushDelta crates clock adapter
            (ChatDelta.read crates value)
          dsimp only
          rw [hevents]
          constructor
          · exact fun _ => hdelta.settings _ _ _ _ _ _
          · intro hfinished
            exact absurd (hsame.finished.symm.trans hfinished) hopen
  | finishIfTerminal clock =>
    rw [ChatSseAdapter.call, finishIfTerminal]
    split
    · exact hidle
    · rename_i hterminal
      simp only [Bool.or_eq_true, not_or, Bool.not_eq_true] at hterminal
      rw [hevents]
      exact ended_finish (hended.tracked hterminal.1) crates clock

theorem Ended.run {crates : Crates} {log : List NumberedEvent}
    (hended : Ended crates (log.map NumberedEvent.event) adapter)
    (calls : List ChatCall) :
    Ended crates ((log ++ (run crates adapter calls).2).map
      NumberedEvent.event) (run crates adapter calls).1 := by
  induction calls generalizing log adapter with
  | nil =>
    rw [ChatSseAdapter.run, append_nil]
    exact hended
  | cons next calls ih =>
    have hrest := ih (hended.call next)
    rw [append_assoc] at hrest
    exact hrest

theorem ended_new (model : String) (toolContext : CodexToolContext)
    (namespaceContext : NamespaceToolContext) (millis : Nat) :
    Ended crates (([] : List NumberedEvent).map NumberedEvent.event)
      (newWithContext model toolContext namespaceContext millis) :=
  ⟨fun _ => tracked_new model toolContext namespaceContext millis, by rintro ⟨⟩⟩

/-- A completed response among the events is the one of the adapter, and its
items have been closed. -/
theorem Ended.completes {crates : Crates} (hended : Ended crates events adapter)
    {response : Json} (hcompleted : .completed response ∈ events) :
    ∃ front now, Tracked front adapter ∧
      events = front ++ closeItems crates now adapter ∧
      response = adapter.completedResponse crates now := by
  cases hfinished : adapter.finished with
  | false =>
    exact absurd hcompleted ((hended.tracked hfinished).no_completed response)
  | true =>
    obtain ⟨front, now, htracked, rfl⟩ := hended.closed hfinished
    refine ⟨front, now, htracked, rfl, ?_⟩
    obtain ⟨body, hbody, hclosing, -⟩ := @closeItems_spec adapter crates now
    rw [hbody, mem_append, mem_append, mem_singleton]
      at hcompleted
    rcases hcompleted with hold | hin | hlast
    · exact absurd hold (htracked.no_completed response)
    · cases hclosing.open_ _ hin
    · rw [terminalEvent] at hlast
      split at hlast
      · cases hlast
      · cases hlast
        rfl

end

/-- Position `k` of the response is the item announced at output index `k`. -/
def PositionsAnnounced (announced : List (Nat × Slot)) (listed : List Slot) :
    Prop :=
  ∀ k slot, listed[k]? = some slot ↔ (k, slot) ∈ announced

theorem positionsAnnounced_iff {slots listed : List Slot} :
    PositionsAnnounced (takenAll [] slots) listed ↔
      listed = arriveAll [] slots := by
  have htaken : ∀ k slot, (k, slot) ∈ takenAll [] slots ↔
      (arriveAll [] slots)[k]? = some slot := by
    intro k slot
    rw [mem_takenAll_iff]
    exact ⟨fun hboth => hboth.2, fun hget => ⟨Nat.zero_le k, hget⟩⟩
  constructor
  · intro hpositions
    apply ext_getElem?
    intro k
    apply Option.ext
    intro slot
    rw [hpositions, htaken]
  · rintro rfl k slot
    exact (htaken k slot).symm

/-- The announcements of a stream that completes are its
`output_item.added` events; the completed response lists the items of
`outputSlots`; and each stands at the output index it was announced at exactly
when the items arrive for the first time in the order in which they are
listed. -/
theorem output_positions_iff (crates : Crates) (model : String)
    (toolContext : CodexToolContext)
    (namespaceContext : NamespaceToolContext) (millis : Nat)
    (calls : List ChatCall) {response : Json}
    (hcompleted : .completed response ∈ (run crates (newWithContext model
      toolContext namespaceContext millis) calls).2.map NumberedEvent.event) :
    let adapter := newWithContext model toolContext namespaceContext millis
    let final := (run crates adapter calls).1
    let events := (run crates adapter calls).2.map NumberedEvent.event
    let announced := announcementsOf crates adapter calls
    announced.map Prod.fst = events.filterMap addedIndex ∧
      response.get "output" =
        some (.arr (final.outputSlots.map (slotItem crates final))) ∧
      (PositionsAnnounced announced final.outputSlots ↔
        ArriveInOrder (arrivalsOf crates adapter calls)) := by
  have hbrings := bringsAll_run crates
    (lined_new model toolContext namespaceContext millis) calls
  have hended := (ended_new crates model toolContext namespaceContext
    millis).run calls
  obtain ⟨-, now, -, -, rfl⟩ := hended.completes hcompleted
  refine ⟨announcementsOf_fst crates _ calls, ?_, ?_⟩
  · rw [get_output_completedResponse,
      completedOutput_eq crates hbrings.lined.consistent.sorted]
  · rw [hbrings.announced, positionsAnnounced_iff,
      hbrings.lined.outputSlots_eq_iff]
    rfl

namespace LateReasoning

/-- A chunk that brings a text under a field of its delta. -/
def chunkText (field text : String) : String :=
  "\x7b\"choices\":[\x7b\"delta\":\x7b\"" ++ field ++ "\":\"" ++ text ++
    "\"\x7d\x7d]\x7d"

def chunk (field text : String) : Json :=
  .obj [("choices", .arr [.obj [("delta", .obj [(field, .str text)])]])]

def answerText : String := chunkText "content" "Done"

def reasonText : String := chunkText "reasoning_content" "Why"

/-- JSON on the texts below. -/
def crates : Crates where
  fromStr text :=
    if text = answerText then some (chunk "content" "Done")
    else if text = reasonText then some (chunk "reasoning_content" "Why")
    else none
  toStr _ := ""
  sha256 _ := []

def clock : Clock := ⟨1, 1, 1⟩

def start : ChatSseAdapter := newWithContext "qwen" {} {} 1

def answer : ChatCall := .pushData clock answerText

def reason : ChatCall := .pushData clock reasonText

def done : ChatCall := .pushData clock "[DONE]"

/-- What the stream of some calls ends with. -/
def lastResponse (calls : List ChatCall) : Json :=
  (run crates start calls).1.completedResponse crates clock.completed

/-- The answer comes before its reasoning: the message is announced first and
listed second. -/
theorem late_reasoning_is_listed_first :
    .completed (lastResponse [answer, reason, done]) ∈
        (run crates start [answer, reason, done]).2.map NumberedEvent.event ∧
      ¬ PositionsAnnounced
        (announcementsOf crates start [answer, reason, done])
        (run crates start [answer, reason, done]).1.outputSlots := by
  have hannounced : announcementsOf crates start [answer, reason, done] =
      [(0, .message), (1, .reasoning)] := by
    decide
  have hlisted : (run crates start [answer, reason, done]).1.outputSlots =
      [.reasoning, .message] := by
    decide
  constructor
  · decide
  · intro hpositions
    have hfirst := (hpositions 0 .reasoning).mp (by rw [hlisted]; rfl)
    rw [hannounced] at hfirst
    revert hfirst
    decide

theorem early_reasoning_is_listed_first :
    PositionsAnnounced (announcementsOf crates start [reason, answer, done])
      (run crates start [reason, answer, done]).1.outputSlots := by
  have hcompleted : .completed (lastResponse [reason, answer, done]) ∈
      (run crates start [reason, answer, done]).2.map NumberedEvent.event := by
    decide
  exact (output_positions_iff crates "qwen" {} {} 1 [reason, answer, done]
    hcompleted).2.2.mpr (by decide)

end LateReasoning

end ChatSseAdapter

end Vellum.Proxy

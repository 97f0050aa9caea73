/-
The identity of a streamed tool call.  It is computed in four places: in the
item that announces the call, in each argument delta, in the events that
close the call, and in the completed response.  They agree on every stream in
which each fragment keeps what the announcement was made from.
-/
import Vellum.Library.StepRun
import Vellum.Proxy.ChatWellFormed

namespace Vellum.Proxy

open List Option

namespace StreamEvent

/-- The item id an event gives for an output index. -/
def itemIdAt (index : Nat) : StreamEvent → Option (Option Json)
  | outputItemAdded at_ item | outputItemDone at_ item =>
    if at_ = index then some (item.get "id") else none
  | argumentsDelta id at_ _ | argumentsDone id at_ _
  | customInputDelta id at_ _ | customInputDone id at_ _ =>
    if at_ = index then some (some (.str id)) else none
  | _ => none

/-- The call id an event gives for an output index. -/
def callIdAt (index : Nat) : StreamEvent → Option (Option Json)
  | outputItemAdded at_ item | outputItemDone at_ item =>
    if at_ = index then some (item.get "call_id") else none
  | _ => none

/-- Whatever ids an event gives for an output index are these. -/
structure Carries (event : StreamEvent) (index : Nat)
    (itemId callId : String) : Prop where
  item : ∀ id, event.itemIdAt index = some id → id = some (.str itemId)
  call : ∀ id, event.callIdAt index = some id → id = some (.str callId)

theorem Carries.of_none {event : StreamEvent} {index : Nat}
    (hitem : event.itemIdAt index = none)
    (hcall : event.callIdAt index = none) (itemId callId : String) :
    event.Carries index itemId callId := by
  constructor
  · intro id hid
    rw [hitem] at hid
    cases hid
  · intro id hid
    rw [hcall] at hid
    cases hid

end StreamEvent

/-- What the identity of a call is computed from. -/
structure CallLabel where
  id : String := ""
  name : String := ""

def CallLabel.extend (label : CallLabel) (fragment : CallFragment) :
    CallLabel where
  id := if fragment.id = "" then label.id else fragment.id
  name := label.name ++ fragment.name

/-- The call id of the call at a provider index. -/
def CallLabel.callId (label : CallLabel) (index : Nat) : String :=
  callIdOr label.id index

def StreamToolCall.label (call : StreamToolCall) : CallLabel :=
  ⟨call.id, call.name⟩

namespace ChatSseAdapter

open StreamEvent

/-- Restoring the item of a call keeps the front of its id: the tool is not
both a custom tool and the tool search, and an unnamed call is not taken for
a custom tool called `unknown`. -/
def RestoresFront (context : CodexToolContext) (name : String) : Prop :=
  ¬ (context.isCustom name = true ∧ context.isToolSearch name = true) ∧
    (name = "" → context.isCustom "unknown" = true →
      context.isCustom "" = true)

instance (context : CodexToolContext) (name : String) :
    Decidable (RestoresFront context name) :=
  inferInstanceAs (Decidable (_ ∧ _))

/-- The labels of the calls seen so far, by provider index. -/
def labels (adapter : ChatSseAdapter) (index : Nat) : Option CallLabel :=
  (OrderedMap.lookup index adapter.toolCalls).map StreamToolCall.label

/-- The labels after a fragment. -/
def extendLabels (labels : Nat → Option CallLabel)
    (fragment : CallFragment) (index : Nat) : Option CallLabel :=
  if index = fragment.index then
    some (((labels index).getD {}).extend fragment)
  else labels index

/-- A fragment that keeps the identity its call was announced under: the call
id and the kind of the tool stay, the announced item keeps its id when it is
restored, and an argument delta, which carries the call id for the item id,
is only sent where the two are the same. -/
structure KeepsIdentity (context : CodexToolContext)
    (old : Option CallLabel) (fragment : CallFragment) : Prop where
  announced : old = none → RestoresFront context fragment.name
  later : ∀ label, old = some label →
    (label.extend fragment).callId fragment.index =
        label.callId fragment.index ∧
      context.itemFront (label.extend fragment).name =
        context.itemFront label.name
  delta : fragment.arguments ≠ "" →
    translatedNative context ((old.getD {}).extend fragment).name = false →
      startsWith (((old.getD {}).extend fragment).callId fragment.index)
        "fc_" = true

/-- The fragments of a chunk, each against the labels as the ones before it
left them. -/
def KeepIdentity (context : CodexToolContext) :
    (Nat → Option CallLabel) → List CallFragment → Prop
  | _, [] => True
  | labels, fragment :: fragments =>
    KeepsIdentity context (labels fragment.index) fragment ∧
      KeepIdentity context (extendLabels labels fragment) fragments

/-- A stream that may end: a call without an id of the provider stands at the
output index of its provider index, and the items are restored under the whole
name of the call with the front that was announced. -/
def MayFinish (adapter : ChatSseAdapter) : Prop :=
  ∀ entry ∈ adapter.toolCalls,
    (entry.2.id = "" → entry.2.outputIndex = entry.1) ∧
      RestoresFront adapter.toolContext entry.2.name

/-- The condition on a call of the adapter. -/
def CallOk (crates : Crates) (adapter : ChatSseAdapter) : ChatCall → Prop
  | .pushData _ data =>
    adapter.finished = false →
      if Text.trim data.toList = "[DONE]".toList then MayFinish adapter
      else ∀ value, crates.fromStr data = some value →
        KeepIdentity adapter.toolContext adapter.labels
          (ChatDelta.read crates value).calls
  | .finishIfTerminal _ =>
    adapter.finished = false → adapter.terminalSeen = true →
      MayFinish adapter

/-- The call id the completed response gives a call. -/
def callId (entry : Nat × StreamToolCall) : String :=
  entry.2.label.callId entry.1

/-- The item id the completed response gives a call. -/
def itemId (crates : Crates) (context : CodexToolContext)
    (entry : Nat × StreamToolCall) : String :=
  normalizedItemId crates (context.itemFront entry.2.name) (callId entry)

/-- An item that gives a call these two ids. -/
def Names (item : Json) (itemId callId : String) : Prop :=
  item.get "id" = some (.str itemId) ∧ item.get "call_id" = some (.str callId)

/-- Each tool call has one identity: every event for its output index and its
item in the completed response give the same item id and the same call id. -/
def OneIdentity (crates : Crates) (events : List StreamEvent)
    (adapter : ChatSseAdapter) : Prop :=
  ∀ entry ∈ adapter.toolCalls, ∃ itemId callId,
    (∀ event ∈ events, event.Carries entry.2.outputIndex itemId callId) ∧
      (adapter.finished = true →
        Names (completedCallItem crates adapter entry.1 entry.2)
          itemId callId)

theorem names_restoreOutputItem (crates : Crates) {context : CodexToolContext}
    {name : String} (hfront : RestoresFront context name)
    (callId arguments status : String) :
    Names (context.restoreOutputItem crates
        (functionCallItem
          (normalizedItemId crates (context.itemFront name) callId) callId
          (shownName name) arguments status))
      (normalizedItemId crates (context.itemFront name) callId) callId := by
  rw [restoreOutputItem_functionCall]
  by_cases hname : name = ""
  · subst hname
    have hshown : shownName "" = "unknown" := rfl
    rw [hshown, isToolSearch_unknown]
    by_cases hcustom : context.isCustom "unknown" = true
    · have hempty := hfront.2 rfl hcustom
      rw [if_neg (by simp), if_pos hcustom, restoreCustom_functionCall,
        CodexToolContext.itemFront, if_pos hempty, normalizedItemId_twice]
      exact ⟨rfl, rfl⟩
    · rw [if_neg (by simp), if_neg hcustom]
      exact ⟨rfl, rfl⟩
  · have hshown : shownName name = name := if_neg hname
    rw [hshown]
    by_cases hsearch : context.isToolSearch name = true
    · have hcustom : ¬ context.isCustom name = true :=
        fun hcustom => hfront.1 ⟨hcustom, hsearch⟩
      rw [if_pos hsearch, restoreToolSearch_functionCall,
        CodexToolContext.itemFront, if_neg hcustom, if_pos hsearch,
        normalizedItemId_twice]
      exact ⟨rfl, rfl⟩
    · by_cases hcustom : context.isCustom name = true
      · rw [if_neg hsearch, if_pos hcustom, restoreCustom_functionCall,
          CodexToolContext.itemFront, if_pos hcustom, normalizedItemId_twice]
        exact ⟨rfl, rfl⟩
      · rw [if_neg hsearch, if_neg hcustom]
        exact ⟨rfl, rfl⟩

theorem names_restoreItem (context : NamespaceToolContext) {item : Json}
    {itemId callId : String} (hnames : Names item itemId callId) :
    Names (context.restoreItem item) itemId callId := by
  cases item with
  | obj fields =>
    simp only [NamespaceToolContext.restoreItem]
    split
    · split
      · constructor
        · rw [Json.get_insertField, Json.get_insertField]
          exact hnames.1
        · rw [Json.get_insertField, Json.get_insertField]
          exact hnames.2
      · exact hnames
    · exact hnames
  | null | bool | num | str | arr => exact hnames

theorem names_completedCallItem (crates : Crates) {adapter : ChatSseAdapter}
    {entry : Nat × StreamToolCall}
    (hfront : RestoresFront adapter.toolContext entry.2.name) :
    Names (completedCallItem crates adapter entry.1 entry.2)
      (itemId crates adapter.toolContext entry) (callId entry) := by
  rw [completedCallItem]
  split
  · exact ⟨rfl, rfl⟩
  · exact names_restoreItem _ (names_restoreOutputItem crates hfront _ _ _)

section Identity

variable {crates : Crates} {events : List StreamEvent}
  {adapter : ChatSseAdapter}

/-- The ids given so far: none for an index not yet in use, and for each call
those of its entry. -/
structure Identified (crates : Crates) (events : List StreamEvent)
    (adapter : ChatSseAdapter) : Prop where
  below : ∀ event ∈ events, ∀ i, adapter.nextOutputIndex ≤ i →
    event.itemIdAt i = none ∧ event.callIdAt i = none
  calls : ∀ entry ∈ adapter.toolCalls, ∀ event ∈ events,
    event.Carries entry.2.outputIndex
      (itemId crates adapter.toolContext entry) (callId entry)

section

variable {fragment : CallFragment} {entry : Nat × StreamToolCall}
  {more : List StreamEvent} {next : ChatSseAdapter}

theorem Tracked.callIndex_lt (htracked : Tracked events adapter)
    (hentry : entry ∈ adapter.toolCalls) :
    entry.2.outputIndex < adapter.nextOutputIndex := by
  have hmem : entry.2.outputIndex ∈ adapter.openIndexes :=
    mem_append_right _ (List.mem_map.mpr ⟨entry, hentry, rfl⟩)
  exact mem_range.mp (htracked.indexes.mem_iff.mp hmem)

theorem Tracked.openIndexes_nodup (htracked : Tracked events adapter) :
    adapter.openIndexes.Nodup :=
  htracked.indexes.nodup_iff.mpr nodup_range

theorem Tracked.callIndex_inj (htracked : Tracked events adapter)
    {other : Nat × StreamToolCall} (hentry : entry ∈ adapter.toolCalls)
    (hother : other ∈ adapter.toolCalls)
    (hindex : entry.2.outputIndex = other.2.outputIndex) : entry = other := by
  have hnodup := (nodup_append.mp htracked.openIndexes_nodup).2.1
  exact inj_on_of_nodup_map hnodup hentry hother hindex

/-- Events that give ids, if any, for new output indexes that are no call's. -/
theorem Identified.elsewhere (hids : Identified crates events adapter)
    (htracked : Tracked events adapter)
    (hmore : ∀ event ∈ more, ∀ i,
      i < adapter.nextOutputIndex ∨ next.nextOutputIndex ≤ i →
        event.itemIdAt i = none ∧ event.callIdAt i = none)
    (hnext : adapter.nextOutputIndex ≤ next.nextOutputIndex)
    (hcalls : next.toolCalls = adapter.toolCalls)
    (hcontext : next.toolContext = adapter.toolContext) :
    Identified crates (events ++ more) next := by
  constructor
  · intro event hevent i hi
    rcases mem_append.mp hevent with hold | hnew
    · exact hids.below event hold i (by omega)
    · exact hmore event hnew i (Or.inr hi)
  · intro entry hentry event hevent
    rw [hcalls] at hentry
    rw [hcontext]
    rcases mem_append.mp hevent with hold | hnew
    · exact hids.calls entry hentry event hold
    · have hlt := htracked.callIndex_lt hentry
      have hnone := hmore event hnew entry.2.outputIndex (Or.inl hlt)
      exact Carries.of_none hnone.1 hnone.2 _ _

/-- A stream whose items are tracked and whose calls are identified. -/
structure Followed (crates : Crates) (events : List StreamEvent)
    (adapter : ChatSseAdapter) : Prop where
  tracked : Tracked events adapter
  identified : Identified crates events adapter

section

variable (hfollowed : Followed crates events adapter)
include hfollowed

/-- Fields that say nothing about items. -/
theorem Followed.settings (started finished terminalSeen : Bool)
    (usage : Option Json) (contentFilter : ModelContentFilter)
    (sequence : Nat) :
    Followed crates events { adapter with
      started, finished, terminalSeen, usage, contentFilter, sequence } :=
  ⟨hfollowed.tracked.settings _ _ _ _ _ _,
    ⟨hfollowed.identified.below, hfollowed.identified.calls⟩⟩

theorem followed_ensureStarted (clock : Clock) :
    (ensureStarted clock adapter).Keeps (Followed crates) events := by
  refine ⟨tracked_ensureStarted hfollowed.tracked clock, ?_⟩
  rw [ensureStarted]
  split
  · exact hfollowed.identified.elsewhere hfollowed.tracked (by simp)
      (Nat.le_refl _) rfl rfl
  · exact hfollowed.identified.elsewhere hfollowed.tracked
      (by simp [itemIdAt, callIdAt]) (Nat.le_refl _) rfl rfl

theorem followed_openReasoning :
    (openReasoning adapter).Keeps (Followed crates) events := by
  refine ⟨tracked_openReasoning hfollowed.tracked, ?_⟩
  rw [openReasoning]
  split
  · exact hfollowed.identified.elsewhere hfollowed.tracked (by simp)
      (Nat.le_refl _) rfl rfl
  · refine hfollowed.identified.elsewhere hfollowed.tracked ?_
      (Nat.le_succ _) rfl rfl
    simp [itemIdAt, callIdAt]
    omega

theorem followed_openMessage :
    (openMessage adapter).Keeps (Followed crates) events := by
  refine ⟨tracked_openMessage hfollowed.tracked, ?_⟩
  rw [openMessage]
  split
  · exact hfollowed.identified.elsewhere hfollowed.tracked (by simp)
      (Nat.le_refl _) rfl rfl
  · refine hfollowed.identified.elsewhere hfollowed.tracked ?_
      (Nat.le_succ _) rfl rfl
    simp [itemIdAt, callIdAt]
    omega

theorem followed_pushReasoning (reasoning : String) :
    (pushReasoning adapter reasoning).Keeps (Followed crates) events := by
  rw [pushReasoning_eq]
  apply (followed_openReasoning hfollowed).andThen
  intro events hopened
  exact ⟨tracked_reasoningDelta hopened.tracked
      (openReasoning_index hfollowed.tracked) reasoning,
    hopened.identified.elsewhere hopened.tracked
      (by simp [itemIdAt, callIdAt]) (Nat.le_refl _) rfl rfl⟩

theorem followed_showText (content : String) :
    (showText adapter content).Keeps (Followed crates) events := by
  by_cases hcontent : content = ""
  · rw [showText, if_pos hcontent]
    exact keeps_nil hfollowed
  · rw [showText_eq adapter hcontent]
    apply (followed_openMessage hfollowed).andThen
    intro events hopened
    exact ⟨tracked_textDelta hopened.tracked
        (openMessage_index hfollowed.tracked) content,
      hopened.identified.elsewhere hopened.tracked
        (by simp [itemIdAt, callIdAt]) (Nat.le_refl _) rfl rfl⟩

theorem followed_beforeClose (clock : Clock) :
    (beforeClose clock adapter).Keeps (Followed crates) events := by
  refine Emission.Keeps.andThen (followed_ensureStarted hfollowed clock) ?_
  intro events hstarted
  exact followed_showText (hstarted.settings _ _ _ _ _ _) _

end

/-- Events that carry the identity of a call and give ids for no other output
index. -/
def OwnEvents (crates : Crates) (context : CodexToolContext)
    (index : Nat) (entry : StreamToolCall) (more : List StreamEvent) : Prop :=
  ∀ event ∈ more,
    event.Carries entry.outputIndex (itemId crates context (index, entry))
        (callId (index, entry)) ∧
      ∀ i, i ≠ entry.outputIndex →
        event.itemIdAt i = none ∧ event.callIdAt i = none

theorem carries_callDelta {context : CodexToolContext} {entry : StreamToolCall}
    (hdelta : fragment.arguments ≠ "" →
      translatedNative context entry.name = false →
        startsWith (callIdOr entry.id fragment.index) "fc_" = true) :
    OwnEvents crates context fragment.index entry
      (callDelta context fragment entry) := by
  rw [callDelta]
  split
  · simp [OwnEvents]
  · rename_i hsent
    simp only [Bool.or_eq_true, decide_eq_true_eq, not_or,
      Bool.not_eq_true] at hsent
    have hfront := hdelta hsent.1 hsent.2
    have hnative := hsent.2
    simp only [translatedNative, Bool.or_eq_false_iff] at hnative
    have hitem : itemId crates context (fragment.index, entry) =
        callIdOr entry.id fragment.index := by
      simp only [itemId, CodexToolContext.itemFront, hnative.1, hnative.2]
      exact normalizedItemId_of_startsWith crates hfront
    intro event hevent
    rw [mem_singleton] at hevent
    subst hevent
    constructor
    · constructor
      · intro id hid
        rw [itemIdAt, if_pos rfl] at hid
        rw [hitem, ← some.inj hid]
      · intro id hid
        cases hid
    · intro i hi
      simp [itemIdAt, callIdAt, Ne.symm hi]

/-- The announcement of a call carries the identity of its entry. -/
theorem carries_added {context : CodexToolContext} {index outputIndex : Nat}
    {entry : StreamToolCall} (hfront : RestoresFront context entry.name) :
    (StreamEvent.outputItemAdded outputIndex (addedCallItem crates context
      (callIdOr entry.id index) entry.name)).Carries outputIndex
        (itemId crates context (index, entry)) (callId (index, entry)) := by
  have hnames := names_restoreOutputItem crates hfront
    (callIdOr entry.id index) "" "in_progress"
  constructor
  · intro id hid
    rw [itemIdAt, if_pos rfl] at hid
    rw [← some.inj hid]
    exact hnames.1
  · intro id hid
    rw [callIdAt, if_pos rfl] at hid
    rw [← some.inj hid]
    exact hnames.2

/-- The calls after a fragment, when its entry has the identity the events so
far carry. -/
theorem Identified.upsert (hids : Identified crates events adapter)
    (htracked : Tracked events adapter) {index : Nat} {entry : StreamToolCall}
    (hcalls : next.toolCalls =
      OrderedMap.upsert index (fun _ => entry) adapter.toolCalls)
    (hcontext : next.toolContext = adapter.toolContext)
    (hnext : adapter.nextOutputIndex ≤ next.nextOutputIndex)
    (hindex : entry.outputIndex < next.nextOutputIndex)
    (hold : ∀ event ∈ events, event.Carries entry.outputIndex
      (itemId crates adapter.toolContext (index, entry))
      (callId (index, entry)))
    (hother : ∀ other ∈ adapter.toolCalls, other.1 ≠ index →
      other.2.outputIndex ≠ entry.outputIndex)
    (hmore : OwnEvents crates adapter.toolContext index entry more) :
    Identified crates (events ++ more) next := by
  constructor
  · intro event hevent i hi
    rcases mem_append.mp hevent with hevent | hevent
    · exact hids.below event hevent i (by omega)
    · exact (hmore event hevent).2 i (by omega)
  · intro found hfound event hevent
    rw [hcalls] at hfound
    rw [hcontext]
    rcases OrderedMap.mem_upsert_of_sorted htracked.sorted hfound with
      rfl | ⟨hkey, hfound⟩
    · rcases mem_append.mp hevent with hevent | hevent
      · exact hold event hevent
      · exact (hmore event hevent).1
    · rcases mem_append.mp hevent with hevent | hevent
      · exact hids.calls found hfound event hevent
      · have hnone := (hmore event hevent).2 found.2.outputIndex
          (hother found hfound hkey)
        exact Carries.of_none hnone.1 hnone.2 _ _

theorem labels_pushCall (crates : Crates)
    (htracked : Tracked events adapter) (fragment : CallFragment) :
    (pushCall crates adapter fragment).1.labels =
      extendLabels adapter.labels fragment := by
  funext index
  simp only [labels, pushCall, extendLabels,
    OrderedMap.lookup_upsert _ _ htracked.sorted]
  split
  · rename_i heq
    subst heq
    cases hlookup : OrderedMap.lookup fragment.index adapter.toolCalls <;>
      simp only [callEntry, hlookup] <;> rfl
  · rfl

section

variable (hfollowed : Followed crates events adapter)
include hfollowed

theorem identified_pushCall_first
    (hnone : OrderedMap.lookup fragment.index adapter.toolCalls = none)
    (hkeeps : KeepsIdentity adapter.toolContext none fragment) :
    (pushCall crates adapter fragment).Keeps (Identified crates) events := by
  rw [pushCall_first crates hnone]
  generalize hentry : StreamToolCall.extend
    { outputIndex := adapter.nextOutputIndex } fragment = entry
  have hindex : entry.outputIndex = adapter.nextOutputIndex := by
    rw [← hentry]
    rfl
  have hlabel : ({} : CallLabel).extend fragment = entry.label := by
    rw [← hentry]
    rfl
  have hname : entry.name = fragment.name := by
    rw [← hentry]
    exact String.empty_append
  have hdelta := hkeeps.delta
  rw [getD_none, hlabel] at hdelta
  refine hfollowed.identified.upsert hfollowed.tracked rfl rfl
    (Nat.le_succ _) (by rw [hindex]; exact Nat.lt_succ_self _) ?_ ?_ ?_
  · intro event hevent
    have hfresh := hfollowed.identified.below event hevent entry.outputIndex
      (Nat.le_of_eq hindex.symm)
    exact Carries.of_none hfresh.1 hfresh.2 _ _
  · intro other hother _
    have hlt := hfollowed.tracked.callIndex_lt hother
    omega
  · intro event hevent
    rcases mem_cons.mp hevent with rfl | hevent
    · constructor
      · rw [← hindex]
        exact carries_added (hname ▸ hkeeps.announced rfl)
      · intro i hi
        have hne : ¬ adapter.nextOutputIndex = i :=
          fun heq => hi (heq.symm.trans hindex.symm)
        simp [itemIdAt, callIdAt, hne]
    · exact carries_callDelta hdelta event hevent

theorem identified_pushCall_later {old : StreamToolCall}
    (hsome : OrderedMap.lookup fragment.index adapter.toolCalls = some old)
    (hkeeps : KeepsIdentity adapter.toolContext (some old.label) fragment) :
    (pushCall crates adapter fragment).Keeps (Identified crates) events := by
  have hmem := OrderedMap.mem_of_lookup hsome
  have hadded := hfollowed.tracked.callsAdded _ hmem
  rw [pushCall_later crates hsome hadded]
  obtain ⟨hcallId, hfront⟩ := hkeeps.later old.label rfl
  have hsameItem : itemId crates adapter.toolContext
      (fragment.index, old.extend fragment) =
      itemId crates adapter.toolContext (fragment.index, old) :=
    congrArg₂ (normalizedItemId crates) hfront hcallId
  have hsameCall : callId (fragment.index, old.extend fragment) =
      callId (fragment.index, old) := hcallId
  refine hfollowed.identified.upsert hfollowed.tracked rfl rfl le_rfl
    (hfollowed.tracked.callIndex_lt hmem) ?_ ?_
    (carries_callDelta hkeeps.delta)
  · intro event hevent
    rw [hsameItem, hsameCall]
    exact hfollowed.identified.calls _ hmem event hevent
  · intro other hother hkey hindex
    have hsame := hfollowed.tracked.callIndex_inj hother hmem hindex
    exact hkey (congrArg Prod.fst hsame)

theorem followed_pushCall (hkeeps : KeepsIdentity adapter.toolContext
      (adapter.labels fragment.index) fragment) :
    (pushCall crates adapter fragment).Keeps (Followed crates) events := by
  refine ⟨tracked_pushCall crates hfollowed.tracked fragment, ?_⟩
  cases hlookup : OrderedMap.lookup fragment.index adapter.toolCalls with
  | none =>
    rw [labels, hlookup] at hkeeps
    exact identified_pushCall_first hfollowed hlookup hkeeps
  | some old =>
    rw [labels, hlookup] at hkeeps
    exact identified_pushCall_later hfollowed hlookup hkeeps

theorem followed_pushCalls {fragments : List CallFragment}
    (hkeep : KeepIdentity adapter.toolContext adapter.labels fragments) :
    (pushCalls crates adapter fragments).Keeps (Followed crates) events := by
  induction fragments generalizing events adapter with
  | nil => exact keeps_nil hfollowed
  | cons fragment fragments ih =>
    have hrest := hkeep.2
    rw [← labels_pushCall crates hfollowed.tracked] at hrest
    apply (followed_pushCall hfollowed hkeep.1).andThen
    intro events hfirst
    exact ih hfirst hrest

theorem followed_beforeCalls (clock : Clock) (delta : ChatDelta) :
    (beforeCalls clock adapter delta).Keeps (Followed crates) events := by
  have hcounted : Followed crates events (adapter.countUsage delta.usage) := by
    cases delta.usage with
    | none => exact hfollowed
    | some usage => exact hfollowed.settings _ _ _ _ _ _
  refine Emission.Keeps.andThen (Emission.Keeps.andThen
    (followed_ensureStarted hcounted clock) ?_) ?_
  · intro events hstarted
    apply keeps_pushIfPresent _ hstarted
    exact fun _ _ text h => followed_pushReasoning h text
  · intro events hreasoned
    apply keeps_pushIfPresent _ hreasoned
    exact fun _ _ _ h => followed_showText (h.settings _ _ _ _ _ _) _

theorem followed_pushDelta (clock : Clock) {delta : ChatDelta}
    (hkeep : KeepIdentity adapter.toolContext adapter.labels delta.calls) :
    (pushDelta crates clock adapter delta).Keeps (Followed crates) events := by
  have hcalls := toolCalls_beforeCalls clock adapter delta
  have hcontext := (SameStream.beforeCalls clock adapter delta).toolContext
  have hlabels : (beforeCalls clock adapter delta).1.labels =
      adapter.labels := by
    funext index
    rw [labels, labels, hcalls]
  have hparts : (pushParts crates clock adapter delta).Keeps (Followed crates)
      events := by
    apply (followed_beforeCalls hfollowed clock delta).andThen
    intro events hbefore
    apply followed_pushCalls hbefore
    rw [hcontext, hlabels]
    exact hkeep
  exact hparts.settings _ _ _ _ _ _

end

/-- Events that give ids for one output index only, and there these. -/
theorem carries_outputItemDone {outputIndex : Nat} {item : Json}
    {itemId callId : String} (hnames : Names item itemId callId) :
    (StreamEvent.outputItemDone outputIndex item).Carries outputIndex
      itemId callId := by
  constructor
  · intro id hid
    rw [itemIdAt, if_pos rfl] at hid
    rw [← some.inj hid]
    exact hnames.1
  · intro id hid
    rw [callIdAt, if_pos rfl] at hid
    rw [← some.inj hid]
    exact hnames.2

/-- The events that close a call carry its identity. -/
theorem carries_callDone
    (hindex : entry.2.id = "" → entry.2.outputIndex = entry.1)
    (hfront : RestoresFront adapter.toolContext entry.2.name) :
    OwnEvents crates adapter.toolContext entry.1 entry.2
      (callDone crates adapter entry.2) := by
  have hcallId : callIdOr entry.2.id entry.2.outputIndex = callId entry := by
    by_cases hid : entry.2.id = ""
    · rw [hindex hid]
      rfl
    · simp [callId, CallLabel.callId, StreamToolCall.label, callIdOr, hid]
  have hplain (event : StreamEvent)
      (hitem : event.itemIdAt entry.2.outputIndex =
        some (some (.str (itemId crates adapter.toolContext entry))))
      (hcall : event.callIdAt entry.2.outputIndex = none) :
      event.Carries entry.2.outputIndex
        (itemId crates adapter.toolContext entry) (callId entry) := by
    constructor
    · intro id hid
      rw [hitem] at hid
      exact (some.inj hid).symm
    · intro id hid
      rw [hcall] at hid
      cases hid
  have hdone (item : Json)
      (hnames : Names item (itemId crates adapter.toolContext entry)
        (callId entry)) :
      (StreamEvent.outputItemDone entry.2.outputIndex item).Carries
          entry.2.outputIndex (itemId crates adapter.toolContext entry)
          (callId entry) ∧
        ∀ i, i ≠ entry.2.outputIndex →
          (StreamEvent.outputItemDone entry.2.outputIndex item).itemIdAt i =
              none ∧
            (StreamEvent.outputItemDone entry.2.outputIndex item).callIdAt i =
              none := by
    refine ⟨carries_outputItemDone hnames, ?_⟩
    intro i hi
    simp [itemIdAt, callIdAt, Ne.symm hi]
  intro event hevent
  simp only [callDone, hcallId] at hevent
  split at hevent
  · rcases mem_append.mp hevent with hevent | hevent
    · split at hevent
      · cases hevent
      · obtain rfl := mem_singleton.mp hevent
        exact ⟨hplain _ (if_pos rfl) rfl,
          fun i hi => ⟨if_neg (Ne.symm hi), rfl⟩⟩
    · rcases mem_cons.mp hevent with rfl | hevent
      · exact ⟨hplain _ (if_pos rfl) rfl,
          fun i hi => ⟨if_neg (Ne.symm hi), rfl⟩⟩
      · obtain rfl := mem_singleton.mp hevent
        exact hdone _ ⟨rfl, rfl⟩
  · split at hevent
    · rename_i hsearch
      obtain rfl := mem_singleton.mp hevent
      have hname : entry.2.name = "tool_search" := by
        simp only [CodexToolContext.isToolSearch, Bool.and_eq_true,
          decide_eq_true_eq] at hsearch
        exact hsearch.2
      have hnames := names_restoreOutputItem crates hfront (callId entry)
        entry.2.arguments "completed"
      have hshown : shownName entry.2.name = "tool_search" := by
        rw [hname]
        rfl
      rw [hshown] at hnames
      exact hdone _ hnames
    · rcases mem_cons.mp hevent with rfl | hevent
      · exact ⟨hplain _ (if_pos rfl) rfl,
          fun i hi => ⟨if_neg (Ne.symm hi), rfl⟩⟩
      · obtain rfl := mem_singleton.mp hevent
        exact hdone _ (names_restoreItem _ ⟨rfl, rfl⟩)

/-- The events that close the reasoning item and the message give no ids for
the output index of a call. -/
theorem closeOthers_ids (htracked : Tracked events adapter)
    (hentry : entry ∈ adapter.toolCalls) :
    ∀ event ∈ adapter.reasoningDone ++ adapter.messageDone,
      event.itemIdAt entry.2.outputIndex = none ∧
        event.callIdAt entry.2.outputIndex = none := by
  have hdisjoint := (nodup_append.mp htracked.openIndexes_nodup).2.2
  have hmem : entry.2.outputIndex ∈
      adapter.toolCalls.map fun entry => entry.2.outputIndex :=
    List.mem_map.mpr ⟨entry, hentry, rfl⟩
  intro event hevent
  rcases mem_append.mp hevent with hevent | hevent
  · rw [reasoningDone] at hevent
    cases hindex : adapter.reasoningIndex with
    | none =>
      rw [hindex] at hevent
      cases hevent
    | some i =>
      have hne : i ≠ entry.2.outputIndex := by
        apply hdisjoint i _ _ hmem
        simp [hindex]
      rw [hindex] at hevent
      simp only [mem_cons, not_mem_nil, or_false] at hevent
      rcases hevent with rfl | rfl | rfl <;>
        simp [itemIdAt, callIdAt, hne]
  · rw [messageDone] at hevent
    cases hindex : adapter.messageIndex with
    | none =>
      rw [hindex] at hevent
      cases hevent
    | some i =>
      have hne : i ≠ entry.2.outputIndex := by
        apply hdisjoint i _ _ hmem
        simp [hindex]
      rw [hindex] at hevent
      simp only [mem_cons, not_mem_nil, or_false] at hevent
      rcases hevent with rfl | rfl | rfl <;>
        simp [itemIdAt, callIdAt, hne]

/-- Every event at the end of the stream carries the identity of a call. -/
theorem carries_closeItems (hfollowed : Followed crates events adapter)
    (hmay : MayFinish adapter) (now : Nat)
    (hentry : entry ∈ adapter.toolCalls) :
    ∀ event ∈ closeItems crates now adapter,
      event.Carries entry.2.outputIndex
        (itemId crates adapter.toolContext entry) (callId entry) := by
  intro event hevent
  rw [closeItems] at hevent
  rcases mem_append.mp hevent with hevent | hevent
  · rcases mem_append.mp hevent with hevent | hevent
    · have hnone := closeOthers_ids hfollowed.tracked hentry event hevent
      exact Carries.of_none hnone.1 hnone.2 _ _
    · obtain ⟨other, hother, hevent⟩ := mem_flatMap.mp hevent
      have hown := carries_callDone (hmay other hother).1
        (hmay other hother).2 event hevent
      by_cases hsame : other = entry
      · subst hsame
        exact hown.1
      · have hne : entry.2.outputIndex ≠ other.2.outputIndex :=
          fun hindex => hsame
            (hfollowed.tracked.callIndex_inj hother hentry hindex.symm)
        have hnone := hown.2 _ hne
        exact Carries.of_none hnone.1 hnone.2 _ _
  · obtain rfl := mem_singleton.mp hevent
    rw [terminalEvent]
    split <;> exact Carries.of_none rfl rfl _ _

end

theorem mayFinish_beforeClose (hmay : MayFinish adapter) (clock : Clock) :
    MayFinish (beforeClose clock adapter).1 := by
  intro entry hentry
  rw [toolCalls_beforeClose] at hentry
  rw [(SameStream.beforeClose clock adapter).toolContext]
  exact hmay entry hentry

/-- A stream that ends where it may has one identity for each of its calls. -/
theorem oneIdentity_finish (hfollowed : Followed crates events adapter)
    (hmay : MayFinish adapter) (clock : Clock) :
    (finish crates clock adapter).Keeps (OneIdentity crates) events := by
  have hbefore := followed_beforeClose hfollowed clock
  have hmayClose := mayFinish_beforeClose hmay clock
  intro entry hentry
  refine ⟨itemId crates (beforeClose clock adapter).1.toolContext entry,
    callId entry, ?_, ?_⟩
  · intro event hevent
    rcases mem_append.mp hevent with hold | hnew
    · exact hbefore.identified.calls entry hentry event
        (mem_append_left _ hold)
    · rcases mem_append.mp hnew with hshown | hclosing
      · exact hbefore.identified.calls entry hentry event
          (mem_append_right _ hshown)
      · exact carries_closeItems hbefore hmayClose clock.completed hentry
          event hclosing
  · intro _
    exact names_completedCallItem crates (hmayClose entry hentry).2

theorem Followed.oneIdentity (hfollowed : Followed crates events adapter)
    (hopen : adapter.finished = false) : OneIdentity crates events adapter := by
  intro entry hentry
  refine ⟨_, _, hfollowed.identified.calls entry hentry, ?_⟩
  intro hfinished
  rw [hopen] at hfinished
  cases hfinished

/-- The adapter and everything it has emitted. -/
abbrev Recorded := ChatSseAdapter × List NumberedEvent

/-- One call, with its events put behind the others. -/
def record (crates : Crates) (state : Recorded) (next : ChatCall) :
    Option Recorded :=
  some ((call crates state.1 next).1,
    state.2 ++ (call crates state.1 next).2)

theorem guardedRun_pair {adapter : ChatSseAdapter} {first second : ChatCall}
    (hfirst : CallOk crates adapter first)
    (hsecond : CallOk crates (call crates adapter first).1 second) :
    GuardedRun (record crates) (fun state next => CallOk crates state.1 next)
      (adapter, []) [first, second]
      ((call crates (call crates adapter first).1 second).1,
        (call crates adapter first).2 ++
          (call crates (call crates adapter first).1 second).2) := by
  have hlast : record crates ((call crates adapter first).1,
      (call crates adapter first).2) second = some
        ((call crates (call crates adapter first).1 second).1,
          (call crates adapter first).2 ++
            (call crates (call crates adapter first).1 second).2) := rfl
  have hrest : GuardedRun (record crates)
      (fun state next => CallOk crates state.1 next)
      ((call crates adapter first).1, (call crates adapter first).2) [second]
      _ := GuardedRun.cons hsecond hlast GuardedRun.nil
  exact GuardedRun.cons hfirst rfl hrest

/-- What every guarded call keeps. -/
structure Kept (crates : Crates) (state : Recorded) : Prop where
  followed : state.1.finished = false →
    Followed crates (state.2.map NumberedEvent.event) state.1
  oneIdentity : OneIdentity crates (state.2.map NumberedEvent.event) state.1

theorem kept_new (model : String) (toolContext : CodexToolContext)
    (namespaceContext : NamespaceToolContext) (millis : Nat) :
    Kept crates (newWithContext model toolContext namespaceContext millis,
      []) := by
  have htracked := tracked_new model toolContext namespaceContext millis
  have hfollowed : Followed crates [] (newWithContext model toolContext
      namespaceContext millis) := by
    refine ⟨htracked, ?_, ?_⟩
    · intro event hevent
      cases hevent
    · intro entry hentry
      cases hentry
  exact ⟨fun _ => hfollowed, hfollowed.oneIdentity rfl⟩

theorem map_event_numbered (log : List NumberedEvent) (emission : Emission) :
    (log ++ (numbered emission).2).map NumberedEvent.event =
      log.map NumberedEvent.event ++ emission.2 := by
  rw [map_append, numbered, (number_spec _ _).1]

/-- Numbering the events of an emission leaves the identities. -/
theorem OneIdentity.numbered {emission : Emission}
    (hone : OneIdentity crates events emission.1) :
    OneIdentity crates events (ChatSseAdapter.numbered emission).1 := hone

theorem Kept.finish {log : List NumberedEvent}
    (hfollowed : Followed crates (log.map NumberedEvent.event) adapter)
    (hmay : MayFinish adapter) (clock : Clock) :
    Kept crates ((numbered (finish crates clock
      { adapter with finished := true })).1,
      log ++ (numbered (ChatSseAdapter.finish crates clock
        { adapter with finished := true })).2) := by
  have hsame := SameStream.finish crates clock
    { adapter with finished := true }
  constructor
  · intro hopen
    have hfinished : (ChatSseAdapter.finish crates clock
        { adapter with finished := true }).1.finished = false := hopen
    rw [hsame.finished] at hfinished
    cases hfinished
  · have hending : Followed crates (log.map NumberedEvent.event)
        { adapter with finished := true } :=
      hfollowed.settings _ true _ _ _ _
    rw [map_event_numbered]
    exact (oneIdentity_finish hending hmay clock).numbered

theorem Kept.call {state : Recorded} (hkept : Kept crates state)
    {next : ChatCall} (hok : CallOk crates state.1 next) :
    Kept crates ((call crates state.1 next).1,
      state.2 ++ (ChatSseAdapter.call crates state.1 next).2) := by
  have hidle : Kept crates (state.1, state.2 ++ []) := by
    rw [append_nil]
    exact hkept
  cases next with
  | pushData clock data =>
    rw [ChatSseAdapter.call, pushData]
    split
    · exact hidle
    · rename_i hfinished
      rw [Bool.not_eq_true] at hfinished
      have hguard := hok hfinished
      have hfollowed := hkept.followed hfinished
      split
      · rename_i hdone
        rw [if_pos hdone] at hguard
        exact Kept.finish hfollowed hguard clock
      · rename_i hdone
        rw [if_neg hdone] at hguard
        split
        · exact hidle
        · rename_i value hvalue
          have hpushed := followed_pushDelta hfollowed clock
            (hguard value hvalue)
          have hopen : (pushDelta crates clock state.1
              (ChatDelta.read crates value)).1.finished = false :=
            (SameStream.pushDelta ..).finished.trans hfinished
          have hrecorded : Followed crates
              ((state.2 ++ (numbered (pushDelta crates clock state.1
                (ChatDelta.read crates value))).2).map NumberedEvent.event)
              (numbered (pushDelta crates clock state.1
                (ChatDelta.read crates value))).1 := by
            rw [map_event_numbered]
            exact hpushed.settings _ _ _ _ _ _
          exact ⟨fun _ => hrecorded, hrecorded.oneIdentity hopen⟩
  | finishIfTerminal clock =>
    rw [ChatSseAdapter.call, finishIfTerminal]
    split
    · exact hidle
    · rename_i hterminal
      simp only [Bool.or_eq_true, Bool.not_eq_true', not_or,
        Bool.not_eq_true, Bool.not_eq_false] at hterminal
      exact Kept.finish (hkept.followed hterminal.1)
        (hok hterminal.1 hterminal.2) clock

/-- In every stream whose calls meet the condition, each tool call has one
identity in every state reached. -/
theorem tool_call_keeps_identity (crates : Crates) (model : String)
    (toolContext : CodexToolContext)
    (namespaceContext : NamespaceToolContext) (millis : Nat)
    {calls : List ChatCall} {state : Recorded}
    (hrun : GuardedRun (record crates)
      (fun state next => CallOk crates state.1 next)
      (newWithContext model toolContext namespaceContext millis, [])
      calls state) :
    OneIdentity crates (state.2.map NumberedEvent.event) state.1 := by
  have hkept : Kept crates state := by
    refine hrun.invariant (kept_new model toolContext namespaceContext millis)
      ?_
    intro before next after hbefore hok hstep
    cases hstep
    exact hbefore.call hok
  exact hkept.oneIdentity

end Identity

namespace ProviderId

/-- A chunk that announces a call of the tool `shell` and brings its whole
arguments. -/
def chunkText (id : String) : String :=
  "\x7b\"choices\":[\x7b\"delta\":\x7b\"tool_calls\":[\x7b\"index\":0,\"id\":\"" ++
    id ++ "\",\"function\":\x7b\"name\":\"shell\",\"arguments\":" ++
    "\"\x7b\x7d\"\x7d\x7d]\x7d\x7d]\x7d"

def chunk (id : String) : Json :=
  .obj [("choices", .arr [.obj [("delta", .obj [("tool_calls", .arr
    [.obj [("index", .nat 0), ("id", .str id),
      ("function", .obj [("name", .str "shell"),
        ("arguments", .str "\x7b\x7d")])]])])]])]

/-- JSON and SHA-256 on the texts below. -/
def crates : Crates where
  fromStr text :=
    if text = chunkText "call_1" then some (chunk "call_1")
    else if text = chunkText "fc_1" then some (chunk "fc_1")
    else none
  toStr _ := ""
  sha256 text :=
    if text = "call_1" then
      [116, 25, 111, 231, 46, 76, 220, 19, 92, 16, 51, 224, 90, 46, 2, 12,
        163, 108, 15, 54, 151, 192, 133, 61, 109, 83, 86, 123, 81, 217, 245,
        143]
    else []

def clock : Clock := ⟨1, 1, 1⟩

def start : ChatSseAdapter := newWithContext "qwen" {} {} 1

/-- The call that both streams below have open after their chunk. -/
def openCall (id : String) : Nat × StreamToolCall :=
  (0, { id := id, name := "shell", arguments := "\x7b\x7d", added := true })

theorem chunkText_object (id : String) :
    ∃ rest, (chunkText id).toList = '\x7b' :: rest :=
  ⟨_, Text.toList_append_head (Text.toList_append_head
    (Text.toList_append_head String.toList_ofList _) _) _⟩

theorem call_chunkText {id : String}
    (hparse : crates.fromStr (chunkText id) = some (chunk id)) :
    call crates start (.pushData clock (chunkText id)) =
      numbered (pushDelta crates clock start
        (ChatDelta.read crates (chunk id))) := by
  obtain ⟨rest, htext⟩ := chunkText_object id
  exact call_pushData_object rfl htext hparse

/-- A provider id that is no item id: the announcement and the delta of one
call name different items. -/
theorem delta_names_other_item :
    ¬ OneIdentity crates
      ((run crates start [.pushData clock (chunkText "call_1")]).2.map
        NumberedEvent.event)
      (run crates start [.pushData clock (chunkText "call_1")]).1 := by
  rw [run, call_chunkText (if_pos rfl), run, append_nil]
  intro hone
  obtain ⟨itemId, callId, hcarries, -⟩ :=
    hone (openCall "call_1") (by decide)
  have hadded := (hcarries (.outputItemAdded 0 (functionCallItem
    "fc_vellum_74196fe72e4cdc135c1033e0" "call_1" "shell" ""
    "in_progress")) (by decide)).item _ rfl
  have hdelta := (hcarries (.argumentsDelta "call_1" 0 "\x7b\x7d")
    (by decide)).item _ rfl
  rw [← hadded] at hdelta
  revert hdelta
  decide

/-- The fragment of the stream whose provider does send an item id. -/
def fragment : CallFragment :=
  { index := 0, id := "fc_1", name := "shell", arguments := "\x7b\x7d" }

theorem fromStr_chunkText :
    crates.fromStr (chunkText "fc_1") = some (chunk "fc_1") := by
  have hother : chunkText "fc_1" ≠ chunkText "call_1" := by decide
  simp only [crates, hother, reduceIte]

theorem toolCalls_chunkText :
    (call crates start (.pushData clock (chunkText "fc_1"))).1.toolCalls =
      [openCall "fc_1"] := by
  rw [call_chunkText fromStr_chunkText]
  decide

theorem callOk_chunk :
    CallOk crates start (.pushData clock (chunkText "fc_1")) := by
  obtain ⟨rest, htext⟩ := chunkText_object "fc_1"
  intro _
  rw [if_neg (not_done_of_object htext)]
  intro value hvalue
  rw [fromStr_chunkText] at hvalue
  obtain rfl := some.inj hvalue
  have hcalls : (ChatDelta.read crates (chunk "fc_1")).calls = [fragment] := by
    decide
  rw [hcalls]
  refine ⟨⟨fun _ => by decide, ?_, fun _ _ => by decide⟩, trivial⟩
  intro label hlabel
  cases hlabel

theorem callOk_done :
    CallOk crates
      (call crates start (.pushData clock (chunkText "fc_1"))).1
      (.pushData clock "[DONE]") := by
  have hcalls := toolCalls_chunkText
  rw [call_chunkText fromStr_chunkText] at hcalls ⊢
  intro _
  rw [if_pos (by decide)]
  intro entry hentry
  rw [hcalls] at hentry
  obtain rfl := mem_singleton.mp hentry
  exact ⟨by decide, by decide⟩

/-- The recorded stream of a provider that sends an item id. -/
def recorded : Recorded :=
  let chunked := call crates start (.pushData clock (chunkText "fc_1"))
  let ended := call crates chunked.1 (.pushData clock "[DONE]")
  (ended.1, chunked.2 ++ ended.2)

theorem recorded_run :
    GuardedRun (record crates) (fun state next => CallOk crates state.1 next)
      (start, [])
      [.pushData clock (chunkText "fc_1"), .pushData clock "[DONE]"]
      recorded := by
  apply guardedRun_pair
  · exact callOk_chunk
  · exact callOk_done

theorem item_id_keeps_identity :
    recorded.1.toolCalls = [openCall "fc_1"] ∧
      recorded.1.finished = true ∧
      OneIdentity crates (recorded.2.map NumberedEvent.event) recorded.1 := by
  refine ⟨?_, ?_, ?_⟩
  · rw [recorded, call_chunkText fromStr_chunkText]
    decide
  · rw [recorded, call_chunkText fromStr_chunkText]
    decide
  · exact tool_call_keeps_identity crates "qwen" {} {} 1 recorded_run

end ProviderId

end ChatSseAdapter

end Vellum.Proxy

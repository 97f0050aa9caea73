/-
Hydration of a request with its stored history.  The stored items go in front
of the current ones; items that the client sent along are skipped, but only
where they are sure to be the stored ones.
-/
import Vellum.Library.JsonEq
import Vellum.Proxy.HistoryStore

namespace Vellum.Proxy

open List

/-- How a request continues the conversation before it. -/
inductive ContinuationMode where
  | serverPreviousResponseId
  | statelessEncryptedReplay
  | portableSemanticReplay

structure HydrationOutcome where
  replayedPrefixLen : Nat
  /-- Where the current items start and end. -/
  currentSuffixRange : Nat × Nat
  continuationMode : ContinuationMode
  clientCarriedFullHistory : Bool
  overlapSkipped : Nat
  sameRoute : Bool
  itemIdentities : List String

/-- The two lists of items of a stored exchange. -/
inductive Side where
  | input
  | output
deriving DecidableEq

def Side.text : Side → String
  | .input => "input"
  | .output => "output"

def HistoryEntry.itemsOf (entry : HistoryEntry) : Side → List Json
  | .input => entry.inputItems
  | .output => entry.outputItems

def storedItemIdentity (responseId : String) (side : Side) (index : Nat) :
    String :=
  "store:" ++ responseId ++ ":" ++ side.text ++ ":" ++ toString index

def requestItemIdentity (index : Nat) : String := "req:" ++ toString index

section

variable (body : Json) (chain : List HistoryEntry)

def flattenChainItems (currentItems : List Json) : List Json :=
  chain.flatMap (fun entry => entry.inputItems ++ entry.outputItems) ++
    currentItems

def flattenChainIdentities : List String :=
  chain.flatMap fun entry =>
    (List.range entry.inputItems.length).map
        (storedItemIdentity entry.responseId .input) ++
      (List.range entry.outputItems.length).map
        (storedItemIdentity entry.responseId .output)

def isToolCall (item : Json) : Bool :=
  match (item.get "type").bind Json.asStr with
  | some kind =>
    kind ∈ ["function_call", "local_shell_call", "custom_tool_call",
      "tool_search_call", "computer_call", "web_search_call"]
  | none => false

def isToolOutput (item : Json) : Bool :=
  match (item.get "type").bind Json.asStr with
  | some kind =>
    kind ∈ ["function_call_output", "local_shell_call_output",
      "custom_tool_call_output", "tool_search_output",
      "computer_call_output", "web_search_call_output"]
  | none => false

def isUserMessageItem (item : Json) : Bool :=
  (item.get "role").bind Json.asStr = some "user" && !isToolCall item &&
    !isToolOutput item

def codexLocalV0150MarkerPrefix : String := "vcompact.codex0150."

def legacyCanonicalMarkerPrefix : String := "vcomp1."

/-- An id that the provider has given the item, and not this program. -/
def hasProviderIssuedId (item : Json) : Bool :=
  let id := (((item.get "id").bind Json.asStr).or
    ((item.get "call_id").bind Json.asStr)).getD ""
  !isBlank id &&
    !(["resp_vellum_", "cmp_vellum_", "cmp_local_",
      legacyCanonicalMarkerPrefix, codexLocalV0150MarkerPrefix].any
        fun marker => marker.toList.isPrefixOf id.toList)

/-- Some entry's output, not empty, lies between the two positions of the
flattened chain; `idx` is where the chain starts. -/
def overlapIncludesFullEntryOutput (start stop : Nat) :
    Nat → List HistoryEntry → Bool
  | _, [] => false
  | idx, entry :: chain =>
    let inputEnd := idx + entry.inputItems.length
    let entryEnd := inputEnd + entry.outputItems.length
    if !entry.outputItems.isEmpty && start ≤ inputEnd && entryEnd ≤ stop then
      true
    else overlapIncludesFullEntryOutput start stop entryEnd chain

/-- The gates that an overlap of `k` items has to pass. -/
def isSafeOverlap (stored current : List Json) (k : Nat) : Bool :=
  let overlap := stored.drop (stored.length - k)
  Json.eqItems overlap (current.take k) &&
    overlapIncludesFullEntryOutput (stored.length - k) stored.length 0 chain &&
    overlap.any hasProviderIssuedId && !overlap.all isUserMessageItem

/-- The longest safe overlap, or zero. -/
def safeOverlapLen (stored current : List Json) : Nat :=
  ((List.range' 1 (min stored.length current.length)).reverse.find?
    (isSafeOverlap chain stored current)).getD 0

def restoreInput : List Json → Json
  | [item] => item
  | currentItems => .arr currentItems

/-- The request without the link that the replay stands for. -/
def stripPrevious : Json :=
  match body, ((body.get "previous_response_id").bind Json.asStr) with
  | .obj fields, some id =>
    if id.isEmpty then body
    else .obj (Json.removeField "previous_response_id" fields)
  | _, _ => body

def hydrateInputWithMode (mode : ContinuationMode) : Json × HydrationOutcome :=
  let body := stripPrevious body
  match body.get "input" with
  | none => (body, ⟨0, (0, 0), mode, false, 0, true, []⟩)
  | some original =>
    let currentItems := inputValueItems original
    let currentIdentities :=
      (List.range currentItems.length).map requestItemIdentity
    if chain.isEmpty then
      (body.modify "input" fun _ => restoreInput currentItems,
        { replayedPrefixLen := 0
          currentSuffixRange := (0, currentItems.length)
          continuationMode := mode
          clientCarriedFullHistory := false
          overlapSkipped := 0
          sameRoute := true
          itemIdentities := currentIdentities })
    else
      let stored := flattenChainItems chain []
      let storedIdentities := flattenChainIdentities chain
      let overlap := safeOverlapLen chain stored currentItems
      let prepended := stored.take (stored.length - overlap)
      let prependedIdentities :=
        storedIdentities.take (storedIdentities.length - overlap)
      let prefixLen := prepended.length + overlap
      let hydrated := prepended ++ currentItems
      let total := hydrated.length
      (body.modify "input" fun _ => .arr hydrated,
        { replayedPrefixLen := prefixLen
          currentSuffixRange := (min prefixLen total, total)
          continuationMode := mode
          clientCarriedFullHistory :=
            overlap = stored.length && !stored.isEmpty
          overlapSkipped := overlap
          sameRoute := true
          itemIdentities := prependedIdentities ++ currentIdentities })

end

/-! ### Identities -/

theorem requestItemIdentity_inj {m n : Nat}
    (heq : requestItemIdentity m = requestItemIdentity n) : m = n := by
  have hlist := congrArg String.toList heq
  simp only [requestItemIdentity, String.toList_append, Nat.toString_eq_repr,
    Nat.toList_repr] at hlist
  exact Text.toDigits_inj (append_cancel_left hlist)

theorem colon_notMem_side (side : Side) : ':' ∉ side.text.toList := by
  cases side with
  | input => decide
  | output => decide

theorem Side.text_inj {side side' : Side}
    (heq : side.text.toList = side'.text.toList) : side = side' := by
  cases side with
  | input =>
    cases side' with
    | input => rfl
    | output => exact absurd heq (by decide)
  | output =>
    cases side' with
    | input => exact absurd heq (by decide)
    | output => rfl

theorem toList_storedItemIdentity (responseId : String) (side : Side)
    (index : Nat) :
    (storedItemIdentity responseId side index).toList =
      (("store:".toList ++ responseId.toList) ++ ':' :: side.text.toList) ++
        ':' :: Nat.toDigits 10 index := by
  simp [storedItemIdentity, String.toList_append]

section

variable (entry : HistoryEntry) {input : Json} {chain : List HistoryEntry}
  {body : Json} {current : List Json} {index : Nat}

theorem storedItemIdentity_inj {id id' : String} {side side' : Side}
    {index' : Nat}
    (heq : storedItemIdentity id side index =
      storedItemIdentity id' side' index') :
    id = id' ∧ side = side' ∧ index = index' := by
  have hlist := congrArg String.toList heq
  rw [toList_storedItemIdentity, toList_storedItemIdentity] at hlist
  obtain ⟨hfront, hindex⟩ := Text.append_separator_inj
    (Text.colon_notMem_toDigits index) (Text.colon_notMem_toDigits index') hlist
  obtain ⟨hid, hside⟩ := Text.append_separator_inj (colon_notMem_side side)
    (colon_notMem_side side') hfront
  exact ⟨String.toList_inj.mp (append_cancel_left hid),
    Side.text_inj hside, Text.toDigits_inj hindex⟩

theorem storedItemIdentity_ne_requestItemIdentity (id : String) (side : Side)
    (index index' : Nat) :
    storedItemIdentity id side index ≠ requestItemIdentity index' := by
  intro heq
  have hhead := congrArg (fun text => text.toList.head?) heq
  rw [toList_storedItemIdentity] at hhead
  simp [requestItemIdentity, String.toList_append] at hhead

/-- The identities of one entry. -/
def entryIdentities (entry : HistoryEntry) : List String :=
  (List.range entry.inputItems.length).map
      (storedItemIdentity entry.responseId .input) ++
    (List.range entry.outputItems.length).map
      (storedItemIdentity entry.responseId .output)

theorem mem_entryIdentities {entry : HistoryEntry} {identity : String}
    (hmem : identity ∈ entryIdentities entry) :
    ∃ side index, identity = storedItemIdentity entry.responseId side index := by
  rcases mem_append.mp hmem with hinput | houtput
  · obtain ⟨index, _, rfl⟩ := mem_map.mp hinput
    exact ⟨.input, index, rfl⟩
  · obtain ⟨index, _, rfl⟩ := mem_map.mp houtput
    exact ⟨.output, index, rfl⟩

theorem nodup_entryIdentities : (entryIdentities entry).Nodup := by
  have hside (side : Side) (count : Nat) :
      ((List.range count).map
        (storedItemIdentity entry.responseId side)).Nodup := by
    apply nodup_range.map
    intro m n heq
    exact (storedItemIdentity_inj heq).2.2
  apply (hside .input _).append (hside .output _)
  intro identity hinput houtput
  obtain ⟨index, _, rfl⟩ := mem_map.mp hinput
  obtain ⟨index', _, heq⟩ := mem_map.mp houtput
  exact absurd (storedItemIdentity_inj heq).2.1 (by decide)

theorem mem_flattenChainIdentities {identity : String}
    (hmem : identity ∈ flattenChainIdentities chain) :
    ∃ id side index, identity = storedItemIdentity id side index := by
  obtain ⟨entry, _, hentry⟩ := mem_flatMap.mp hmem
  obtain ⟨side, index, heq⟩ := mem_entryIdentities hentry
  exact ⟨entry.responseId, side, index, heq⟩

theorem nodup_flattenChainIdentities
    (hdistinct : (chain.map HistoryEntry.responseId).Nodup) :
    (flattenChainIdentities chain).Nodup := by
  apply nodup_flatMap.mpr
  refine ⟨fun entry _ => nodup_entryIdentities entry, ?_⟩
  apply (pairwise_map.mp hdistinct).imp
  intro entry other hne identity hentry hother
  obtain ⟨side, index, rfl⟩ := mem_entryIdentities hentry
  obtain ⟨side', index', heq⟩ := mem_entryIdentities hother
  exact hne (storedItemIdentity_inj heq).1

theorem flattenChainItems_eq (chain : List HistoryEntry)
    (currentItems : List Json) :
    flattenChainItems chain currentItems =
      flattenChainItems chain [] ++ currentItems := by
  rw [flattenChainItems, flattenChainItems, append_nil]

theorem flattenChainItems_cons (chain : List HistoryEntry) :
    flattenChainItems (entry :: chain) [] =
      entry.inputItems ++ entry.outputItems ++ flattenChainItems chain [] := by
  simp [flattenChainItems]

theorem flattenChainItems_append (before after : List HistoryEntry) :
    flattenChainItems (before ++ after) [] =
      flattenChainItems before [] ++ flattenChainItems after [] := by
  simp [flattenChainItems]

theorem flattenChainIdentities_cons (chain : List HistoryEntry) :
    flattenChainIdentities (entry :: chain) =
      entryIdentities entry ++ flattenChainIdentities chain := rfl

theorem length_entryIdentities :
    (entryIdentities entry).length =
      (entry.inputItems ++ entry.outputItems).length := by
  simp [entryIdentities]

theorem length_flattenChainIdentities (chain : List HistoryEntry) :
    (flattenChainIdentities chain).length =
      (flattenChainItems chain []).length := by
  induction chain with
  | nil => rfl
  | cons entry chain ih =>
    rw [flattenChainIdentities_cons, flattenChainItems_cons,
      length_append, length_append, ih, length_entryIdentities]

theorem entryIdentities_names {entry : HistoryEntry} {item : Json}
    (hitem : (entry.inputItems ++ entry.outputItems)[index]? = some item) :
    ∃ side place,
      (entryIdentities entry)[index]? =
        some (storedItemIdentity entry.responseId side place) ∧
      (entry.itemsOf side)[place]? = some item := by
  rw [getElem?_append] at hitem
  rw [entryIdentities, getElem?_append, length_map,
    length_range]
  split at hitem
  · rename_i hlt
    refine ⟨.input, index, ?_, hitem⟩
    rw [if_pos hlt, getElem?_map, getElem?_range hlt]
    rfl
  · rename_i hge
    have hlt : index - entry.inputItems.length < entry.outputItems.length :=
      (List.getElem?_eq_some_iff.mp hitem).1
    refine ⟨.output, index - entry.inputItems.length, ?_, hitem⟩
    rw [if_neg hge, getElem?_map, getElem?_range hlt]
    rfl

/-- The identity at a position names the stored item there. -/
theorem flattenChainIdentities_names {item : Json}
    (hitem : (flattenChainItems chain [])[index]? = some item) :
    ∃ entry ∈ chain, ∃ side place,
      (flattenChainIdentities chain)[index]? =
        some (storedItemIdentity entry.responseId side place) ∧
      (entry.itemsOf side)[place]? = some item := by
  induction chain generalizing index with
  | nil => cases hitem
  | cons entry chain ih =>
    rw [flattenChainItems_cons, getElem?_append] at hitem
    rw [flattenChainIdentities_cons, getElem?_append,
      length_entryIdentities]
    split at hitem
    · rename_i hlt
      obtain ⟨side, place, hidentity, hplace⟩ := entryIdentities_names hitem
      rw [if_pos hlt]
      exact ⟨entry, mem_cons_self, side, place, hidentity, hplace⟩
    · rename_i hge
      obtain ⟨other, hother, hnames⟩ := ih hitem
      rw [if_neg hge]
      exact ⟨other, mem_cons_of_mem entry hother, hnames⟩

/-! ### The overlap -/

theorem overlapIncludesFullEntryOutput_iff {start stop idx : Nat} :
    overlapIncludesFullEntryOutput start stop idx chain = true ↔
      ∃ before entry after, chain = before ++ entry :: after ∧
        entry.outputItems ≠ [] ∧
        start ≤ idx + (flattenChainItems before []).length +
          entry.inputItems.length ∧
        idx + (flattenChainItems before []).length + entry.inputItems.length +
          entry.outputItems.length ≤ stop := by
  induction chain generalizing idx with
  | nil => simp [overlapIncludesFullEntryOutput]
  | cons entry chain ih =>
    rw [overlapIncludesFullEntryOutput]
    constructor
    · intro hincludes
      split at hincludes
      · rename_i hhere
        simp only [Bool.and_eq_true, Bool.not_eq_true', isEmpty_eq_false_iff,
          decide_eq_true_eq] at hhere
        exact ⟨[], entry, chain, rfl, hhere.1.1, hhere.1.2, hhere.2⟩
      · obtain ⟨before, other, after, rfl, hsome, hstart, hstop⟩ :=
          ih.mp hincludes
        refine ⟨entry :: before, other, after, rfl, hsome, ?_, ?_⟩
        · rw [flattenChainItems_cons, length_append, length_append]
          omega
        · rw [flattenChainItems_cons, length_append, length_append]
          omega
    · rintro ⟨before, other, after, hchain, hsome, hstart, hstop⟩
      split
      · rfl
      · rename_i hnot
        cases before with
        | nil =>
          obtain ⟨rfl, rfl⟩ := List.cons.inj hchain
          apply absurd _ hnot
          simp only [Bool.and_eq_true, Bool.not_eq_true',
            isEmpty_eq_false_iff, decide_eq_true_eq]
          exact ⟨⟨hsome, hstart⟩, hstop⟩
        | cons first before =>
          obtain ⟨rfl, rfl⟩ := List.cons.inj hchain
          rw [flattenChainItems_cons, length_append,
            length_append] at hstart hstop
          exact ih.mpr ⟨before, other, after, rfl, hsome, by omega,
            by omega⟩

/-- The last `k` stored items. -/
def storedSuffix (chain : List HistoryEntry) (k : Nat) : List Json :=
  (flattenChainItems chain []).drop ((flattenChainItems chain []).length - k)

/-- Items that the client sent along and that are sure to be stored ones: all
of an entry's output is among them, with an id from the provider. -/
structure SafeOverlap (chain : List HistoryEntry) (current : List Json)
    (k : Nat) : Prop where
  stored : k ≤ (flattenChainItems chain []).length
  sent : k ≤ current.length
  equal : Json.eqItems (storedSuffix chain k) (current.take k) = true
  output : ∃ before entry after front, chain = before ++ entry :: after ∧
    entry.outputItems ≠ [] ∧
    storedSuffix chain k =
      front ++ entry.outputItems ++ flattenChainItems after []
  issued : ∃ item ∈ storedSuffix chain k, hasProviderIssuedId item = true
  answered : ∃ item ∈ storedSuffix chain k, isUserMessageItem item = false

theorem output_in_storedSuffix_iff {before after : List HistoryEntry}
    {entry : HistoryEntry} {k : Nat}
    (hk : k ≤ (flattenChainItems (before ++ entry :: after) []).length) :
    (∃ front, storedSuffix (before ++ entry :: after) k =
        front ++ entry.outputItems ++ flattenChainItems after []) ↔
      (flattenChainItems (before ++ entry :: after) []).length - k ≤
        (flattenChainItems before []).length + entry.inputItems.length := by
  have hstored : flattenChainItems (before ++ entry :: after) [] =
      (flattenChainItems before [] ++ entry.inputItems) ++
        (entry.outputItems ++ flattenChainItems after []) := by
    rw [flattenChainItems_append, flattenChainItems_cons]
    simp
  have hlength := congrArg List.length hstored
  rw [length_append, length_append, length_append] at hlength
  constructor
  · rintro ⟨front, hfront⟩
    have hsuffix := congrArg List.length hfront
    rw [storedSuffix, length_drop, length_append,
      length_append] at hsuffix
    omega
  · intro hstart
    refine ⟨(flattenChainItems before [] ++ entry.inputItems).drop
      ((flattenChainItems (before ++ entry :: after) []).length - k), ?_⟩
    rw [append_assoc, storedSuffix]
    generalize (flattenChainItems (before ++ entry :: after) []).length - k =
      start at hstart ⊢
    rw [← length_append] at hstart
    rw [hstored, drop_append_of_le_length hstart]

theorem isSafeOverlap_iff {k : Nat}
    (hstored : k ≤ (flattenChainItems chain []).length)
    (hsent : k ≤ current.length) :
    isSafeOverlap chain (flattenChainItems chain []) current k = true ↔
      SafeOverlap chain current k := by
  have houtput : overlapIncludesFullEntryOutput
      ((flattenChainItems chain []).length - k)
      (flattenChainItems chain []).length 0 chain = true ↔
      ∃ before entry after front, chain = before ++ entry :: after ∧
        entry.outputItems ≠ [] ∧
        storedSuffix chain k =
          front ++ entry.outputItems ++ flattenChainItems after [] := by
    rw [overlapIncludesFullEntryOutput_iff]
    constructor
    · rintro ⟨before, entry, after, rfl, hsome, hstart, _⟩
      rw [Nat.zero_add] at hstart
      obtain ⟨front, hfront⟩ := (output_in_storedSuffix_iff hstored).mpr hstart
      exact ⟨before, entry, after, front, rfl, hsome, hfront⟩
    · rintro ⟨before, entry, after, front, rfl, hsome, hfront⟩
      have hstart := (output_in_storedSuffix_iff hstored).mp ⟨front, hfront⟩
      refine ⟨before, entry, after, rfl, hsome, by omega, ?_⟩
      rw [flattenChainItems_append, flattenChainItems_cons]
      simp only [length_append]
      omega
  rw [isSafeOverlap]
  simp only [Bool.and_eq_true, any_eq_true, Bool.not_eq_true',
    all_eq_false, Bool.not_eq_true]
  rw [houtput]
  constructor
  · rintro ⟨⟨⟨hequal, hfull⟩, hissued⟩, hanswered⟩
    exact ⟨hstored, hsent, hequal, hfull, hissued, hanswered⟩
  · intro hsafe
    exact ⟨⟨⟨hsafe.equal, hsafe.output⟩, hsafe.issued⟩, hsafe.answered⟩

theorem safeOverlapLen_spec (chain : List HistoryEntry) (current : List Json) :
    let overlap := safeOverlapLen chain (flattenChainItems chain []) current
    (overlap ≠ 0 → SafeOverlap chain current overlap) ∧
      ∀ k, SafeOverlap chain current k → k ≤ overlap := by
  have hbound : ∀ k, k ∈ (List.range' 1 (min (flattenChainItems chain []).length
      current.length)).reverse →
      k ≤ (flattenChainItems chain []).length ∧ k ≤ current.length := by
    intro k hk
    rw [mem_reverse, mem_range'_1] at hk
    omega
  have hlisted : ∀ k, SafeOverlap chain current k →
      k ∈ (List.range' 1 (min (flattenChainItems chain []).length
        current.length)).reverse := by
    intro k hsafe
    have hpos : k ≠ 0 := by
      rintro rfl
      obtain ⟨item, hitem, _⟩ := hsafe.issued
      rw [storedSuffix, Nat.sub_zero, drop_length] at hitem
      cases hitem
    have hstored := hsafe.stored
    have hsent := hsafe.sent
    rw [mem_reverse, mem_range'_1]
    omega
  have hsorted : (List.range' 1 (min (flattenChainItems chain []).length
      current.length)).reverse.Pairwise (fun longer k => k < longer) := by
    rw [pairwise_reverse]
    exact pairwise_lt_range'
  simp only [safeOverlapLen]
  generalize (List.range' 1 (min (flattenChainItems chain []).length
    current.length)).reverse = lengths at hbound hlisted hsorted
  cases hfind : lengths.find?
      (isSafeOverlap chain (flattenChainItems chain []) current) with
  | none =>
    refine ⟨fun hne => absurd rfl hne, ?_⟩
    intro k hsafe
    have hnot := find?_eq_none.mp hfind k (hlisted k hsafe)
    exact absurd ((isSafeOverlap_iff hsafe.stored hsafe.sent).mpr hsafe) hnot
  | some overlap =>
    obtain ⟨hsafe, longer, shorter, rfl, hlonger⟩ :=
      find?_eq_some_iff_append.mp hfind
    rw [Option.getD_some]
    obtain ⟨hstored, hsent⟩ := hbound overlap (by simp)
    refine ⟨fun _ => (isSafeOverlap_iff hstored hsent).mp hsafe, ?_⟩
    intro k hother
    rcases mem_append.mp (hlisted k hother) with hmem | hmem
    · have hnot := hlonger k hmem
      rw [(isSafeOverlap_iff hother.stored hother.sent).mpr hother] at hnot
      cases hnot
    · rcases mem_cons.mp hmem with rfl | hmem
      · exact le_rfl
      · have hpair := (pairwise_append.mp hsorted).2.1
        exact Nat.le_of_lt ((pairwise_cons.mp hpair).1 k hmem)

/-! ### What a hydrated request holds -/

/-- The request holds the stored items and the current ones, those that overlap
once, and the outcome says where each is from. -/
structure Hydrates (chain : List HistoryEntry) (current : List Json)
    (body : Json) (outcome : HydrationOutcome) : Prop where
  items : List.Forall₂ Json.Same
    (flattenChainItems chain (current.drop outcome.overlapSkipped))
    (requestInputItems body)
  counted : outcome.itemIdentities.length = (requestInputItems body).length
  nodup : outcome.itemIdentities.Nodup
  prepended : ∀ index item,
    index + outcome.overlapSkipped < (flattenChainItems chain []).length →
    (requestInputItems body)[index]? = some item →
    ∃ entry ∈ chain, ∃ side place,
      outcome.itemIdentities[index]? =
        some (storedItemIdentity entry.responseId side place) ∧
      (entry.itemsOf side)[place]? = some item
  requested : ∀ index item, current[index]? = some item →
    let place :=
      (flattenChainItems chain []).length - outcome.overlapSkipped + index
    outcome.itemIdentities[place]? = some (requestItemIdentity index) ∧
      (requestInputItems body)[place]? = some item
  replayed : outcome.replayedPrefixLen = (flattenChainItems chain []).length
  suffix : outcome.currentSuffixRange =
    (outcome.replayedPrefixLen, (requestInputItems body).length)
  within : outcome.replayedPrefixLen ≤ (requestInputItems body).length
  skipped : outcome.overlapSkipped ≠ 0 →
    SafeOverlap chain current outcome.overlapSkipped
  longest : ∀ k, SafeOverlap chain current k → k ≤ outcome.overlapSkipped

/-- An input of one item that is not an object: taken out of its array it is
read as something else. -/
def Unwraps (input : Json) : Prop :=
  ∃ item, input = .arr [item] ∧ ∀ fields, item ≠ .obj fields

/-- The skipped items are in the request, as the client sent them. -/
theorem same_stored_append {overlap : Nat}
    (hsafe : overlap ≠ 0 → SafeOverlap chain current overlap) :
    List.Forall₂ Json.Same (flattenChainItems chain (current.drop overlap))
      ((flattenChainItems chain []).take
        ((flattenChainItems chain []).length - overlap) ++ current) := by
  have hrefl (items : List Json) : List.Forall₂ Json.Same items items :=
    List.forall₂_same.mpr fun item _ => Json.Same.refl item
  rw [flattenChainItems_eq chain (current.drop overlap)]
  by_cases hzero : overlap = 0
  · subst hzero
    rw [Nat.sub_zero, take_length, drop_zero]
    exact hrefl _
  · have hequal := Json.same_of_eqItems (hsafe hzero).equal
    have hsplit : flattenChainItems chain [] =
        (flattenChainItems chain []).take
          ((flattenChainItems chain []).length - overlap) ++
            storedSuffix chain overlap :=
      (take_append_drop _ _).symm
    conv_lhs => rw [hsplit, append_assoc]
    have hsent : current = current.take overlap ++ current.drop overlap :=
      (take_append_drop _ _).symm
    conv_rhs => rw [hsent]
    exact rel_append (hrefl _) (rel_append hequal (hrefl _))

theorem hydrates_of_items {outcome : HydrationOutcome}
    (hdistinct : (chain.map HistoryEntry.responseId).Nodup)
    (hitems : requestInputItems body =
      (flattenChainItems chain []).take ((flattenChainItems chain []).length -
        outcome.overlapSkipped) ++ current)
    (hidentities : outcome.itemIdentities =
      (flattenChainIdentities chain).take ((flattenChainIdentities chain).length -
        outcome.overlapSkipped) ++
        (List.range current.length).map requestItemIdentity)
    (hreplayed : outcome.replayedPrefixLen =
      (flattenChainItems chain []).length)
    (hsuffix : outcome.currentSuffixRange =
      (outcome.replayedPrefixLen, (requestInputItems body).length))
    (hskipped : outcome.overlapSkipped ≠ 0 →
      SafeOverlap chain current outcome.overlapSkipped)
    (hlongest : ∀ k, SafeOverlap chain current k →
      k ≤ outcome.overlapSkipped) : Hydrates chain current body outcome := by
  have hcount := length_flattenChainIdentities chain
  have hbound : outcome.overlapSkipped ≤ current.length ∧
      outcome.overlapSkipped ≤ (flattenChainItems chain []).length := by
    by_cases hzero : outcome.overlapSkipped = 0
    · omega
    · exact ⟨(hskipped hzero).sent, (hskipped hzero).stored⟩
  have hfront : ((flattenChainItems chain []).take
      ((flattenChainItems chain []).length - outcome.overlapSkipped)).length =
      (flattenChainItems chain []).length - outcome.overlapSkipped := by
    rw [length_take]
    omega
  have hfrontIdentities : ((flattenChainIdentities chain).take
      ((flattenChainIdentities chain).length - outcome.overlapSkipped)).length =
      (flattenChainItems chain []).length - outcome.overlapSkipped := by
    rw [length_take, hcount]
    omega
  constructor
  case items =>
    rw [hitems]
    exact same_stored_append hskipped
  case counted =>
    rw [hitems, hidentities, length_append, length_append, hfront,
      hfrontIdentities, length_map, length_range]
  case nodup =>
    rw [hidentities]
    apply List.Nodup.append
    · exact (nodup_flattenChainIdentities hdistinct).sublist
        (take_sublist _ _)
    · apply nodup_range.map
      intro m n heq
      exact requestItemIdentity_inj heq
    · intro identity hstored hsent
      obtain ⟨id, side, index, rfl⟩ :=
        mem_flattenChainIdentities (mem_of_mem_take hstored)
      obtain ⟨index', _, heq⟩ := mem_map.mp hsent
      exact storedItemIdentity_ne_requestItemIdentity id side index index'
        heq.symm
  case prepended =>
    intro index item hindex hitem
    rw [hitems, getElem?_append_left (by omega),
      getElem?_take_of_lt (by omega)] at hitem
    rw [hidentities, getElem?_append_left (by omega),
      getElem?_take_of_lt (by omega)]
    exact flattenChainIdentities_names hitem
  case requested =>
    intro index item hitem
    have hlt := (List.getElem?_eq_some_iff.mp hitem).1
    constructor
    · rw [hidentities, getElem?_append_right (by omega), hfrontIdentities,
        Nat.add_sub_cancel_left, getElem?_map, getElem?_range hlt]
      rfl
    · rw [hitems, getElem?_append_right (by omega), hfront,
        Nat.add_sub_cancel_left]
      exact hitem
  case replayed => exact hreplayed
  case suffix => exact hsuffix
  case within =>
    rw [hreplayed, hitems, length_append, hfront]
    omega
  case skipped => exact hskipped
  case longest => exact hlongest

theorem get_stripPrevious (htidy : body.Tidy) :
    (stripPrevious body).get "input" = body.get "input" := by
  cases body with
  | obj fields =>
    cases hprevious : ((Json.obj fields).get "previous_response_id").bind
        Json.asStr with
    | none => simp only [stripPrevious, hprevious]
    | some id =>
      simp only [stripPrevious, hprevious]
      split
      · rfl
      · exact Json.get_removeField (htidy fields rfl) (by decide)
  | null => rfl
  | bool => rfl
  | num => rfl
  | str => rfl
  | arr => rfl

theorem requestInputItems_modify (hinput : body.get "input" = some input)
    (value : Json) :
    requestInputItems (body.modify "input" fun _ => value) =
      inputValueItems value := by
  rw [requestInputItems, Json.get_modify, if_pos rfl, hinput]
  rfl

/-- Items are restored as they were, unless there is one and it is not an
object. -/
theorem inputValueItems_restoreInput (hinput : ¬ Unwraps input) :
    inputValueItems (restoreInput (inputValueItems input)) =
      inputValueItems input := by
  cases input with
  | arr items =>
    match items with
    | [] => rfl
    | [item] =>
      cases item with
      | obj fields => rfl
      | null => exact absurd ⟨_, rfl, by rintro _ ⟨⟩⟩ hinput
      | bool => exact absurd ⟨_, rfl, by rintro _ ⟨⟩⟩ hinput
      | num => exact absurd ⟨_, rfl, by rintro _ ⟨⟩⟩ hinput
      | str => exact absurd ⟨_, rfl, by rintro _ ⟨⟩⟩ hinput
      | arr => exact absurd ⟨_, rfl, by rintro _ ⟨⟩⟩ hinput
    | _ :: _ :: _ => rfl
  | obj fields => rfl
  | str text => rfl
  | null => rfl
  | bool => rfl
  | num => rfl

theorem not_same_of_unwraps (hinput : Unwraps input) :
    ¬ List.Forall₂ Json.Same (inputValueItems input)
      (inputValueItems (restoreInput (inputValueItems input))) := by
  obtain ⟨item, rfl, hitem⟩ := hinput
  intro hsame
  change List.Forall₂ Json.Same [item] (inputValueItems item) at hsame
  cases item with
  | obj fields => exact hitem fields rfl
  | null => cases hsame
  | bool => cases hsame
  | num => cases hsame
  | str text =>
    obtain ⟨hhead, _⟩ := List.forall₂_cons.mp hsame
    rcases hhead with heq | heq
    · cases heq
    · cases heq
  | arr items =>
    match items, hsame with
    | [other], hsame =>
      exact Json.not_same_singleton other (List.forall₂_cons.mp hsame).1

end

section Hydrate

variable {body input : Json} (htidy : body.Tidy)
  (hinput : body.get "input" = some input) (mode : ContinuationMode)

include htidy hinput

theorem items_of_empty_chain :
    requestInputItems (hydrateInputWithMode body [] mode).1 =
      inputValueItems (restoreInput (inputValueItems input)) := by
  rw [← get_stripPrevious htidy] at hinput
  simp only [hydrateInputWithMode, hinput]
  exact requestInputItems_modify hinput _

theorem hydrates_of_empty_chain (hwrapped : ¬ Unwraps input) :
    Hydrates [] (inputValueItems input)
      (hydrateInputWithMode body [] mode).1
      (hydrateInputWithMode body [] mode).2 := by
  have hitems := items_of_empty_chain htidy hinput mode
  rw [inputValueItems_restoreInput hwrapped] at hitems
  rw [← get_stripPrevious htidy] at hinput
  have houtcome : (hydrateInputWithMode body [] mode).2 =
      { replayedPrefixLen := 0
        currentSuffixRange := (0, (inputValueItems input).length)
        continuationMode := mode
        clientCarriedFullHistory := false
        overlapSkipped := 0
        sameRoute := true
        itemIdentities := (List.range (inputValueItems input).length).map
          requestItemIdentity } := by
    simp only [hydrateInputWithMode, hinput]
    rfl
  have hdistinct : (([] : List HistoryEntry).map
      HistoryEntry.responseId).Nodup := nodup_nil
  rw [houtcome]
  apply hydrates_of_items hdistinct
  · rw [hitems]
    rfl
  · rfl
  · rfl
  · rw [hitems]
  · intro hne
    exact absurd rfl hne
  · intro k hsafe
    exact hsafe.stored

theorem hydrates_of_chain {chain : List HistoryEntry} (hchain : chain ≠ [])
    (hdistinct : (chain.map HistoryEntry.responseId).Nodup) :
    Hydrates chain (inputValueItems input)
      (hydrateInputWithMode body chain mode).1
      (hydrateInputWithMode body chain mode).2 := by
  rw [← get_stripPrevious htidy] at hinput
  obtain ⟨hskipped, hlongest⟩ :=
    safeOverlapLen_spec chain (inputValueItems input)
  have hempty : chain.isEmpty = false := isEmpty_eq_false_iff.mpr hchain
  have hbound : safeOverlapLen chain (flattenChainItems chain [])
        (inputValueItems input) ≤ (inputValueItems input).length ∧
      safeOverlapLen chain (flattenChainItems chain [])
        (inputValueItems input) ≤ (flattenChainItems chain []).length := by
    by_cases hzero : safeOverlapLen chain (flattenChainItems chain [])
        (inputValueItems input) = 0
    · omega
    · exact ⟨(hskipped hzero).sent, (hskipped hzero).stored⟩
  have hitems (items : List Json) :
      requestInputItems ((stripPrevious body).modify "input" fun _ =>
        .arr items) = items :=
    requestInputItems_modify hinput (.arr items)
  simp only [hydrateInputWithMode, hinput, hempty, Bool.false_eq_true,
    if_false]
  apply hydrates_of_items hdistinct
  · rw [hitems]
  · rfl
  · simp only [length_take]
    omega
  · rw [hitems]
    simp only [length_append, length_take]
    rw [min_eq_left (by omega)]
  · exact hskipped
  · exact hlongest

end Hydrate

/-- A request is hydrated without a loss, unless there is no history and its
one item is not an object. -/
theorem hydrates_iff {body input : Json} (chain : List HistoryEntry)
    (mode : ContinuationMode) (htidy : body.Tidy)
    (hinput : body.get "input" = some input)
    (hdistinct : (chain.map HistoryEntry.responseId).Nodup) :
    Hydrates chain (inputValueItems input)
        (hydrateInputWithMode body chain mode).1
        (hydrateInputWithMode body chain mode).2 ↔
      ¬ (chain = [] ∧ Unwraps input) := by
  by_cases hchain : chain = []
  · subst hchain
    constructor
    · rintro hhydrates ⟨_, hunwraps⟩
      have hsame := hhydrates.items
      have hnone : (hydrateInputWithMode body [] mode).2.overlapSkipped = 0 := by
        by_contra hne
        have hstored := (hhydrates.skipped hne).stored
        exact hne (Nat.le_zero.mp hstored)
      rw [items_of_empty_chain htidy hinput mode, hnone, drop_zero] at hsame
      exact not_same_of_unwraps hunwraps hsame
    · intro hnot
      exact hydrates_of_empty_chain htidy hinput mode
        fun hunwraps => hnot ⟨rfl, hunwraps⟩
  · constructor
    · rintro _ ⟨hempty, _⟩
      exact hchain hempty
    · intro _
      exact hydrates_of_chain htidy hinput mode hchain hdistinct

namespace Resent

/-- A stored exchange of one message each way. -/
def entry : HistoryEntry where
  responseId := "resp_1"
  previousResponseId := none
  routeId := "route"
  continuationRealm := none
  inputItems := [.obj [("role", .str "user"), ("content", .str "first")]]
  outputItems :=
    [.obj [("id", .str "msg_1"), ("role", .str "assistant")]]
  createdAt := 1

/-- The client sends the exchange along, the fields of the answer in another
order. -/
def input : Json :=
  .arr [.obj [("role", .str "user"), ("content", .str "first")],
    .obj [("role", .str "assistant"), ("id", .str "msg_1")],
    .obj [("role", .str "user"), ("content", .str "second")]]

def body : Json :=
  .obj [("previous_response_id", .str "resp_1"), ("input", input)]

theorem resent_exchange_hydrated :
    Hydrates [entry] (inputValueItems input)
        (hydrateInputWithMode body [entry] .portableSemanticReplay).1
        (hydrateInputWithMode body [entry] .portableSemanticReplay).2 ∧
      (hydrateInputWithMode body [entry]
        .portableSemanticReplay).2.overlapSkipped = 2 := by
  have htidy : body.Tidy := by
    intro fields hfields
    rw [← Json.obj.inj hfields]
    decide
  refine ⟨(hydrates_iff [entry] .portableSemanticReplay htidy rfl
    (nodup_singleton _)).mpr ?_, by decide⟩
  rintro ⟨hempty, _⟩
  cases hempty

/-- An array in the array is taken for the items. -/
theorem nested_items_unwrapped :
    requestInputItems (hydrateInputWithMode
        (.obj [("input", .arr [.arr [.str "a", .str "b"]])]) []
        .portableSemanticReplay).1 = [.str "a", .str "b"] ∧
      (hydrateInputWithMode
        (.obj [("input", .arr [.arr [.str "a", .str "b"]])]) []
        .portableSemanticReplay).2.itemIdentities = ["req:0"] ∧
      ¬ Hydrates [] (inputValueItems (.arr [.arr [.str "a", .str "b"]]))
        (hydrateInputWithMode
          (.obj [("input", .arr [.arr [.str "a", .str "b"]])]) []
          .portableSemanticReplay).1
        (hydrateInputWithMode
          (.obj [("input", .arr [.arr [.str "a", .str "b"]])]) []
          .portableSemanticReplay).2 := by
  refine ⟨by decide, by decide, ?_⟩
  intro hhydrates
  exact absurd hhydrates.counted (by decide)

end Resent

end Vellum.Proxy

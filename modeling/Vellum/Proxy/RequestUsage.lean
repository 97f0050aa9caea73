/-
Binding the token usage of provider requests to the places of a conversation
where the requests begin (`investigation_runtime.rs`,
`attach_usage_to_request_boundaries`).  One pass over the usages: a usage that
has a place keeps it, one that names a response goes to that response's
boundary if it is free, and any other one takes the first free boundary.
-/
import Vellum.Library.Json
import Vellum.Library.Text

namespace Vellum.Proxy

structure RequestBoundary where
  responseId : Option String
  firstSourceIndex : Nat
  lastSourceIndex : Nat
deriving DecidableEq

structure CompletedRequestUsage where
  responseId : Option String
  sourceIndex : Option Nat
deriving DecidableEq

/-- A usage that is given the place of a boundary. -/
def CompletedRequestUsage.bindTo (usage : CompletedRequestUsage)
    (boundary : RequestBoundary) : CompletedRequestUsage :=
  { usage with sourceIndex := some boundary.firstSourceIndex }

/-! Where requests begin. -/

/-- The response that a stored item comes from. -/
def identityResponseId (identity : String) : Option String :=
  if "store:".toList.isPrefixOf identity.toList then
    ((identity.toList.splitOnP (· = ':'))[1]?).map String.ofList
  else none

def isModelOutput (item : Json) : Bool :=
  let itemType := (item.get "type").bind Json.asStr
  itemType = some "function_call" ||
    (itemType = some "message" &&
      (item.get "role").bind Json.asStr = some "assistant")

/-- The boundaries behind some items; `current` is the one that is open, and
`inModelTurn` tells whether the item before belongs to it. -/
def boundariesFrom (current : Option RequestBoundary) (inModelTurn : Bool)
    (index : Nat) : List (Json × String) → List RequestBoundary
  | [] => current.toList
  | (item, identity) :: rest =>
    let responseId := identityResponseId identity
    if isModelOutput item then
      if inModelTurn then
        let joined := current.map fun boundary =>
          { boundary with
            lastSourceIndex := index
            responseId := boundary.responseId.or responseId }
        boundariesFrom joined true (index + 1) rest
      else
        current.toList ++
          boundariesFrom (some ⟨responseId, index, index⟩) true (index + 1)
            rest
    else boundariesFrom current false (index + 1) rest

def extractRequestBoundaries (rawItems : List Json)
    (identities : List String) : List RequestBoundary :=
  boundariesFrom none false 0
    (rawItems.mapIdx fun index item => (item, identities.getD index ""))

/-- The open boundary begins before the next item, and every later one behind
it, so no two boundaries begin at one item. -/
theorem boundariesFrom_firsts (current : Option RequestBoundary)
    (inModelTurn : Bool) (index : Nat) (items : List (Json × String))
    (hcurrent : ∀ boundary, current = some boundary →
      boundary.firstSourceIndex < index) :
    (boundariesFrom current inModelTurn index items).Pairwise
        (fun left right => left.firstSourceIndex < right.firstSourceIndex) ∧
      ∀ boundary ∈ boundariesFrom current inModelTurn index items,
        index ≤ boundary.firstSourceIndex ∨
          ∃ opened, current = some opened ∧
            boundary.firstSourceIndex = opened.firstSourceIndex := by
  induction items generalizing current inModelTurn index with
  | nil =>
    cases current with
    | none => simp [boundariesFrom]
    | some opened => simp [boundariesFrom]
  | cons entry rest ih =>
    obtain ⟨item, identity⟩ := entry
    have hlater : ∀ boundary, current = some boundary →
        boundary.firstSourceIndex < index + 1 :=
      fun boundary hsome => Nat.lt_succ_of_lt (hcurrent boundary hsome)
    simp only [boundariesFrom]
    split_ifs with houtput hturn
    · -- The open boundary is prolonged; it begins where it did.
      obtain ⟨hpairwise, hfirsts⟩ := ih (current.map fun boundary =>
          { boundary with
            lastSourceIndex := index
            responseId := boundary.responseId.or
              (identityResponseId identity) }) true (index + 1) (by
        intro boundary hsome
        obtain ⟨opened, hopened, rfl⟩ := Option.map_eq_some_iff.mp hsome
        exact hlater opened hopened)
      refine ⟨hpairwise, ?_⟩
      intro boundary hmem
      rcases hfirsts boundary hmem with hle | ⟨joined, hjoined, hfirst⟩
      · exact Or.inl (Nat.le_of_succ_le hle)
      · obtain ⟨opened, hopened, rfl⟩ := Option.map_eq_some_iff.mp hjoined
        exact Or.inr ⟨opened, hopened, hfirst⟩
    · obtain ⟨hpairwise, hfirsts⟩ := ih
        (some ⟨identityResponseId identity, index, index⟩) true (index + 1)
        (by
          intro boundary hsome
          cases hsome
          exact Nat.lt_succ_self index)
      have hbehind : ∀ boundary ∈ boundariesFrom
          (some ⟨identityResponseId identity, index, index⟩) true
          (index + 1) rest, index ≤ boundary.firstSourceIndex := by
        intro boundary hmem
        rcases hfirsts boundary hmem with hle | ⟨opened, hopened, hfirst⟩
        · exact Nat.le_of_succ_le hle
        · cases hopened
          exact hfirst.ge
      cases current with
      | none => exact ⟨hpairwise, fun boundary hmem =>
        Or.inl (hbehind boundary hmem)⟩
      | some opened =>
        refine ⟨?_, ?_⟩
        · refine List.pairwise_cons.mpr ⟨?_, hpairwise⟩
          intro boundary hmem
          exact Nat.lt_of_lt_of_le (hcurrent opened rfl)
            (hbehind boundary hmem)
        · intro boundary hmem
          rcases List.mem_cons.mp hmem with rfl | hmem
          · exact Or.inr ⟨boundary, rfl, rfl⟩
          · exact Or.inl (hbehind boundary hmem)
    · obtain ⟨hpairwise, hfirsts⟩ := ih current false (index + 1) hlater
      refine ⟨hpairwise, ?_⟩
      intro boundary hmem
      rcases hfirsts boundary hmem with hle | hopened
      · exact Or.inl (Nat.le_of_succ_le hle)
      · exact Or.inr hopened

theorem nodup_extractRequestBoundaries (rawItems : List Json)
    (identities : List String) :
    ((extractRequestBoundaries rawItems identities).map
      RequestBoundary.firstSourceIndex).Nodup := by
  have hfirsts := (boundariesFrom_firsts none false 0
    (rawItems.mapIdx fun index item => (item, identities.getD index ""))
    (by intro boundary hsome; cases hsome)).1
  exact List.pairwise_map.mpr (hfirsts.imp Nat.ne_of_lt)

/-! The pass over the usages. -/

structure AttachState where
  cursor : Nat
  used : List Bool

/-- The cursor behind the used boundaries it stands at. -/
def skipUsed (state : AttachState) : Nat :=
  state.cursor + ((state.used.drop state.cursor).takeWhile id).length

/-- The boundary a usage names, if it is not used yet. -/
def findNamed (boundaries : List RequestBoundary) (used : List Bool)
    (responseId : Option String) : Option (RequestBoundary × Nat) :=
  responseId.bind fun respId =>
    boundaries.zipIdx.find? fun entry =>
      !used.getD entry.2 true && entry.1.responseId = some respId

/-- The body of the loop: the usage as it is left, and the state behind it. -/
def attachOne (boundaries : List RequestBoundary) (state : AttachState)
    (usage : CompletedRequestUsage) : CompletedRequestUsage × AttachState :=
  match usage.sourceIndex with
  | some sourceIndex =>
    match boundaries.findIdx? fun boundary =>
        boundary.firstSourceIndex = sourceIndex with
    | some index =>
      (usage, { state with used := state.used.set index true })
    | none => (usage, state)
  | none =>
  match findNamed boundaries state.used usage.responseId with
  | some (matched, index) =>
    (usage.bindTo matched, { state with used := state.used.set index true })
  | none =>
    let cursor := skipUsed state
    match boundaries[cursor]? with
    | some matched =>
      (usage.bindTo matched, ⟨cursor + 1, state.used.set cursor true⟩)
    | none =>
      match boundaries.getLast? with
      | some last => (usage.bindTo last, ⟨cursor, state.used⟩)
      | none => (usage, ⟨cursor, state.used⟩)

def attachFrom (boundaries : List RequestBoundary) (state : AttachState) :
    List CompletedRequestUsage → List CompletedRequestUsage
  | [] => []
  | usage :: rest =>
    let next := attachOne boundaries state usage
    next.1 :: attachFrom boundaries next.2 rest

def attachUsageToRequestBoundaries (usages : List CompletedRequestUsage)
    (boundaries : List RequestBoundary) : List CompletedRequestUsage :=
  attachFrom boundaries ⟨0, List.replicate boundaries.length false⟩ usages

end Vellum.Proxy

/-
Which task revision an operation of a conversation belongs to
(`investigation_runtime.rs`, `task_revisions_by_source`).  Without a revision
from the host every new user message counts one up.  With one, the visible
user turns are counted backwards from it, and an operation belongs to the turn
it stands behind.
-/
import Vellum.Library.Arrivals
import Vellum.Proxy.CodexLocalCompact
import Vellum.Proxy.EvidenceOperation

namespace Vellum.Proxy

open List

structure InvestigationHistoryBoundary where
  checkpointIndex : Option Nat
  retainedTailCount : Nat

/-- The turn of a user message of the host that carries the user's own text. -/
def codexUserInstructionTurnId (item : Json) : Option String :=
  if (item.get "role").bind Json.asStr ≠ some "user" then none
  else
    (item.get "internal_chat_message_metadata_passthrough").bind
      fun metadata =>
        let isUserText :=
          ((metadata.get "content_item_kinds").bind Json.asArr).any fun kinds =>
            kinds.any fun kind => kind.asStr = some "user.text"
        if isUserText then (metadata.get "turn_id").bind Json.asStr else none

/-- The turns of a history, each where it comes first. -/
def instructionTurns (items : List Json) : List String :=
  Arrivals.arriveAll [] (items.filterMap codexUserInstructionTurnId)

/-- A walk over the history: every item is observed, and an operation that
stands at it is given the revision reached there. -/
def assignFrom {S : Type} (observe : Nat → S → Json → S) (revision : S → Nat)
    (wanted : Nat → Bool) (index : Nat) (state : S) :
    List Json → List (Nat × Nat)
  | [] => []
  | item :: rest =>
    let next := observe index state item
    (if wanted index then [(index, revision next)] else []) ++
      assignFrom observe revision wanted (index + 1) next rest

/-- The state at the end of such a walk. -/
def walkItems {S : Type} (observe : Nat → S → Json → S) (index : Nat)
    (state : S) : List Json → S
  | [] => state
  | item :: rest =>
    walkItems observe (index + 1) (observe index state item) rest

/-- How many turns are behind, and the revision of the last one. -/
structure TurnWalk where
  turnIndex : Nat
  revision : Nat

def observeTurn (turns : List String) (firstVisible : Nat) (walk : TurnWalk)
    (item : Json) : TurnWalk :=
  match codexUserInstructionTurnId item with
  | none => walk
  | some turn =>
    if turns[walk.turnIndex]? = some turn then
      ⟨saturatingAdd walk.turnIndex 1,
        saturatingAdd firstVisible walk.turnIndex⟩
    else walk

def observeUser (firstNew : Nat) (leadingUserIsCarriedContext : Bool)
    (index revision : Nat) (item : Json) : Nat :=
  let carriedUser := leadingUserIsCarriedContext && index = firstNew
  if index ≥ firstNew && !carriedUser &&
      (item.get "role").bind Json.asStr = some "user" then
    saturatingAdd revision 1
  else revision

/-- The first revision that a visible turn belongs to. -/
def firstVisibleRevision (turns : List String) (finalRevision : Nat) : Nat :=
  max (finalRevision - (turns.length - 1)) 1

/-- The revisions by the index of the item, in the order they are inserted,
and the revision of the whole history. -/
def taskRevisionsBySource (items : List Json)
    (operations : List EvidenceOperation)
    (boundary : InvestigationHistoryBoundary) (initialRevision : UInt64)
    (leadingUserIsCarriedContext : Bool)
    (authoritativeTaskRevision : Option UInt64) : List (Nat × Nat) × Nat :=
  let firstNew := (boundary.checkpointIndex.map fun index =>
    saturatingAdd (saturatingAdd index boundary.retainedTailCount) 1).getD 0
  let wanted index := operations.any fun operation =>
    operation.sourceIndex = index
  match authoritativeTaskRevision with
  | some finalRevision =>
    let turns := instructionTurns items
    let firstVisible := firstVisibleRevision turns finalRevision.toNat
    let start := if turns = [] then finalRevision.toNat else firstVisible
    (assignFrom (fun _ => observeTurn turns firstVisible) TurnWalk.revision
        wanted 0 ⟨0, start⟩ items,
      max finalRevision.toNat initialRevision.toNat)
  | none =>
    let observe := observeUser firstNew leadingUserIsCarriedContext
    (assignFrom observe id wanted 0 initialRevision.toNat items,
      walkItems observe 0 initialRevision.toNat items)

section Walk

variable {S : Type} (observe : Nat → S → Json → S) (revision : S → Nat)
  (wanted : Nat → Bool)

/-- The revision given at an item is that of the walk up to it. -/
theorem assignFrom_eq (index : Nat) (state : S) (items : List Json) :
    assignFrom observe revision wanted index state items =
      ((List.range items.length).filter fun k => wanted (index + k)).map
        fun k => (index + k,
          revision (walkItems observe index state (items.take (k + 1)))) := by
  induction items generalizing index state with
  | nil => rfl
  | cons item rest ih =>
    rw [assignFrom, ih, length_cons, range_succ_eq_map,
      filter_cons, filter_map]
    have hshift : ∀ k, index + 1 + k = index + (k + 1) := fun k => by omega
    by_cases hwanted : wanted index
    · simp [hwanted, hshift, walkItems, Function.comp_def]
    · simp [hwanted, hshift, walkItems, Function.comp_def]

theorem mem_assignFrom_iff (state : S) (items : List Json)
    (entry : Nat × Nat) :
    entry ∈ assignFrom observe revision wanted 0 state items ↔
      entry.1 < items.length ∧ wanted entry.1 = true ∧
        entry.2 =
          revision (walkItems observe 0 state (items.take (entry.1 + 1))) := by
  obtain ⟨index, value⟩ := entry
  rw [assignFrom_eq]
  simp only [mem_map, mem_filter, mem_range, Nat.zero_add,
    Prod.mk.injEq]
  constructor
  · rintro ⟨k, ⟨hlt, hwanted⟩, rfl, rfl⟩
    exact ⟨hlt, hwanted, rfl⟩
  · rintro ⟨hlt, hwanted, rfl⟩
    exact ⟨index, ⟨hlt, hwanted⟩, rfl, rfl⟩

/-- The entries stand in the order of their items; where the revision of the
walk never falls, they do not fall either. -/
theorem assignFrom_pairwise (state : S) (items : List Json)
    (hmono : ∀ j k, j ≤ k →
      revision (walkItems observe 0 state (items.take j)) ≤
        revision (walkItems observe 0 state (items.take k))) :
    (assignFrom observe revision wanted 0 state items).Pairwise
      fun left right => left.1 < right.1 ∧ left.2 ≤ right.2 := by
  rw [assignFrom_eq, pairwise_map]
  apply List.Pairwise.filter
  refine pairwise_lt_range.imp ?_
  intro j k hlt
  exact ⟨by omega, hmono (j + 1) (k + 1) (by omega)⟩

theorem walkItems_append (index : Nat) (state : S) (front rest : List Json) :
    walkItems observe index state (front ++ rest) =
      walkItems observe (index + front.length)
        (walkItems observe index state front) rest := by
  induction front generalizing index state with
  | nil => rfl
  | cons item front ih =>
    rw [cons_append, walkItems, ih, length_cons, walkItems]
    congr 1
    omega

/-- What an observation keeps holds along the walk, and where no observation
lowers the revision the walk does not either. -/
theorem le_walkItems {Holds : S → Prop}
    (hstep : ∀ index state item, Holds state →
      Holds (observe index state item) ∧
        revision state ≤ revision (observe index state item))
    (index : Nat) (items : List Json) {state : S} (hstate : Holds state) :
    Holds (walkItems observe index state items) ∧
      revision state ≤ revision (walkItems observe index state items) := by
  induction items generalizing index state with
  | nil => exact ⟨hstate, Nat.le_refl _⟩
  | cons item rest ih =>
    obtain ⟨hnext, hle⟩ := hstep index state item hstate
    obtain ⟨hend, hrest⟩ := ih (index + 1) hnext
    exact ⟨hend, hle.trans hrest⟩

theorem walkItems_take_mono {Holds : S → Prop}
    (hstep : ∀ index state item, Holds state →
      Holds (observe index state item) ∧
        revision state ≤ revision (observe index state item))
    {state : S} (hstate : Holds state) (items : List Json) {j k : Nat}
    (hle : j ≤ k) :
    revision (walkItems observe 0 state (items.take j)) ≤
      revision (walkItems observe 0 state (items.take k)) := by
  obtain ⟨more, rfl⟩ := Nat.exists_eq_add_of_le hle
  rw [take_add, walkItems_append]
  have hfront := (le_walkItems observe revision hstep 0 (items.take j) hstate).1
  exact (le_walkItems observe revision hstep _ _ hfront).2

end Walk

theorem instructionTurns_append (front rest : List Json) :
    instructionTurns (front ++ rest) =
      Arrivals.arriveAll (instructionTurns front)
        (rest.filterMap codexUserInstructionTurnId) := by
  rw [instructionTurns, filterMap_append, Arrivals.arriveAll_append]
  rfl

theorem length_instructionTurns_le (items : List Json) :
    (instructionTurns items).length ≤ items.length := by
  induction items using reverseRecOn with
  | nil => exact Nat.le_refl 0
  | append_singleton front item ih =>
    rw [instructionTurns_append, length_append, length_singleton]
    cases hturn : codexUserInstructionTurnId item with
    | none => simpa [hturn, Arrivals.arriveAll] using Nat.le_succ_of_le ih
    | some turn =>
      simp only [filterMap_cons, hturn, filterMap_nil,
        Arrivals.arriveAll, Arrivals.arrive]
      split
      · exact Nat.le_succ_of_le ih
      · simpa using ih

theorem length_instructionTurns_mono {front rest : List Json} :
    (instructionTurns front).length ≤
      (instructionTurns (front ++ rest)).length := by
  rw [instructionTurns_append]
  exact (Arrivals.prefix_arriveAll _ _).length_le

theorem walkItems_observeTurn {turns : List String} (firstVisible start : Nat)
    (front rest : List Json) (hturns : instructionTurns (front ++ rest) = turns)
    (hlength : turns.length ≤ usizeMax) :
    walkItems (fun _ => observeTurn turns firstVisible) 0 ⟨0, start⟩ front =
      ⟨(instructionTurns front).length,
        if instructionTurns front = [] then start
        else saturatingAdd firstVisible
          ((instructionTurns front).length - 1)⟩ := by
  induction front using reverseRecOn generalizing rest with
  | nil => rfl
  | append_singleton front item ih =>
    have hfront : instructionTurns (front ++ item :: rest) = turns := by
      rw [← hturns, append_assoc, singleton_append]
    rw [walkItems_append, ih (item :: rest) hfront, walkItems, walkItems,
      instructionTurns_append front [item], observeTurn]
    rw [instructionTurns_append] at hfront
    cases hturn : codexUserInstructionTurnId item with
    | none => simp [hturn, Arrivals.arriveAll]
    | some turn =>
      rw [filterMap_cons_some hturn, Arrivals.arriveAll] at hfront
      have hnodup : turns.Nodup := by
        rw [← hturns]
        exact Arrivals.nodup_arriveAll nodup_nil _
      have hkept := Arrivals.prefix_arriveAll
        (Arrivals.arrive (instructionTurns front) turn)
        (rest.filterMap codexUserInstructionTurnId)
      rw [hfront] at hkept
      simp only [filterMap_cons, hturn, filterMap_nil,
        Arrivals.arriveAll]
      by_cases hmem : turn ∈ instructionTurns front
      · -- A turn seen before is not the next one.
        rw [Arrivals.arrive_of_mem hmem] at hkept ⊢
        obtain ⟨more, hmore⟩ := hkept
        obtain ⟨place, hplace⟩ := getElem?_of_mem hmem
        have hlt : place < (instructionTurns front).length :=
          (List.getElem?_eq_some_iff.mp hplace).1
        have hfound : turns[place]? = some turn := by
          rw [← hmore, getElem?_append_left hlt]
          exact hplace
        have hother : turns[(instructionTurns front).length]? ≠
            some turn := by
          intro hnext
          have hsame := (nodup_iff_getElem?_ne_getElem?.mp hnodup)
            place _ hlt (List.getElem?_eq_some_iff.mp hnext).1
          exact hsame (hfound.trans hnext.symm)
        rw [if_neg hother]
      · rw [Arrivals.arrive_of_notMem hmem] at hkept ⊢
        obtain ⟨more, hmore⟩ := hkept
        have hnext : turns[(instructionTurns front).length]? =
            some turn := by
          rw [← hmore]
          simp
        have hroom : (instructionTurns front).length + 1 ≤ usizeMax := by
          have hlt := (List.getElem?_eq_some_iff.mp hnext).1
          omega
        rw [if_pos hnext]
        simp [saturatingAdd, hroom]

/-- The revision of an operation behind some number of the visible turns. -/
def turnRevision (turns : List String) (finalRevision seen : Nat) : Nat :=
  if turns = [] then finalRevision
  else saturatingAdd (firstVisibleRevision turns finalRevision) (seen - 1)

/-- The visible turns up to an item. -/
def turnsThrough (items : List Json) (index : Nat) : Nat :=
  (instructionTurns (items.take (index + 1))).length

theorem firstVisibleRevision_le (turns : List String) (final : UInt64) :
    firstVisibleRevision turns final.toNat ≤ usizeMax := by
  have hlt := final.toNat_lt
  simp only [firstVisibleRevision, usizeMax]
  omega

theorem revision_walkItems_observeTurn {items : List Json}
    (hlength : items.length ≤ usizeMax) (final : UInt64) (count : Nat) :
    (walkItems (fun _ => observeTurn (instructionTurns items)
        (firstVisibleRevision (instructionTurns items) final.toNat)) 0
      ⟨0, if instructionTurns items = [] then final.toNat
        else firstVisibleRevision (instructionTurns items) final.toNat⟩
      (items.take count)).revision =
      turnRevision (instructionTurns items) final.toNat
        (instructionTurns (items.take count)).length := by
  have hsplit : instructionTurns (items.take count ++ items.drop count) =
      instructionTurns items := by rw [take_append_drop]
  have hmono : (instructionTurns (items.take count)).length ≤
      (instructionTurns items).length := by
    rw [← hsplit]
    exact length_instructionTurns_mono
  have hfirst := firstVisibleRevision_le (instructionTurns items) final
  rw [walkItems_observeTurn _ _ _ _ hsplit
    ((length_instructionTurns_le items).trans hlength), turnRevision]
  by_cases hnone : instructionTurns items = []
  · have hempty : instructionTurns (items.take count) = [] := by
      rw [hnone] at hmono
      exact length_eq_zero_iff.mp (Nat.le_zero.mp hmono)
    simp [hnone, hempty]
  · by_cases hempty : instructionTurns (items.take count) = []
    · simp [hnone, hempty, saturatingAdd, hfirst]
    · simp [hnone, hempty]

theorem turnRevision_mono (turns : List String) (final : Nat) {seen later : Nat}
    (hle : seen ≤ later) :
    turnRevision turns final seen ≤ turnRevision turns final later := by
  simp only [turnRevision, saturatingAdd]
  split <;> omega

/-- Counted backwards with a floor of one, a revision stays within the final
one exactly when no more turns are behind than that. -/
theorem turnRevision_le_iff {turns : List String} {seen : Nat}
    (hseen : seen ≤ turns.length) (hlength : turns.length ≤ usizeMax)
    (hturns : turns ≠ []) (final initial : Nat) :
    turnRevision turns final seen ≤ max final initial ↔
      max seen 1 ≤ max final initial := by
  have hpositive : 0 < turns.length := length_pos_iff.mpr hturns
  simp only [turnRevision, if_neg hturns, saturatingAdd, firstVisibleRevision,
    usizeMax] at hlength ⊢
  omega

/-- The revisions given to operations do not fall from one item to a later one,
and none exceeds the revision of the whole history. -/
structure RevisionsBounded (result : List (Nat × Nat) × Nat) : Prop where
  ordered : result.1.Pairwise fun left right =>
    left.1 < right.1 ∧ left.2 ≤ right.2
  bounded : ∀ entry ∈ result.1, entry.2 ≤ result.2

/-- No operation of the history stands behind more visible turns than the
revision of the whole history counts. -/
def TurnsWithin (items : List Json) (operations : List EvidenceOperation)
    (initialRevision : UInt64) (authoritativeTaskRevision : Option UInt64) :
    Prop :=
  ∀ finalRevision, authoritativeTaskRevision = some finalRevision →
    instructionTurns items ≠ [] → ∀ operation ∈ operations,
      operation.sourceIndex < items.length →
        max (turnsThrough items operation.sourceIndex) 1 ≤
          max finalRevision.toNat initialRevision.toNat

theorem le_observeUser (firstNew : Nat) (carried : Bool)
    (index revision : Nat) (item : Json) (hroom : revision ≤ usizeMax) :
    observeUser firstNew carried index revision item ≤ usizeMax ∧
      revision ≤ observeUser firstNew carried index revision item := by
  simp only [observeUser, saturatingAdd]
  split <;> omega

variable {items : List Json} {operations : List EvidenceOperation}
  {boundary : InvestigationHistoryBoundary} {initialRevision : UInt64}
  {carried : Bool}

/-- Counting the user messages alone, the revisions never fall and the last
one is that of the history. -/
theorem counted_revisions_bounded :
    RevisionsBounded (taskRevisionsBySource items operations boundary
      initialRevision carried none) := by
  have hinitial : initialRevision.toNat ≤ usizeMax := by
    have hlt := initialRevision.toNat_lt
    simp only [usizeMax]
    omega
  constructor
  · apply assignFrom_pairwise
    intro j k hle
    exact walkItems_take_mono _ id (le_observeUser _ carried) hinitial items hle
  · intro entry hentry
    obtain ⟨hlt, -, hvalue⟩ := (mem_assignFrom_iff _ _ _ _ _ _).mp hentry
    have hmono := walkItems_take_mono _ id (le_observeUser
      ((boundary.checkpointIndex.map fun index => saturatingAdd
        (saturatingAdd index boundary.retainedTailCount) 1).getD 0) carried)
      hinitial items (Nat.succ_le_of_lt hlt)
    rw [take_length] at hmono
    rw [hvalue]
    exact hmono

theorem turn_revisions_ordered (hlength : items.length ≤ usizeMax)
    (final : UInt64) :
    (taskRevisionsBySource items operations boundary initialRevision carried
      (some final)).1.Pairwise
        fun left right => left.1 < right.1 ∧ left.2 ≤ right.2 := by
  apply assignFrom_pairwise
  intro j k hle
  rw [revision_walkItems_observeTurn hlength,
    revision_walkItems_observeTurn hlength]
  obtain ⟨more, rfl⟩ := Nat.exists_eq_add_of_le hle
  rw [take_add]
  exact turnRevision_mono _ _ length_instructionTurns_mono

theorem mem_turn_revisions_iff (hlength : items.length ≤ usizeMax)
    (final : UInt64) (entry : Nat × Nat) :
    entry ∈ (taskRevisionsBySource items operations boundary initialRevision
        carried (some final)).1 ↔
      entry.1 < items.length ∧
        (∃ operation ∈ operations, operation.sourceIndex = entry.1) ∧
        entry.2 = turnRevision (instructionTurns items) final.toNat
          (turnsThrough items entry.1) := by
  rw [taskRevisionsBySource, mem_assignFrom_iff,
    revision_walkItems_observeTurn hlength]
  simp [turnsThrough]

theorem turnsThrough_le (items : List Json) (index : Nat) :
    turnsThrough items index ≤ (instructionTurns items).length := by
  conv_rhs => rw [← take_append_drop (index + 1) items]
  exact length_instructionTurns_mono

/-- The revisions of operations stay in order and within the returned one
exactly when no operation stands behind more visible turns than that counts. -/
theorem task_revisions_bounded_iff (items : List Json)
    (operations : List EvidenceOperation)
    (boundary : InvestigationHistoryBoundary) (initialRevision : UInt64)
    (leadingUserIsCarriedContext : Bool)
    (authoritativeTaskRevision : Option UInt64)
    (hlength : items.length ≤ usizeMax) :
    RevisionsBounded (taskRevisionsBySource items operations boundary
        initialRevision leadingUserIsCarriedContext
        authoritativeTaskRevision) ↔
      TurnsWithin items operations initialRevision
        authoritativeTaskRevision := by
  cases authoritativeTaskRevision with
  | none =>
    constructor
    · rintro - finalRevision ⟨⟩
    · intro _
      exact counted_revisions_bounded
  | some final =>
    have hturnsLength := (length_instructionTurns_le items).trans hlength
    constructor
    · rintro ⟨-, hbounded⟩ _ ⟨⟩ hturns operation hoperation hlt
      have hentry := hbounded (operation.sourceIndex,
          turnRevision (instructionTurns items) final.toNat
            (turnsThrough items operation.sourceIndex))
        ((mem_turn_revisions_iff hlength final _).mpr
          ⟨hlt, ⟨operation, hoperation, rfl⟩, rfl⟩)
      exact (turnRevision_le_iff (turnsThrough_le items _) hturnsLength
        hturns _ _).mp hentry
    · intro hwithin
      refine ⟨turn_revisions_ordered hlength final, ?_⟩
      intro entry hentry
      obtain ⟨hlt, ⟨operation, hoperation, hindex⟩, hvalue⟩ :=
        (mem_turn_revisions_iff hlength final entry).mp hentry
      rw [hvalue]
      by_cases hturns : instructionTurns items = []
      · rw [turnRevision, if_pos hturns]
        exact Nat.le_max_left _ _
      · have hseen := hwithin final rfl hturns operation hoperation
          (hindex ▸ hlt)
        rw [hindex] at hseen
        exact (turnRevision_le_iff (turnsThrough_le items _) hturnsLength
          hturns _ _).mpr hseen

namespace ForgottenTurns

/-- A message of the user in a turn of the host. -/
def userTurn (turn : String) : Json :=
  .obj [("role", .str "user"),
    ("internal_chat_message_metadata_passthrough",
      .obj [("content_item_kinds", .arr [.str "user.text"]),
        ("turn_id", .str turn)])]

def call : Json := .obj [("type", .str "function_call")]

/-- Two turns and an operation in the second. -/
def history : List Json := [userTurn "t1", userTurn "t2", call]

def calls : List EvidenceOperation :=
  [{ sourceIndex := 2, operation := .inspect, channel := .workspace }]

/-- Without a stored snapshot the host's revision starts again at one, and the
operation is put at two. -/
theorem operation_exceeds_final :
    ¬ RevisionsBounded (taskRevisionsBySource history calls ⟨none, 0⟩ 0
      false (some 1)) := by
  intro hbounded
  have hresult : taskRevisionsBySource history calls ⟨none, 0⟩ 0 false
      (some 1) = ([(2, 2)], 1) := by decide
  rw [hresult] at hbounded
  have hle := hbounded.bounded (2, 2) mem_cons_self
  omega

theorem counted_turns_are_bounded :
    RevisionsBounded (taskRevisionsBySource history calls ⟨none, 0⟩ 1
      false (some 2)) := by
  apply (task_revisions_bounded_iff history calls ⟨none, 0⟩ 1 false
    (some 2) (by decide)).mpr
  rintro finalRevision ⟨⟩ _ operation hoperation _
  rw [mem_singleton.mp hoperation]
  decide

end ForgottenTurns

end Vellum.Proxy

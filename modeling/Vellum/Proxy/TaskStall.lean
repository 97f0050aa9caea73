/-
The stall guard of a task.  It counts the tool results since the last genuine
progress and, once there are enough of them, asks for a recovery message: a
warning first, and one escalation when patience runs out.  A request has no
state of its own: it folds the whole history again, after the markers of the
recoveries injected so far have set the level of the epoch.
-/
import Vellum.Proxy.EvidenceOperation

namespace Vellum.Proxy

open List

/-! Progress fingerprints. -/

inductive ProgressKind where
  | userInstruction
  | workspaceMutation
  | verificationState
  | independentEvidence
deriving DecidableEq

structure ProgressFingerprint where
  kind : ProgressKind
  digest : String
deriving DecidableEq

/-- The fingerprints seen last, oldest first. -/
structure SeenProgressTracker where
  recent : List ProgressFingerprint := []
  capacity : Nat := 32

namespace SeenProgressTracker

def trimToCapacity (tracker : SeenProgressTracker) : SeenProgressTracker :=
  { tracker with
    recent := tracker.recent.drop
      (tracker.recent.length - max tracker.capacity 1) }

def setCapacity (tracker : SeenProgressTracker) (capacity : Nat) :
    SeenProgressTracker :=
  trimToCapacity { tracker with capacity := max capacity 1 }

def isGenuineAdvance (tracker : SeenProgressTracker)
    (fp : ProgressFingerprint) : SeenProgressTracker × Bool :=
  if fp ∈ tracker.recent then (tracker, false)
  else (trimToCapacity { tracker with recent := tracker.recent ++ [fp] }, true)

end SeenProgressTracker

def subjectKeys (operation : EvidenceOperation) : String :=
  ",".intercalate (operation.subjects.map CanonicalSubject.key)

def stableDigest (operation : EvidenceOperation) : String :=
  ",".intercalate (operation.stableEvidence.map EvidenceSignature.digest)

def EvidenceResult.isError : EvidenceResult → Bool
  | .error _ => true
  | _ => false

section

-- the digest of a text, `sha256:` and its hexadecimal digits
variable (sha256Hex : String → String)

def ProgressFingerprint.new (kind : ProgressKind) (material : String) :
    ProgressFingerprint :=
  ⟨kind, sha256Hex material⟩

/-- The fingerprint of what an operation did to the workspace or found of its
state. -/
def actionFingerprints (operation : EvidenceOperation) :
    List ProgressFingerprint :=
  match operation.operation with
  | .mutate =>
    if operation.channel = .workspace || operation.channel = .vcs then
      let payload := stableDigest operation
      let identity :=
        if payload = "" then commandIdentity operation.descriptor
        else payload
      [.new sha256Hex .workspaceMutation
        ("mutate|" ++ operation.channel.debug ++ "|" ++
          operation.result.debug ++ "|" ++ subjectKeys operation ++ "|" ++
          identity)]
    else []
  | .verify =>
    [.new sha256Hex .verificationState
      ("verify|" ++ operation.result.debug ++ "|" ++
        subjectKeys operation ++ "|" ++
        commandIdentity operation.descriptor ++ "|" ++
        stableDigest operation)]
  | .query | .inspect | .execute => []

def evidenceFingerprints (operation : EvidenceOperation) :
    List ProgressFingerprint :=
  if operation.channel = .session then []
  else
    operation.stableEvidence.filterMap fun signature =>
      if signature.provenance ≠ .independent then none
      else if operation.result.isError then none
      else some (.new sha256Hex .independentEvidence signature.digest)

def fingerprintsFromOperation (operation : EvidenceOperation) :
    List ProgressFingerprint :=
  ((actionFingerprints sha256Hex operation ++
    evidenceFingerprints sha256Hex operation).insertionSort
      fun a b => a.digest ≤ b.digest).destutter (· ≠ ·)

end

/-! The stall state. -/

inductive StallMode where
  | off
  | shadow
  | recover
deriving DecidableEq

def StallMode.injectsRecovery (mode : StallMode) : Bool := mode = .recover

inductive StallRecoveryState where
  | none
  | warned
  | escalated
deriving DecidableEq

structure TaskStallPolicy where
  mode : StallMode
  recoveryAfterToolResults : UInt32 := 5
  postRecoveryPatience : UInt32 := 8
  progressHistoryCapacity : Nat := 32

structure TaskStallState where
  schemaVersion : Nat := 1
  taskRevision : Nat := 0
  toolResultsSinceProgress : Nat := 0
  totalToolResults : Nat := 0
  lastProgressSeq : Nat := 0
  lastProgress : Option ProgressFingerprint := .none
  recentProgress : SeenProgressTracker := {}
  recoveryTotal : Nat := 0
  epochRecoveryLevel : Nat := 0
  recoveryState : StallRecoveryState := .none
  postRecoveryToolResultsWithoutProgress : Nat := 0
  lastActivitySeq : Nat := 0
  unattributedOperations : Nat := 0
  lastRecoverySourceIndex : Option Nat := .none

/-- `saturating_add(1)` of an unsigned integer of the width. -/
def saturatingSucc (width value : Nat) : Nat := min (value + 1) (2 ^ width - 1)

structure TaskStallTransition where
  genuineProgress : Bool
  counted : Bool
  stallCandidate : Bool

structure StallRecoveryAction where
  message : String
  recoveryCount : Nat
  level : StallRecoveryState

structure CompletedToolObservation where
  operation : EvidenceOperation
  attributed : Bool := true
  userInstructionRevision : Nat := 0

def statusPollTokens : List String :=
  ["get-process", "get-job", "ps", "top", "htop", "wait-process", "wait-job",
    "receive-job", "wait"]

def descriptorHasToken (haystack : List Char) (tokens : List String) : Bool :=
  (haystack.splitOnP fun c => !c.isAlphanum && c != '-').any fun part =>
    !part.isEmpty && tokens.contains (String.ofList part)

def isStatusPoll (operation : EvidenceOperation) : Bool :=
  operation.channel = .process &&
    (operation.operation = .execute || operation.operation = .inspect ||
      operation.operation = .query) &&
    descriptorHasToken (asciiLower operation.descriptor) statusPollTokens

namespace TaskStallState

def migrate (state : TaskStallState) : TaskStallState :=
  if state.epochRecoveryLevel = 0 then
    { state with
      epochRecoveryLevel :=
        match state.recoveryState with
        | .escalated => 2
        | .warned => 1
        | .none => 0 }
  else state

def postRecoveryEligible (state : TaskStallState) (sourceIndex : Nat) : Bool :=
  if state.epochRecoveryLevel = 0 then false
  else
    match state.lastRecoverySourceIndex with
    | some markerIndex => markerIndex < sourceIndex
    | none => true

end TaskStallState

section

variable (sha256Hex : String → String)

/-- What the observation is compared with, and what of it was new: the tracker,
the revision of the task, and the last fingerprint that was an advance. -/
structure ProgressView where
  tracker : SeenProgressTracker
  revision : Nat
  last : Option ProgressFingerprint
  genuine : Bool := false

namespace ProgressView

def offer (view : ProgressView) (fp : ProgressFingerprint) : ProgressView :=
  let (tracker, advance) := view.tracker.isGenuineAdvance fp
  if advance then
    { view with tracker, last := some fp, genuine := true }
  else { view with tracker }

/-- The revision of the user's instruction, where it is a later one. -/
def offerRevision (view : ProgressView) (revision : Nat) : ProgressView :=
  if view.revision < revision then
    { view.offer
        (.new sha256Hex .userInstruction ("rev:" ++ toString revision)) with
      revision }
  else view

/-- Everything in an observation that may be progress. -/
def observe (view : ProgressView) (observation : CompletedToolObservation) :
    ProgressView :=
  let revised :=
    offerRevision sha256Hex view observation.userInstructionRevision
  if isStatusPoll observation.operation then revised
  else
    (fingerprintsFromOperation sha256Hex observation.operation).foldl
      offer revised

end ProgressView

def reduceTaskStallObservation (state : TaskStallState)
    (observation : CompletedToolObservation) (policy : TaskStallPolicy) :
    TaskStallState × TaskStallTransition :=
  if policy.mode = .off || !observation.operation.completed then
    (state, ⟨false, false, false⟩)
  else
    let state := { state with schemaVersion := 1 }.migrate
    let seq := saturatingSucc 64 state.lastActivitySeq
    let view := ProgressView.observe sha256Hex
      { tracker := state.recentProgress.setCapacity
          policy.progressHistoryCapacity
        revision := state.taskRevision
        last := state.lastProgress } observation
    let state :=
      { state with
        lastActivitySeq := seq
        totalToolResults := saturatingSucc 64 state.totalToolResults
        unattributedOperations :=
          if observation.attributed then state.unattributedOperations
          else saturatingSucc 64 state.unattributedOperations
        recentProgress := view.tracker
        taskRevision := view.revision
        lastProgress := view.last }
    let counted := !isStatusPoll observation.operation
    let eligible :=
      state.postRecoveryEligible observation.operation.sourceIndex
    let state :=
      if view.genuine then
        let state :=
          { state with
            toolResultsSinceProgress := 0
            postRecoveryToolResultsWithoutProgress := 0
            lastProgressSeq := seq }
        -- progress before the marker is how the stall formed
        if eligible || state.epochRecoveryLevel = 0 then
          { state with epochRecoveryLevel := 0, recoveryState := .none }
        else state
      else if counted then
        { state with
          toolResultsSinceProgress :=
            saturatingSucc 32 state.toolResultsSinceProgress
          postRecoveryToolResultsWithoutProgress :=
            if eligible then
              saturatingSucc 32 state.postRecoveryToolResultsWithoutProgress
            else state.postRecoveryToolResultsWithoutProgress }
      else state
    (state,
      { genuineProgress := view.genuine
        counted
        stallCandidate := counted &&
          policy.recoveryAfterToolResults.toNat ≤
            state.toolResultsSinceProgress })

end

def levelOneMessage (state : TaskStallState) : String :=
  "The recent tool results have not produced a new workspace, verification, " ++
  "user-instruction, or independent evidence state.\n\n" ++
  "Observed " ++ toString state.toolResultsSinceProgress ++
  " completed tool result(s) since last genuine progress.\n\n" ++
  "Do not repeat already-observed transcript/session searches unchanged.\n" ++
  "Your next step must change execution strategy: modify the workspace, " ++
  "run a verification that can distinguish hypotheses, query a genuinely new " ++
  "independent source, or explicitly state what user information is missing."

def levelTwoMessage : String :=
  "Previous recovery guidance did not produce material progress.\n" ++
  "Do not continue the same investigation pattern.\n" ++
  "Switch to task execution or explicitly report the missing prerequisite."

def decideTaskStallRecovery (state : TaskStallState)
    (policy : TaskStallPolicy) : Option StallRecoveryAction :=
  if !policy.mode.injectsRecovery then none
  else if state.toolResultsSinceProgress <
      policy.recoveryAfterToolResults.toNat then none
  else if state.epochRecoveryLevel = 0 then
    some
      { message := levelOneMessage state
        recoveryCount := saturatingSucc 32 state.recoveryTotal
        level := .warned }
  else if state.epochRecoveryLevel = 1 &&
      policy.postRecoveryPatience.toNat ≤
        state.postRecoveryToolResultsWithoutProgress then
    some
      { message := levelTwoMessage
        recoveryCount := saturatingSucc 32 state.recoveryTotal
        level := .escalated }
  else none

/-! What one observation does to the state. -/

namespace TaskStallState

/-- Between epochs no recovery is recorded. -/
def Normal (state : TaskStallState) : Prop :=
  state.epochRecoveryLevel = 0 → state.recoveryState = .none

theorem migrate_of_normal {state : TaskStallState} (hnormal : state.Normal) :
    state.migrate = state := by
  rw [migrate]
  split
  · rename_i hlevel
    obtain ⟨⟩ := state
    simp_all [Normal]
  · rfl

end TaskStallState

/-- The state after a completed observation: what of it was progress, and how
the counters and the level follow. -/
structure Reduced (sha256Hex : String → String) (policy : TaskStallPolicy)
    (state : TaskStallState) (observation : CompletedToolObservation)
    (next : TaskStallState) (progress : ProgressView) : Prop where
  tracker : next.recentProgress = progress.tracker
  revision : next.taskRevision = progress.revision
  last : next.lastProgress = progress.last
  sinceProgress : next.toolResultsSinceProgress =
    if progress.genuine then 0
    else if isStatusPoll observation.operation then
      state.toolResultsSinceProgress
    else saturatingSucc 32 state.toolResultsSinceProgress
  level : next.epochRecoveryLevel =
    if progress.genuine &&
        state.postRecoveryEligible observation.operation.sourceIndex then 0
    else state.epochRecoveryLevel
  sinceMarker : next.postRecoveryToolResultsWithoutProgress =
    if progress.genuine then 0
    else if !isStatusPoll observation.operation &&
        state.postRecoveryEligible observation.operation.sourceIndex then
      saturatingSucc 32 state.postRecoveryToolResultsWithoutProgress
    else state.postRecoveryToolResultsWithoutProgress
  total : next.recoveryTotal = state.recoveryTotal
  index : next.lastRecoverySourceIndex = state.lastRecoverySourceIndex
  normal : next.Normal

theorem reduced_of_completed (sha256Hex : String → String)
    {policy : TaskStallPolicy} {state : TaskStallState}
    {observation : CompletedToolObservation} (hnormal : state.Normal)
    (hactive : (policy.mode = .off || !observation.operation.completed) =
      false) :
    Reduced sha256Hex policy state observation
      (reduceTaskStallObservation sha256Hex state observation policy).1
      (ProgressView.observe sha256Hex
        { tracker := state.recentProgress.setCapacity
            policy.progressHistoryCapacity
          revision := state.taskRevision
          last := state.lastProgress } observation) := by
  have hmigrate : ({ state with schemaVersion := 1 } : TaskStallState).migrate =
      { state with schemaVersion := 1 } :=
    TaskStallState.migrate_of_normal hnormal
  simp only [reduceTaskStallObservation, hactive, Bool.false_eq_true,
    ↓reduceIte, hmigrate]
  generalize ProgressView.observe sha256Hex
    { tracker := state.recentProgress.setCapacity
        policy.progressHistoryCapacity
      revision := state.taskRevision
      last := state.lastProgress } observation = progress
  -- the updates before the counters leave the level and the marker alone
  have heligible : ∀ seq total unattributed tracker revision last,
      ({ state with
          schemaVersion := 1, lastActivitySeq := seq, totalToolResults := total,
          unattributedOperations := unattributed, recentProgress := tracker,
          taskRevision := revision, lastProgress := last } :
        TaskStallState).postRecoveryEligible
          observation.operation.sourceIndex =
        state.postRecoveryEligible observation.operation.sourceIndex :=
    fun _ _ _ _ _ _ => rfl
  simp only [heligible]
  cases hgenuine : progress.genuine with
  | true =>
    cases hopen :
        state.postRecoveryEligible observation.operation.sourceIndex with
    | true =>
      constructor <;> simp [hgenuine, hopen, TaskStallState.Normal]
    | false =>
      by_cases hlevel : state.epochRecoveryLevel = 0
      · constructor <;>
          simp [hgenuine, hopen, hlevel, TaskStallState.Normal]
      · constructor <;>
          simp [hgenuine, hopen, hlevel, TaskStallState.Normal]
  | false =>
    cases hpoll : isStatusPoll observation.operation with
    | true => constructor <;> first | exact hnormal | simp [hgenuine, hpoll]
    | false => constructor <;> first | exact hnormal | simp [hgenuine, hpoll]

/-! The markers in the history. -/

/-- `text.parse::<u32>()`: an optional plus sign and at least one digit, in
range. -/
def parseU32 (text : List Char) : Option Nat :=
  let digits :=
    match text with
    | '+' :: rest => rest
    | _ => text
  if digits.isEmpty || !digits.all Char.isDigit then none
  else
    let value := Nat.ofDigitChars 10 digits 0
    if value < 2 ^ 32 then some value else none

def stallMarkerStem : String := "synthetic:task_stall_recovery:"

/-- The count in the id of a recovery marker. -/
def stallMarkerCount (id : String) : Option Nat :=
  (Text.stripPrefix stallMarkerStem.toList id.toList).bind parseU32

/-- The highest count among the ids, and the last place that has it.  The ids
stand from `start` on, with `found` found before. -/
def scanStallMarkers (found : Nat × Option Nat) :
    Nat → List String → Nat × Option Nat
  | _, [] => found
  | start, id :: rest =>
    match stallMarkerCount id with
    | none => scanStallMarkers found (start + 1) rest
    | some count =>
      if found.1 ≤ count then
        scanStallMarkers (count, some start) (start + 1) rest
      else scanStallMarkers found (start + 1) rest

def stallRecoveryMarkers (ids : List String) : Nat × Option Nat :=
  scanStallMarkers (0, none) 0 ids

theorem parseU32_toDigits {n : Nat} (hlt : n < 2 ^ 32) :
    parseU32 (Nat.toDigits 10 n) = some n := by
  have hdigits : ∀ c ∈ Nat.toDigits 10 n, c.isDigit = true := fun c hc =>
    Nat.isDigit_of_mem_toDigits (by decide) (by decide) hc
  have hplain : (match Nat.toDigits 10 n with
      | '+' :: rest => rest
      | _ => Nat.toDigits 10 n) = Nat.toDigits 10 n := by
    split
    · rename_i rest heq
      have hplus := hdigits '+' (by rw [heq]; exact mem_cons_self)
      exact absurd hplus (by decide)
    · rfl
  have hempty : (Nat.toDigits 10 n).isEmpty = false := by
    rw [isEmpty_eq_false_iff]
    exact Nat.toDigits_ne_nil
  unfold parseU32
  dsimp only
  rw [hplain, hempty, all_eq_true.mpr hdigits]
  simp only [Bool.not_true, Bool.or_self, Bool.false_eq_true, ↓reduceIte,
    Nat.ofDigitChars_ten_toDigits, if_pos hlt]

theorem stallMarkerCount_marker {n : Nat} (hlt : n < 2 ^ 32) :
    stallMarkerCount (stallMarkerStem ++ toString n) = some n := by
  rw [stallMarkerCount, Text.stripPrefix, String.toList_append,
    if_pos (List.isPrefixOf_iff_prefix.mpr (prefix_append _ _)),
    drop_left, Option.bind_some, Nat.toString_eq_repr, Nat.toList_repr]
  exact parseU32_toDigits hlt

theorem scanStallMarkers_append (found : Nat × Option Nat) (start : Nat)
    (front back : List String) :
    scanStallMarkers found start (front ++ back) =
      scanStallMarkers (scanStallMarkers found start front)
        (start + front.length) back := by
  induction front generalizing found start with
  | nil => rfl
  | cons id rest ih =>
    have hlength : start + (id :: rest).length = start + 1 + rest.length := by
      rw [length_cons]
      omega
    rw [cons_append, scanStallMarkers, scanStallMarkers, hlength]
    cases stallMarkerCount id with
    | none => exact ih found (start + 1)
    | some count =>
      simp only
      split
      · exact ih (count, some start) (start + 1)
      · exact ih found (start + 1)

theorem scanStallMarkers_of_none {found : Nat × Option Nat}
    {ids : List String} (hnone : ∀ id ∈ ids, stallMarkerCount id = none)
    (start : Nat) : scanStallMarkers found start ids = found := by
  induction ids generalizing start with
  | nil => rfl
  | cons id rest ih =>
    rw [scanStallMarkers, hnone id mem_cons_self]
    exact ih (fun other hother => hnone other (mem_cons_of_mem id hother))
      (start + 1)

def reconcileStallRecovery (state : TaskStallState) (markerCount : Nat)
    (markerSourceIndex : Option Nat) : TaskStallState :=
  let state := state.migrate
  if state.recoveryTotal < markerCount then
    let newly := markerCount - state.recoveryTotal
    let level := min (state.epochRecoveryLevel + min newly 2) 2
    { state with
      recoveryTotal := markerCount
      epochRecoveryLevel := level
      recoveryState := if 2 ≤ level then .escalated else .warned
      lastRecoverySourceIndex := markerSourceIndex }
  else if 0 < state.epochRecoveryLevel &&
      state.lastRecoverySourceIndex.isNone then
    { state with lastRecoverySourceIndex := markerSourceIndex }
  else state

end Vellum.Proxy

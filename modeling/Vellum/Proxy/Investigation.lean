/-
Investigation ledgers.  Each completed operation is linked to the ledger of the
question it looks into, or opens one; the ledger collects its evidence and
counts the visits that brought nothing, and may ask for a recovery.  A ledger
is found by its id, which is read off a digest of the question's text.
-/
import Vellum.Library.StepRun
import Vellum.Proxy.TaskStall

namespace Vellum.Proxy

/-! Identity and linking. -/

def CanonicalSubjectKind.rank : CanonicalSubjectKind → Nat
  | .file => 0
  | .symbol => 1
  | .taskLiteral => 2
  | .errorFamily => 3
  | .test => 4
  | .sessionState => 5
  | .repositoryState => 6
  | .other => 7

/-- The order of subjects: by kind, then by key. -/
def CanonicalSubject.Before (a b : CanonicalSubject) : Prop :=
  a.kind.rank < b.kind.rank ∨ (a.kind = b.kind ∧ a.key ≤ b.key)

instance (a b : CanonicalSubject) : Decidable (a.Before b) :=
  inferInstanceAs (Decidable (_ ∨ _))

structure InvestigationIdentity where
  predicate : InvestigationPredicate
  subjects : List CanonicalSubject
  taskRevision : Nat

def InvestigationIdentity.fromOperation (operation : EvidenceOperation)
    (taskRevision : Nat) : InvestigationIdentity where
  predicate := predicateForOperation operation.operation
    (commandIdentity operation.descriptor)
  subjects :=
    (operation.subjects.insertionSort CanonicalSubject.Before).destutter (· ≠ ·)
  taskRevision := taskRevision

inductive LinkMethod where
  | exact
  | symbolic
  | semanticShadow
  | provisional
  | legacyLiteral

inductive InvestigationLinkConfidence where
  | none
  | low
  | medium
  | high
  | exact

structure LedgerDescriptor where
  ledgerId : String
  identity : InvestigationIdentity

structure LinkDecision where
  ledgerId : Option String
  method : LinkMethod
  confidence : InvestigationLinkConfidence
  created : Bool

def subjectOverlap (a b : List CanonicalSubject) : Nat :=
  (a.filter fun subject => subject ∈ b).length

def identitiesExact (a b : InvestigationIdentity) : Bool :=
  a.predicate = b.predicate && a.taskRevision = b.taskRevision &&
    a.subjects = b.subjects && !a.subjects.isEmpty

def identitiesSymbolic (a b : InvestigationIdentity) : Bool :=
  a.predicate = b.predicate && a.taskRevision = b.taskRevision &&
    1 ≤ subjectOverlap a.subjects b.subjects

/-- `Iterator::max_by_key`: the last of the items with the greatest key. -/
def maxByKey {α : Type} (key : α → Nat) : List α → Option α
  | [] => none
  | first :: rest =>
    some (rest.foldl
      (fun best item => if key best ≤ key item then item else best) first)

def linkOperation (identity : InvestigationIdentity)
    (candidates : List LedgerDescriptor) : LinkDecision :=
  match candidates.find? fun c => identitiesExact c.identity identity with
  | some found => ⟨some found.ledgerId, .exact, .exact, false⟩
  | none =>
    match maxByKey
        (fun c => subjectOverlap c.identity.subjects identity.subjects)
        (candidates.filter fun c => identitiesSymbolic c.identity identity)
      with
    | some found => ⟨some found.ledgerId, .symbolic, .high, false⟩
    | none => ⟨none, .provisional, .none, true⟩

/-! Material progress. -/

structure MaterialProgress where
  workspaceRevision : Nat := 0
  vcsRevision : Nat := 0
  testRevision : Nat := 0
  userInstructionRevision : Nat := 0
  externalRevision : Nat := 0

def EvidenceChannel.rank : EvidenceChannel → Nat
  | .workspace => 0
  | .session => 1
  | .vcs => 2
  | .database => 3
  | .process => 4
  | .external => 5
  | .unknown => 6

/-- Put a channel into a set, which is listed in the order of the channels. -/
def insertChannel (channel : EvidenceChannel) (set : List EvidenceChannel) :
    List EvidenceChannel :=
  if channel ∈ set then set
  else set.orderedInsert (fun a b => a.rank ≤ b.rank) channel

namespace MaterialProgress

def snapshotFor (progress : MaterialProgress)
    (channels : List EvidenceChannel) : MaterialProgress :=
  { progress with
    vcsRevision :=
      if EvidenceChannel.vcs ∈ channels then progress.vcsRevision else 0
    externalRevision :=
      if EvidenceChannel.external ∈ channels then progress.externalRevision
      else 0 }

def progressedOn (progress last : MaterialProgress) :
    EvidenceChannel → Bool
  | .workspace => last.workspaceRevision < progress.workspaceRevision
  | .vcs => last.vcsRevision < progress.vcsRevision
  | .external => last.externalRevision < progress.externalRevision
  | .session | .database | .process | .unknown => false

def relevantProgressSince (progress last : MaterialProgress)
    (dependsOn : List EvidenceChannel) : Bool :=
  last.userInstructionRevision < progress.userInstructionRevision ||
    dependsOn.any (progress.progressedOn last) ||
    (EvidenceChannel.workspace ∈ dependsOn &&
      last.testRevision < progress.testRevision)

end MaterialProgress

/-! The ledgers. -/

inductive RecoveryState where
  | none
  | warned
  | escalated
deriving DecidableEq

inductive LinkProvenance where
  | exact
  | symbolic
  | semanticShadow
  | legacyLiteral
  | provisional
deriving DecidableEq

def LinkMethod.provenance : LinkMethod → LinkProvenance
  | .exact => .exact
  | .symbolic => .symbolic
  | .semanticShadow => .semanticShadow
  | .provisional => .provisional
  | .legacyLiteral => .legacyLiteral

structure InvestigationLedgerEntry where
  ledgerId : String
  identity : InvestigationIdentity
  channelsSeen : List EvidenceChannel := []
  dependsOn : List EvidenceChannel := []
  evidenceFrontier : List EvidenceSignature := []
  attemptsWithoutFrontierProgress : Nat := 0
  redundantRevisits : Nat := 0
  lastSeenProgress : MaterialProgress := {}
  recoveryCount : Nat := 0
  recoveryState : RecoveryState := .none
  lastActivitySeq : Nat := 0
  linkProvenance : LinkProvenance := .provisional
  boundedDescriptor : String := ""
  resolved : Bool := false

structure InvestigationLedgerState where
  schemaVersion : Nat := 0
  ledgers : List InvestigationLedgerEntry := []
  progress : MaterialProgress := {}
  nextSeq : Nat := 0
  taskStall : TaskStallState := {}

inductive InvestigationLedgerMode where
  | off
  | shadow
  | recover
deriving DecidableEq

structure InvestigationPolicy where
  redundantRevisitRecoveryThreshold : Nat := 3
  serializedBudgetBytes : Nat := 8192
  mode : InvestigationLedgerMode := .shadow

structure RecoveryAction where
  ledgerId : String
  message : String
  recoveryCount : Nat
  level : RecoveryState

structure InvestigationTransition where
  ledgerId : String := ""
  linkMethod : LinkMethod := .provisional
  linkConfidence : InvestigationLinkConfidence := .none
  created : Bool := false
  frontierExpanded : Bool := false
  coverageExpanded : Bool := false
  relevantProgress : Bool := false
  redundantRevisit : Bool := false
  redundantRevisitCount : Nat := 0
  recoveryState : RecoveryState := .none
  recovery : Option RecoveryAction := none
  skipped : Bool := false

def isInvestigationOperation (operation : EvidenceOperation) : Bool :=
  match operation.operation with
  | .query | .inspect | .verify => true
  | .execute => !operation.subjects.isEmpty
  | .mutate => false

def canResolve (predicate : InvestigationPredicate)
    (channel : EvidenceChannel) (provenance : FactProvenance)
    (result : EvidenceResult) : Bool :=
  if result ≠ .found then false
  else if provenance ≠ .independent then false
  else
    !((predicate = .locate || predicate = .exists) && channel = .session)

def canResolveLedger (predicate : InvestigationPredicate)
    (operation : EvidenceOperation) : Bool :=
  operation.stableEvidence.any fun signature =>
    canResolve predicate operation.channel signature.provenance
      operation.result

def recoveryMessage (entry : InvestigationLedgerEntry)
    (level : RecoveryState) : String :=
  let known := (entry.evidenceFrontier.filterMap EvidenceSignature.fact).take 6
  let channels := ", ".intercalate (entry.channelsSeen.map EvidenceChannel.debug)
  let subjects := ", ".intercalate
    ((entry.identity.subjects.map CanonicalSubject.key).take 4)
  let header :=
    if level = .escalated then
      "You returned to the same unresolved investigation after recovery, and " ++
      "the evidence frontier still has not changed."
    else
      "You have already investigated the same unresolved question with " ++
      "multiple methods, and there is currently no new independent evidence."
  header ++ "\n\nKnown:\n" ++
    (if known.isEmpty then "- explored channels: " ++ channels
      else "\n".intercalate (known.map fun line => "- " ++ line)) ++
    "\n\nStill missing:\n- independent evidence for " ++ subjects ++
    "\n\nDo not repeat:\n- equivalent investigation of already-explored " ++
    "sources (" ++ channels ++ ")" ++
    "\n\nNext action must change:\nevidence source / strategy / task execution"

def maybeRecovery (entry : InvestigationLedgerEntry)
    (policy : InvestigationPolicy) (redundantRevisit : Bool) :
    InvestigationLedgerEntry × Option RecoveryAction :=
  if entry.resolved then (entry, none)
  else if entry.linkProvenance = .legacyLiteral &&
      entry.redundantRevisits = 0 then (entry, none)
  else if !redundantRevisit then (entry, none)
  else if entry.redundantRevisits <
      policy.redundantRevisitRecoveryThreshold then (entry, none)
  else if policy.mode ≠ .recover then (entry, none)
  else if 2 ≤ entry.recoveryCount then (entry, none)
  else
    let level : RecoveryState :=
      if entry.recoveryCount = 0 then .warned else .escalated
    let entry :=
      { entry with
        recoveryCount := saturatingSucc 32 entry.recoveryCount
        recoveryState := level }
    (entry, some
      { ledgerId := entry.ledgerId
        message := recoveryMessage entry level
        recoveryCount := entry.recoveryCount
        level })

/-- Take the independent evidence that is not known yet. -/
def extendFrontier (frontier : List EvidenceSignature) :
    List EvidenceSignature → List EvidenceSignature
  | [] => frontier
  | signature :: rest =>
    if signature.provenance = .selfGeneratedConversation then
      extendFrontier frontier rest
    else if signature ∈ frontier then extendFrontier frontier rest
    else extendFrontier (frontier ++ [signature]) rest

/-- What one visit brought. -/
structure VisitFindings where
  frontierExpanded : Bool
  coverageExpanded : Bool
  relevantProgress : Bool
  redundantRevisit : Bool

/-- A visit of an operation to its ledger, before a recovery is considered. -/
def observeVisit (progress : MaterialProgress) (seq : Nat)
    (operation : EvidenceOperation) (entry : InvestigationLedgerEntry) :
    InvestigationLedgerEntry × VisitFindings :=
  let entry :=
    { entry with
      lastActivitySeq := seq
      dependsOn := insertChannel operation.channel entry.dependsOn }
  let relevantProgress :=
    progress.relevantProgressSince entry.lastSeenProgress entry.dependsOn
  let entry :=
    if relevantProgress then
      { entry with
        lastSeenProgress := progress.snapshotFor entry.dependsOn
        recoveryState := .none }
    else entry
  let coverageExpanded := operation.channel ∉ entry.channelsSeen
  let frontier :=
    extendFrontier entry.evidenceFrontier operation.stableEvidence
  let frontierExpanded := frontier.length ≠ entry.evidenceFrontier.length
  let entry :=
    { entry with
      channelsSeen := insertChannel operation.channel entry.channelsSeen
      evidenceFrontier := frontier }
  let entry :=
    if canResolveLedger entry.identity.predicate operation then
      { entry with resolved := true, attemptsWithoutFrontierProgress := 0 }
    else entry
  let redundantRevisit :=
    !coverageExpanded && !frontierExpanded && !relevantProgress &&
      !entry.resolved && operation.channel ∈ entry.channelsSeen
  let entry :=
    if redundantRevisit then
      { entry with
        redundantRevisits := saturatingSucc 32 entry.redundantRevisits
        attemptsWithoutFrontierProgress :=
          saturatingSucc 32 entry.attemptsWithoutFrontierProgress }
    else if frontierExpanded || coverageExpanded || relevantProgress then
      { entry with attemptsWithoutFrontierProgress := 0 }
    else entry
  (entry,
    { frontierExpanded, coverageExpanded, relevantProgress, redundantRevisit })

/-- One visit of an operation to its ledger; the transition tells what it
brought. -/
def visitLedger (policy : InvestigationPolicy) (progress : MaterialProgress)
    (seq : Nat) (operation : EvidenceOperation)
    (entry : InvestigationLedgerEntry) (transition : InvestigationTransition) :
    InvestigationLedgerEntry × InvestigationTransition :=
  let (observed, findings) := observeVisit progress seq operation entry
  let (visited, recovery) :=
    maybeRecovery observed policy findings.redundantRevisit
  (visited,
    { transition with
      frontierExpanded := findings.frontierExpanded
      coverageExpanded := findings.coverageExpanded
      relevantProgress := findings.relevantProgress
      redundantRevisit := findings.redundantRevisit
      redundantRevisitCount := visited.redundantRevisits
      recoveryState := visited.recoveryState
      recovery })

def InvestigationLedgerEntry.locked (entry : InvestigationLedgerEntry) : Bool :=
  entry.recoveryState = .warned || entry.recoveryState = .escalated

/-- Put an entry in the place of the first one with the id. -/
def replaceFirst (id : String) (entry : InvestigationLedgerEntry) :
    List InvestigationLedgerEntry → List InvestigationLedgerEntry
  | [] => []
  | head :: rest =>
    if head.ledgerId = id then entry :: rest
    else head :: replaceFirst id entry rest

section

-- the digest of a text, `sha256:` and its hexadecimal digits
variable (sha256Hex : String → String)

def identityText (identity : InvestigationIdentity) : String :=
  identity.subjects.foldl
    (fun payload subject =>
      payload ++ "|" ++ subject.kind.debug ++ ":" ++ subject.key)
    (identity.predicate.debug ++ "|" ++ toString identity.taskRevision)

def stableLedgerId (identity : InvestigationIdentity) : String :=
  "inv:" ++ String.ofList
    (((sha256Hex (identityText identity)).toList.drop 7).take 16)

variable (policy : InvestigationPolicy) (state : InvestigationLedgerState)

/-- What the linker sees of the ledgers. -/
def InvestigationLedgerState.descriptors : List LedgerDescriptor :=
  state.ledgers.map fun entry => ⟨entry.ledgerId, entry.identity⟩

/-- Visit the ledger that the transition names. -/
def visitNamed (progress : MaterialProgress) (seq : Nat)
    (operation : EvidenceOperation) (transition : InvestigationTransition)
    (ledgers : List InvestigationLedgerEntry) :
    List InvestigationLedgerEntry × InvestigationTransition :=
  match ledgers.find? fun entry => entry.ledgerId == transition.ledgerId with
  | none => (ledgers, { transition with skipped := true })
  | some entry =>
    let (visited, transition) :=
      visitLedger policy progress seq operation entry transition
    (replaceFirst transition.ledgerId visited ledgers, transition)

/-- The ledger that an operation opens. -/
def openedLedger (progress : MaterialProgress) (seq : Nat)
    (operation : EvidenceOperation) (identity : InvestigationIdentity)
    (method : LinkMethod) (ledgerId : String) : InvestigationLedgerEntry where
  ledgerId := ledgerId
  identity := identity
  lastSeenProgress := progress.snapshotFor []
  lastActivitySeq := seq
  linkProvenance := method.provenance
  boundedDescriptor := String.ofList (operation.descriptor.toList.take 160)

/-- Find or open the ledger of the question, and visit it. -/
def linkAndVisit (ledgers : List InvestigationLedgerEntry)
    (progress : MaterialProgress) (seq : Nat) (operation : EvidenceOperation)
    (identity : InvestigationIdentity) (decision : LinkDecision) :
    List InvestigationLedgerEntry × InvestigationTransition :=
  let ledgerId := decision.ledgerId.getD (stableLedgerId sha256Hex identity)
  let created := decision.created ||
    !ledgers.any fun entry => entry.ledgerId == ledgerId
  visitNamed policy progress seq operation
    { ledgerId
      linkMethod := decision.method
      linkConfidence := decision.confidence
      created }
    (if created then
      ledgers ++ [openedLedger progress seq operation identity decision.method
        ledgerId]
    else ledgers)

/-- A step up to the retention. -/
def touchLedger (operation : EvidenceOperation) (progress : MaterialProgress) :
    InvestigationLedgerState × InvestigationTransition :=
  let seq := saturatingSucc 64 state.nextSeq
  let next := { state with schemaVersion := 3, progress, nextSeq := seq }
  if !operation.completed || !isInvestigationOperation operation then
    (next, { skipped := true })
  else
    let identity := InvestigationIdentity.fromOperation operation
      progress.userInstructionRevision
    if identity.subjects.isEmpty then (next, { skipped := true })
    else
      let (ledgers, transition) := linkAndVisit sha256Hex policy state.ledgers
        progress seq operation identity
        (linkOperation identity state.descriptors)
      ({ next with ledgers }, transition)

end

section

-- the length of the state's encoding as JSON
variable (encodedLen : InvestigationLedgerState → Nat)

def withinBudget (policy : InvestigationPolicy)
    (state : InvestigationLedgerState) : Bool :=
  encodedLen state ≤ policy.serializedBudgetBytes && state.ledgers.length ≤ 24

/-- The key that ledgers are ranked by: the last ones are dropped first. -/
def retentionKey (policy : InvestigationPolicy)
    (entry : InvestigationLedgerEntry) : List Int :=
  [if entry.locked || policy.redundantRevisitRecoveryThreshold ≤
      entry.redundantRevisits then 0 else 1,
    if entry.resolved then 1 else 0,
    -entry.lastActivitySeq, -entry.redundantRevisits,
    if entry.resolved then 1 else 0]

/-- Drop the ledgers of this order until the state is within its budget. -/
def dropLedgers (policy : InvestigationPolicy) :
    List String → InvestigationLedgerState → InvestigationLedgerState
  | [], state => state
  | dropId :: rest, state =>
    if state.ledgers.length ≤ 1 then state
    else if withinBudget encodedLen policy state then state
    else if (state.ledgers.find? fun entry => entry.ledgerId == dropId).any
        InvestigationLedgerEntry.locked then
      dropLedgers policy rest state
    else
      dropLedgers policy rest
        { state with
          ledgers := state.ledgers.filter fun entry =>
            entry.ledgerId != dropId }

def boundLedgers (policy : InvestigationPolicy)
    (state : InvestigationLedgerState) : InvestigationLedgerState :=
  if state.ledgers.length ≤ 1 then state
  else if withinBudget encodedLen policy state then state
  else
    let ranked := state.ledgers.insertionSort fun a b =>
      retentionKey policy a ≤ retentionKey policy b
    dropLedgers encodedLen policy
      (ranked.map InvestigationLedgerEntry.ledgerId).reverse state

end

def reduceInvestigation (sha256Hex : String → String)
    (encodedLen : InvestigationLedgerState → Nat)
    (policy : InvestigationPolicy) (state : InvestigationLedgerState)
    (operation : EvidenceOperation) (progress : MaterialProgress) :
    InvestigationLedgerState × InvestigationTransition :=
  let (touched, transition) :=
    touchLedger sha256Hex policy state operation progress
  if transition.skipped then (touched, transition)
  else (boundLedgers encodedLen policy touched, transition)

end Vellum.Proxy

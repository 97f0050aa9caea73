/-
What counts as progress on an investigation.  A ledger keeps the progress it
last took note of, where a domain it did not depend on is masked or was left
behind.  A look through a channel that is new to the ledger compares with this
record, and so may report what the ledger's previous look had before it.
-/
import Vellum.Proxy.InvestigationRuns

namespace Vellum.Proxy

open List Option

namespace MaterialProgress

variable {progress past last : MaterialProgress}
  {channel : EvidenceChannel} {dependsOn : List EvidenceChannel}

/-- A ledger with this record that depends on the channel is behind. -/
def aheadOn (progress last : MaterialProgress) (channel : EvidenceChannel) :
    Bool :=
  progress.progressedOn last channel ||
    (channel = .workspace && last.testRevision < progress.testRevision)

theorem relevantProgressSince_iff :
    progress.relevantProgressSince last dependsOn = true ↔
      last.userInstructionRevision < progress.userInstructionRevision ∨
        ∃ channel ∈ dependsOn, progress.aheadOn last channel = true := by
  simp only [relevantProgressSince, aheadOn, Bool.or_eq_true,
    Bool.and_eq_true, decide_eq_true_eq, List.any_eq_true]
  constructor
  · rintro ((huser | ⟨channel, hmem, hahead⟩) | ⟨hmem, htest⟩)
    · exact Or.inl huser
    · exact Or.inr ⟨channel, hmem, Or.inl hahead⟩
    · exact Or.inr ⟨.workspace, hmem, Or.inr ⟨rfl, htest⟩⟩
  · rintro (huser | ⟨channel, hmem, hahead | ⟨rfl, htest⟩⟩)
    · exact Or.inl (Or.inl huser)
    · exact Or.inl (Or.inr ⟨channel, hmem, hahead⟩)
    · exact Or.inr ⟨hmem, htest⟩

theorem not_relevantProgressSince_self :
    progress.relevantProgressSince progress dependsOn ≠ true := by
  rw [ne_eq, relevantProgressSince_iff]
  rintro (huser | ⟨channel, -, hahead⟩)
  · exact lt_irrefl _ huser
  · cases channel <;> simp [aheadOn, progressedOn] at hahead

theorem aheadOn_of_recorded (hrecorded : past.aheadOn last channel ≠ true)
    (hahead : progress.aheadOn last channel = true) :
    progress.aheadOn past channel = true := by
  cases channel <;> simp [aheadOn, progressedOn] at * <;> omega

/-- What is new since the record is new since any progress that the record
holds already. -/
theorem relevantProgressSince_of_recorded
    (hrecorded : past.relevantProgressSince last dependsOn ≠ true)
    (hnew : progress.relevantProgressSince last dependsOn = true) :
    progress.relevantProgressSince past dependsOn = true := by
  rw [relevantProgressSince_iff] at hnew ⊢
  rw [ne_eq, relevantProgressSince_iff, not_or, not_lt] at hrecorded
  rcases hnew with huser | ⟨channel, hmem, hahead⟩
  · exact Or.inl (hrecorded.1.trans_lt huser)
  · have hkept : past.aheadOn last channel ≠ true :=
      fun hpast => hrecorded.2 ⟨channel, hmem, hpast⟩
    exact Or.inr ⟨channel, hmem, aheadOn_of_recorded hkept hahead⟩

theorem recorded_snapshotFor :
    progress.relevantProgressSince (progress.snapshotFor dependsOn) dependsOn ≠
      true := by
  rw [ne_eq, relevantProgressSince_iff]
  rintro (huser | ⟨channel, hmem, hahead⟩)
  · exact absurd huser (lt_irrefl _)
  · cases channel <;>
      simp [aheadOn, progressedOn, snapshotFor, hmem] at hahead

end MaterialProgress

theorem mem_insertChannel {channel other : EvidenceChannel}
    {set : List EvidenceChannel} :
    other ∈ insertChannel channel set ↔ other = channel ∨ other ∈ set := by
  rw [insertChannel]
  split
  · rename_i hmem
    exact ⟨Or.inr, fun hor => hor.elim (fun heq => heq ▸ hmem) id⟩
  · exact mem_orderedInsert _

/-! One look. -/

/-- What a look leaves of its ledger, and whether it reports progress. -/
structure Looked (progress : MaterialProgress) (operation : EvidenceOperation)
    (entry visited : InvestigationLedgerEntry) (reported : Bool) : Prop where
  id : visited.ledgerId = entry.ledgerId
  dependsOn : visited.dependsOn =
    insertChannel operation.channel entry.dependsOn
  reports : reported =
    progress.relevantProgressSince entry.lastSeenProgress visited.dependsOn
  recorded : progress.relevantProgressSince visited.lastSeenProgress
    visited.dependsOn ≠ true
  held : reported = false → entry.recoveryState ≠ .none →
    visited.recoveryState ≠ .none

theorem looked_observeVisit (progress : MaterialProgress) (seq : Nat)
    (operation : EvidenceOperation) (entry : InvestigationLedgerEntry) :
    Looked progress operation entry
      (observeVisit progress seq operation entry).1
      (observeVisit progress seq operation entry).2.relevantProgress := by
  unfold observeVisit
  dsimp only
  constructor
  · split_ifs <;> rfl
  · split_ifs <;> rfl
  · split_ifs <;> rfl
  · split_ifs <;>
      first | exact MaterialProgress.recorded_snapshotFor | assumption
  · intro hquiet hunder
    rw [if_neg (Bool.eq_false_iff.mp hquiet)]
    split_ifs <;> exact hunder

theorem looked_visitLedger (policy : InvestigationPolicy)
    (progress : MaterialProgress) (seq : Nat) (operation : EvidenceOperation)
    (entry : InvestigationLedgerEntry) (transition : InvestigationTransition) :
    Looked progress operation entry
      (visitLedger policy progress seq operation entry transition).1
      (visitLedger policy progress seq operation entry
        transition).2.relevantProgress := by
  have hobserved := looked_observeVisit progress seq operation entry
  obtain ⟨count, level, hentry, -, hlevel⟩ := maybeRecovery_entry
    (observeVisit progress seq operation entry).1 policy
    (observeVisit progress seq operation entry).2.redundantRevisit
  rw [visitLedger, hentry]
  exact ⟨hobserved.id, hobserved.dependsOn, hobserved.reports,
    hobserved.recorded, fun hquiet hunder hnone =>
      hobserved.held hquiet hunder (hlevel hnone)⟩

/-! The ledger of a step. -/

/-- The ledger that an id names: the first one that has it. -/
def ledgerNamed (ledgers : List InvestigationLedgerEntry) (id : String) :
    Option InvestigationLedgerEntry :=
  ledgers.find? fun entry => entry.ledgerId == id

section

variable {ledgers : List InvestigationLedgerEntry} {id other : String}
  {entry visited : InvestigationLedgerEntry}

theorem ledgerNamed_cons : ledgerNamed (entry :: ledgers) id =
    if entry.ledgerId = id then some entry else ledgerNamed ledgers id := by
  rw [ledgerNamed, find?_cons]
  by_cases heq : entry.ledgerId = id
  · rw [if_pos heq, beq_iff_eq.mpr heq]
  · rw [if_neg heq, beq_false_of_ne heq]
    rfl

theorem id_of_ledgerNamed (hnamed : ledgerNamed ledgers id = some entry) :
    entry.ledgerId = id := by
  have hfound := find?_some hnamed
  exact beq_iff_eq.mp hfound

theorem ledgerNamed_replaceFirst (hvisited : visited.ledgerId = id)
    (hnamed : ledgerNamed ledgers id = some entry) :
    ledgerNamed (replaceFirst id visited ledgers) other =
      if other = id then some visited else ledgerNamed ledgers other := by
  induction ledgers with
  | nil => cases hnamed
  | cons head rest ih =>
    rw [ledgerNamed_cons] at hnamed
    rw [replaceFirst]
    split
    · rename_i hhead
      rw [ledgerNamed_cons, ledgerNamed_cons, hvisited, hhead]
      by_cases heq : other = id
      · rw [if_pos heq.symm, if_pos heq]
      · rw [if_neg (Ne.symm heq), if_neg heq, if_neg (Ne.symm heq)]
    · rename_i hhead
      rw [if_neg hhead] at hnamed
      rw [ledgerNamed_cons, ledgerNamed_cons, ih hnamed]
      by_cases hother : head.ledgerId = other
      · have hne : other ≠ id := hother ▸ hhead
        rw [if_pos hother, if_neg hne, if_pos hother]
      · rw [if_neg hother, if_neg hother]

variable {encodedLen : InvestigationLedgerState → Nat}
  {policy : InvestigationPolicy} {state : InvestigationLedgerState}

/-- The retention drops an id altogether or leaves it the ledger it names. -/
theorem ledgerNamed_dropLedgers {order : List String}
    (hnamed : ledgerNamed (dropLedgers encodedLen policy order state).ledgers
      id = some entry) : ledgerNamed state.ledgers id = some entry := by
  induction order generalizing state with
  | nil => exact hnamed
  | cons dropId rest ih =>
    rw [dropLedgers] at hnamed
    split at hnamed
    · exact hnamed
    · split at hnamed
      · exact hnamed
      · split at hnamed
        · exact ih hnamed
        · have hkept := ih hnamed
          have hid := id_of_ledgerNamed hkept
          have hdrop : id ≠ dropId := by
            have hmem := mem_of_find?_eq_some hkept
            have hne := (mem_filter.mp hmem).2
            rw [← hid]
            exact bne_iff_ne.mp hne
          rw [ledgerNamed, find?_filter] at hkept
          rw [← hkept, ledgerNamed]
          congr 1
          funext found
          by_cases hfound : found.ledgerId = id
          · simp [hfound, hdrop]
          · simp [hfound]

theorem ledgerNamed_boundLedgers
    (hnamed : ledgerNamed (boundLedgers encodedLen policy state).ledgers id =
      some entry) : ledgerNamed state.ledgers id = some entry := by
  rw [boundLedgers] at hnamed
  split at hnamed
  · exact hnamed
  · split at hnamed
    · exact hnamed
    · exact ledgerNamed_dropLedgers hnamed

end

section

variable (sha256Hex : String → String)

/-- The ledger that an operation goes to, as the operation finds it. -/
def askedLedger (state : InvestigationLedgerState) (call : InvestigationCall) :
    Option InvestigationLedgerEntry :=
  if !call.operation.completed || !isInvestigationOperation call.operation then
    none
  else if call.identity.subjects.isEmpty then none
  else
    let decision := linkOperation call.identity state.descriptors
    let id := decision.ledgerId.getD (stableLedgerId sha256Hex call.identity)
    some ((ledgerNamed state.ledgers id).getD
      (openedLedger call.progress (saturatingSucc 64 state.nextSeq)
        call.operation call.identity decision.method id))

variable {sha256Hex} {state : InvestigationLedgerState}
  {call : InvestigationCall} {entry : InvestigationLedgerEntry}

/-- The ledger is there already, or is opened with nothing seen. -/
theorem askedLedger_cases (hasked : askedLedger sha256Hex state call = some entry) :
    ledgerNamed state.ledgers entry.ledgerId = some entry ∨
      (ledgerNamed state.ledgers entry.ledgerId = none ∧
        entry.dependsOn = [] ∧
        entry.lastSeenProgress = call.progress.snapshotFor []) := by
  unfold askedLedger at hasked
  split at hasked
  · cases hasked
  · split at hasked
    · cases hasked
    · rw [some.injEq] at hasked
      cases hnamed : ledgerNamed state.ledgers
          ((linkOperation call.identity state.descriptors).ledgerId.getD
            (stableLedgerId sha256Hex call.identity)) with
      | none =>
        rw [hnamed, getD_none] at hasked
        rw [← hasked]
        exact Or.inr ⟨hnamed, rfl, rfl⟩
      | some found =>
        rw [hnamed, getD_some] at hasked
        rw [← hasked, id_of_ledgerNamed hnamed]
        exact Or.inl hnamed

theorem ledgerNamed_opened {ledgers : List InvestigationLedgerEntry}
    {new : InvestigationLedgerEntry} {created : Bool}
    (hcreated : created = false →
      ledgerNamed ledgers new.ledgerId ≠ none) (other : String) :
    ledgerNamed (if created then ledgers ++ [new] else ledgers) other =
      if other = new.ledgerId then
        some ((ledgerNamed ledgers new.ledgerId).getD new)
      else ledgerNamed ledgers other := by
  have hlast : ledgerNamed (ledgers ++ [new]) other =
      (ledgerNamed ledgers other).or
        (if new.ledgerId = other then some new else none) := by
    rw [ledgerNamed, find?_append]
    exact congrArg _ ledgerNamed_cons
  by_cases hother : other = new.ledgerId
  · rw [if_pos hother, hother]
    cases hnamed : ledgerNamed ledgers new.ledgerId with
    | none =>
      cases created with
      | false => exact absurd hnamed (hcreated rfl)
      | true =>
        rw [hother, hnamed, if_pos rfl] at hlast
        exact hlast
    | some found =>
      rw [hother, hnamed] at hlast
      cases created with
      | false => exact hnamed
      | true => exact hlast
  · rw [if_neg (Ne.symm hother), or_none] at hlast
    rw [if_neg hother]
    cases created with
    | false => rfl
    | true => exact hlast

theorem visitNamed_of_named (policy : InvestigationPolicy)
    {progress : MaterialProgress} {seq : Nat} {operation : EvidenceOperation}
    {transition : InvestigationTransition}
    {ledgers : List InvestigationLedgerEntry}
    (hnamed : ledgerNamed ledgers transition.ledgerId = some entry) :
    visitNamed policy progress seq operation transition ledgers =
      (replaceFirst transition.ledgerId
        (visitLedger policy progress seq operation entry transition).1 ledgers,
        (visitLedger policy progress seq operation entry transition).2) := by
  rw [ledgerNamed] at hnamed
  simp only [visitNamed, hnamed]
  rfl

/-- What a step leaves of the ledgers: its own as the look leaves it, and the
others as they were, as far as they are kept. -/
def LookedAt (state : InvestigationLedgerState) (call : InvestigationCall)
    (entry : InvestigationLedgerEntry)
    (result : List InvestigationLedgerEntry × InvestigationTransition) : Prop :=
  result.2.ledgerId = entry.ledgerId ∧ result.2.skipped = false ∧
    ∃ visited, Looked call.progress call.operation entry visited
        result.2.relevantProgress ∧
      ∀ id left, ledgerNamed result.1 id = some left →
        (if id = entry.ledgerId then some visited
          else ledgerNamed state.ledgers id) = some left

theorem lookedAt_linkAndVisit (policy : InvestigationPolicy)
    (state : InvestigationLedgerState) (call : InvestigationCall) (seq : Nat)
    (decision : LinkDecision) {id : String}
    (hid : decision.ledgerId.getD
      (stableLedgerId sha256Hex call.identity) = id)
    (hentry : (ledgerNamed state.ledgers id).getD (openedLedger call.progress
      seq call.operation call.identity decision.method id) = entry) :
    LookedAt state call entry
      (linkAndVisit sha256Hex policy state.ledgers call.progress seq
        call.operation call.identity decision) := by
  have hnamed : entry.ledgerId = id := by
    rw [← hentry]
    cases hnamed : ledgerNamed state.ledgers id with
    | none => rfl
    | some found => exact id_of_ledgerNamed hnamed
  rw [linkAndVisit, hid]
  generalize hcreated : (decision.created ||
    !state.ledgers.any fun entry => entry.ledgerId == id) = created
  generalize hnew : openedLedger call.progress seq call.operation
    call.identity decision.method id = new at hentry ⊢
  have hnewId : new.ledgerId = id := by rw [← hnew]; rfl
  have hthere : created = false → ledgerNamed state.ledgers new.ledgerId ≠
      none := by
    rintro rfl hnone
    rw [Bool.or_eq_false_iff, Bool.not_eq_false', List.any_eq_true] at hcreated
    obtain ⟨found, hmem, hfound⟩ := hcreated.2
    rw [hnewId] at hnone
    exact find?_eq_none.mp hnone found hmem hfound
  have hopened := ledgerNamed_opened hthere
  rw [hnewId, hentry] at hopened
  have hfound := hopened id
  rw [if_pos rfl] at hfound
  have hlooked := looked_visitLedger policy call.progress seq call.operation
    entry
  rw [visitNamed_of_named policy hfound]
  refine ⟨hnamed.symm, rfl, _, hlooked _, fun other left hleft => ?_⟩
  rw [← hleft, ledgerNamed_replaceFirst ((hlooked _).id.trans hnamed) hfound, hopened,
    hnamed]
  by_cases hother : other = id
  · rw [if_pos hother, if_pos hother]
  · rw [if_neg hother, if_neg hother, if_neg hother]

variable (sha256Hex) in
/-- A step is skipped or looks at the one ledger it asks for. -/
theorem reduceInvestigation_cases
    (encodedLen : InvestigationLedgerState → Nat)
    (policy : InvestigationPolicy) (state : InvestigationLedgerState)
    (call : InvestigationCall) :
    let result := reduceInvestigation sha256Hex encodedLen policy state
      call.operation call.progress
    (askedLedger sha256Hex state call = none ∧
      result.1.ledgers = state.ledgers ∧ result.2 = { skipped := true }) ∨
    ∃ entry, askedLedger sha256Hex state call = some entry ∧
      LookedAt state call entry (result.1.ledgers, result.2) := by
  unfold askedLedger reduceInvestigation touchLedger
  dsimp only
  split
  · exact Or.inl ⟨rfl, rfl, rfl⟩
  · split
    · rename_i hsubjects
      erw [if_pos hsubjects]
      exact Or.inl ⟨rfl, rfl, rfl⟩
    · rename_i hsubjects
      erw [if_neg hsubjects]
      obtain ⟨hid, hskipped, visited, hlooked, hnamed⟩ :=
        lookedAt_linkAndVisit policy state call
          (saturatingSucc 64 state.nextSeq)
          (linkOperation call.identity state.descriptors) rfl rfl
      erw [if_neg (Bool.eq_false_iff.mp hskipped)]
      exact Or.inr ⟨_, rfl, hid, hskipped, visited, hlooked,
        fun id left hleft => hnamed id left (ledgerNamed_boundLedgers hleft)⟩

/-! Runs. -/

/-- The ledgers, and the progress that the last look at each of them had. -/
structure WatchedLedgers where
  state : InvestigationLedgerState := {}
  looks : String → Option MaterialProgress := fun _ => none

namespace WatchedLedgers

variable (sha256Hex) (encodedLen : InvestigationLedgerState → Nat)
  (policy : InvestigationPolicy)

variable (watched : WatchedLedgers) (call : InvestigationCall)

abbrev result : InvestigationLedgerState × InvestigationTransition :=
  reduceInvestigation sha256Hex encodedLen policy watched.state call.operation
    call.progress

def step : WatchedLedgers :=
  let (after, transition) := watched.result sha256Hex encodedLen policy call
  { state := after
    looks :=
      if transition.skipped then watched.looks
      else Function.update watched.looks transition.ledgerId call.progress }

/-- A domain that the ledger depends on, with the channel of the call, or the
user's instructions rose since the previous look at the ledger. -/
def RoseSince (id : String) : Prop :=
  ∃ entry past, ledgerNamed watched.state.ledgers id = some entry ∧
    watched.looks id = some past ∧
    call.progress.relevantProgressSince past
      (insertChannel call.operation.channel entry.dependsOn) = true

/-- Only what rose since the previous look is reported as progress or ends the
recovery of a ledger. -/
structure ProgressIsNews (watched : WatchedLedgers)
    (call : InvestigationCall) : Prop where
  reported :
    (watched.result sha256Hex encodedLen policy call).2.relevantProgress =
      true →
    watched.RoseSince call
      (watched.result sha256Hex encodedLen policy call).2.ledgerId
  cleared : ∀ id entry visited,
    ledgerNamed watched.state.ledgers id = some entry →
    entry.recoveryState ≠ .none →
    ledgerNamed (watched.result sha256Hex encodedLen policy call).1.ledgers
      id = some visited →
    visited.recoveryState = .none → watched.RoseSince call id

/-- Where the call comes through a channel that is new to its ledger and runs
ahead of the ledger's record, something did rise since the previous look. -/
def NewChannelRecorded : Prop :=
  ∀ entry, askedLedger sha256Hex watched.state call = some entry →
    call.operation.channel ∉ entry.dependsOn →
    call.progress.aheadOn entry.lastSeenProgress call.operation.channel =
      true →
    watched.RoseSince call entry.ledgerId

/-- The record of a ledger holds what the previous look had. -/
def Recorded : Prop :=
  ∀ id entry, ledgerNamed watched.state.ledgers id = some entry →
    ∃ past, watched.looks id = some past ∧
      past.relevantProgressSince entry.lastSeenProgress entry.dependsOn ≠ true

variable {sha256Hex encodedLen policy} {watched : WatchedLedgers}

theorem Recorded.step (hrecorded : watched.Recorded)
    (call : InvestigationCall) :
    (watched.step sha256Hex encodedLen policy call).Recorded := by
  intro id entry hleft
  dsimp only [WatchedLedgers.step] at hleft ⊢
  rcases reduceInvestigation_cases sha256Hex encodedLen policy watched.state
      call with ⟨-, hledgers, htransition⟩ |
    ⟨asked, -, hid, hskipped, visited, hlooked, hnamed⟩
  · rw [hledgers] at hleft
    rw [htransition, if_pos rfl]
    exact hrecorded id entry hleft
  · dsimp only at hid hskipped
    rw [hskipped, if_neg Bool.false_ne_true, hid]
    have hafter := hnamed id entry hleft
    split at hafter
    · rename_i hsame
      obtain rfl := some.inj hafter
      rw [hsame, Function.update_self]
      exact ⟨call.progress, rfl, hlooked.recorded⟩
    · rename_i hother
      rw [Function.update_of_ne hother]
      exact hrecorded id entry hafter

variable (sha256Hex encodedLen policy) in
theorem recorded_run (calls : List InvestigationCall) :
    (calls.foldl (step sha256Hex encodedLen policy) {}).Recorded := by
  induction calls using reverseRecOn with
  | nil => exact fun _ _ hnamed => nomatch hnamed
  | append_singleton calls call ih =>
    rw [foldl_concat]
    exact ih.step call

/-- Old channels report what rose since the previous look; so does a new one
where the record covers it. -/
theorem Recorded.roseSince (hrecorded : watched.Recorded)
    {call : InvestigationCall} {entry visited : InvestigationLedgerEntry}
    (hasked : askedLedger sha256Hex watched.state call = some entry)
    (hquiet : watched.NewChannelRecorded sha256Hex call)
    (hlooked : Looked call.progress call.operation entry visited true) :
    watched.RoseSince call entry.ledgerId := by
  have hreports := hlooked.reports.symm
  by_cases hold : call.progress.relevantProgressSince entry.lastSeenProgress
      entry.dependsOn = true
  · rcases askedLedger_cases hasked with hnamed | ⟨-, hdeps, hlast⟩
    · obtain ⟨past, hpast, hcovers⟩ := hrecorded _ entry hnamed
      have hrose := MaterialProgress.relevantProgressSince_of_recorded
        hcovers hold
      refine ⟨entry, past, hnamed, hpast, ?_⟩
      rw [MaterialProgress.relevantProgressSince_iff] at hrose ⊢
      refine hrose.imp_right ?_
      rintro ⟨channel, hmem, hahead⟩
      exact ⟨channel, mem_insertChannel.mpr (Or.inr hmem), hahead⟩
    · rw [hdeps, hlast] at hold
      exact absurd hold MaterialProgress.recorded_snapshotFor
  · rw [hlooked.dependsOn,
      MaterialProgress.relevantProgressSince_iff] at hreports
    rw [MaterialProgress.relevantProgressSince_iff, not_or] at hold
    obtain ⟨channel, hmem, hahead⟩ := hreports.resolve_left hold.1
    rcases mem_insertChannel.mp hmem with rfl | hknown
    · exact hquiet entry hasked
        (fun hknown => hold.2 ⟨_, hknown, hahead⟩) hahead
    · exact absurd ⟨channel, hknown, hahead⟩ hold.2

variable (sha256Hex encodedLen policy) in
/-- Behind every run, a step reports as progress, and lets end a recovery, only
what rose since the previous look at its ledger if and only if it does not come
through a channel that is new to the ledger and ahead of its record. -/
theorem progressIsNews_iff (calls : List InvestigationCall)
    (call : InvestigationCall) :
    (calls.foldl (step sha256Hex encodedLen policy) {}).ProgressIsNews
        sha256Hex encodedLen policy call ↔
      (calls.foldl (step sha256Hex encodedLen policy) {}).NewChannelRecorded
        sha256Hex call := by
  have hrecorded := recorded_run sha256Hex encodedLen policy calls
  generalize calls.foldl (step sha256Hex encodedLen policy) {} = watched at *
  rcases reduceInvestigation_cases sha256Hex encodedLen policy watched.state
      call with ⟨hskipped, hledgers, htransition⟩ |
    ⟨asked, hasked, hid, -, looked, hlooked, hnamed⟩
  · refine ⟨fun _ entry hasked => ?_, fun _ => ⟨fun hreported => ?_, ?_⟩⟩
    · rw [hskipped] at hasked
      cases hasked
    · rw [htransition] at hreported
      cases hreported
    · intro id entry visited hthere hunder hafter hnone
      rw [hledgers, hthere] at hafter
      rw [some.inj hafter] at hunder
      exact absurd hnone hunder
  · constructor
    · intro hnews entry hentry hnew hahead
      obtain rfl := some.inj (hasked.symm.trans hentry)
      have hreported := hnews.reported ?_
      · exact hid ▸ hreported
      · rw [hlooked.reports, hlooked.dependsOn,
          MaterialProgress.relevantProgressSince_iff]
        exact Or.inr ⟨_, mem_insertChannel.mpr (Or.inl rfl), hahead⟩
    · intro hquiet
      refine ⟨fun hreported => ?_, ?_⟩
      · rw [hid]
        exact hrecorded.roseSince hasked hquiet (hreported ▸ hlooked)
      · intro id entry visited hthere hunder hafter hnone
        have hleft := hnamed id visited hafter
        split at hleft
        · rename_i hsame
          obtain rfl := some.inj hleft
          have hentry : asked = entry := by
            rcases askedLedger_cases hasked with hfound | ⟨hnew, -⟩
            · rw [← hsame, hthere] at hfound
              exact (some.inj hfound).symm
            · rw [← hsame, hthere] at hnew
              cases hnew
          have hreported := mt (fun hfalse =>
            hlooked.held hfalse (hentry ▸ hunder)) (not_not.mpr hnone)
          rw [Bool.not_eq_false] at hreported
          rw [hsame]
          exact hrecorded.roseSince hasked hquiet (hreported ▸ hlooked)
        · rw [hthere] at hleft
          rw [some.inj hleft] at hunder
          exact absurd hnone hunder

end WatchedLedgers

end

/-- The search of the file, and then of the history, with nothing new. -/
def historySearch : InvestigationCall where
  operation := { needleSearch.operation with channel := .vcs }
  progress := { vcsRevision := 1 }

/-- The second search is reported as progress for a commit that the first one
knew of. -/
theorem new_channel_reports_old_progress :
    ¬ ([{ needleSearch with progress := historySearch.progress }].foldl
        (WatchedLedgers.step ledgerDigest (fun _ => 0) {}) {}).ProgressIsNews
      ledgerDigest (fun _ => 0) {} historySearch := by
  intro hnews
  obtain ⟨entry, past, -, hpast, hrose⟩ := hnews.reported rfl
  have hsame : some past = some historySearch.progress :=
    hpast.symm.trans rfl
  rw [some.inj hsame] at hrose
  exact MaterialProgress.not_relevantProgressSince_self hrose

end Vellum.Proxy

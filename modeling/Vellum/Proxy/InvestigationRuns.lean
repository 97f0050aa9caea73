/-
Runs of the investigation reducer.  As long as no operation opens a ledger
under the id of another one, the ids stay distinct, each operation changes the
one ledger it names, and the retention drops no ledger under recovery.  Two
questions whose texts are the same share an id all the same.
-/
import Vellum.Proxy.Investigation

namespace Vellum.Proxy

open List Option

/-! One visit. -/

theorem maybeRecovery_entry (entry : InvestigationLedgerEntry)
    (policy : InvestigationPolicy) (redundant : Bool) :
    ∃ count level, (maybeRecovery entry policy redundant).1 =
        { entry with recoveryCount := count, recoveryState := level } ∧
      (entry.recoveryCount ≤ 2 → count ≤ 2) ∧
      (level = .none → entry.recoveryState = .none) := by
  have hsame : entry = { entry with
      recoveryCount := entry.recoveryCount
      recoveryState := entry.recoveryState } := rfl
  unfold maybeRecovery
  split
  · exact ⟨_, _, hsame, id, id⟩
  · split
    · exact ⟨_, _, hsame, id, id⟩
    · split
      · exact ⟨_, _, hsame, id, id⟩
      · split
        · exact ⟨_, _, hsame, id, id⟩
        · split
          · exact ⟨_, _, hsame, id, id⟩
          · split
            · exact ⟨_, _, hsame, id, id⟩
            · rename_i hcount
              refine ⟨_, _, rfl, fun _ => ?_, fun hnone => ?_⟩
              · rw [saturatingSucc]
                omega
              · split at hnone <;> cases hnone

theorem mem_extendFrontier {frontier signatures : List EvidenceSignature}
    {signature : EvidenceSignature}
    (hmem : signature ∈ extendFrontier frontier signatures) :
    signature ∈ frontier ∨
      signature.provenance ≠ .selfGeneratedConversation := by
  induction signatures generalizing frontier with
  | nil => exact Or.inl hmem
  | cons first rest ih =>
    rw [extendFrontier] at hmem
    split at hmem
    · exact ih hmem
    · rename_i hself
      split at hmem
      · exact ih hmem
      · rcases ih hmem with hfront | hother
        · rcases mem_append.mp hfront with hold | hnew
          · exact Or.inl hold
          · rw [mem_singleton.mp hnew]
            exact Or.inr hself
        · exact Or.inr hother

theorem nodup_extendFrontier {frontier signatures : List EvidenceSignature}
    (hnodup : frontier.Nodup) :
    (extendFrontier frontier signatures).Nodup := by
  induction signatures generalizing frontier with
  | nil => exact hnodup
  | cons first rest ih =>
    rw [extendFrontier]
    split
    · exact ih hnodup
    · split
      · exact ih hnodup
      · rename_i hfresh
        refine ih (nodup_append.mpr
          ⟨hnodup, nodup_singleton first, ?_⟩)
        intro old hold new hnew
        rw [mem_singleton.mp hnew]
        rintro rfl
        exact hfresh hold

/-- What every ledger keeps: its evidence is listed once and is independent,
and it has had at most two recoveries. -/
structure SoundLedger (entry : InvestigationLedgerEntry) : Prop where
  nodup : entry.evidenceFrontier.Nodup
  independent : ∀ signature ∈ entry.evidenceFrontier,
    signature.provenance ≠ .selfGeneratedConversation
  recoveries : entry.recoveryCount ≤ 2

/-- What a visit leaves: the same ledger, touched now, with the evidence of
the operation added. -/
structure Visited (entry visited : InvestigationLedgerEntry) (seq : Nat)
    (operation : EvidenceOperation) : Prop where
  id : visited.ledgerId = entry.ledgerId
  seq : visited.lastActivitySeq = seq
  frontier : visited.evidenceFrontier =
    extendFrontier entry.evidenceFrontier operation.stableEvidence
  recoveries : entry.recoveryCount ≤ 2 → visited.recoveryCount ≤ 2

theorem visited_observeVisit (progress : MaterialProgress) (seq : Nat)
    (operation : EvidenceOperation) (entry : InvestigationLedgerEntry) :
    Visited entry (observeVisit progress seq operation entry).1 seq
      operation := by
  unfold observeVisit
  dsimp only
  constructor
  · split_ifs <;> rfl
  · split_ifs <;> rfl
  · split_ifs <;> rfl
  · split_ifs <;> exact id

theorem visited_visitLedger (policy : InvestigationPolicy)
    (progress : MaterialProgress) (seq : Nat) (operation : EvidenceOperation)
    (entry : InvestigationLedgerEntry) (transition : InvestigationTransition) :
    Visited entry
      (visitLedger policy progress seq operation entry transition).1 seq
      operation := by
  have hobserved := visited_observeVisit progress seq operation entry
  obtain ⟨count, level, hentry, hcount, -⟩ := maybeRecovery_entry
    (observeVisit progress seq operation entry).1 policy
    (observeVisit progress seq operation entry).2.redundantRevisit
  rw [visitLedger, hentry]
  exact ⟨hobserved.id, hobserved.seq, hobserved.frontier,
    fun hle => hcount (hobserved.recoveries hle)⟩

theorem SoundLedger.visited {entry visited : InvestigationLedgerEntry}
    {seq : Nat} {operation : EvidenceOperation} (hsound : SoundLedger entry)
    (hvisited : Visited entry visited seq operation) : SoundLedger visited := by
  refine ⟨?_, ?_, hvisited.recoveries hsound.recoveries⟩
  · rw [hvisited.frontier]
    exact nodup_extendFrontier hsound.nodup
  · intro signature hmem
    rw [hvisited.frontier] at hmem
    rcases mem_extendFrontier hmem with hold | hnew
    · exact hsound.independent signature hold
    · exact hnew

/-! The list of ledgers. -/

section

variable {ledgers : List InvestigationLedgerEntry} {id : String}
  {entry visited : InvestigationLedgerEntry}

theorem map_replaceFirst (hid : visited.ledgerId = id) :
    (replaceFirst id visited ledgers).map InvestigationLedgerEntry.ledgerId =
      ledgers.map InvestigationLedgerEntry.ledgerId := by
  induction ledgers with
  | nil => rfl
  | cons head rest ih =>
    rw [replaceFirst]
    split
    · rename_i hhead
      rw [map_cons, map_cons, hid, hhead]
    · rw [map_cons, map_cons, ih]

theorem mem_replaceFirst (hmem : entry ∈ replaceFirst id visited ledgers) :
    entry = visited ∨ entry ∈ ledgers := by
  induction ledgers with
  | nil => cases hmem
  | cons head rest ih =>
    rw [replaceFirst] at hmem
    split at hmem
    · rcases mem_cons.mp hmem with hvisited | hrest
      · exact Or.inl hvisited
      · exact Or.inr (mem_cons_of_mem head hrest)
    · rcases mem_cons.mp hmem with hhead | hrest
      · exact Or.inr (mem_cons.mpr (Or.inl hhead))
      · rcases ih hrest with hvisited | hold
        · exact Or.inl hvisited
        · exact Or.inr (mem_cons_of_mem head hold)

/-- The other ledgers stay, each as it was. -/
theorem mem_replaceFirst_of_ne (hmem : entry ∈ ledgers)
    (hne : entry.ledgerId ≠ id) : entry ∈ replaceFirst id visited ledgers := by
  induction ledgers with
  | nil => cases hmem
  | cons head rest ih =>
    rw [replaceFirst]
    split
    · rename_i hhead
      rcases mem_cons.mp hmem with heq | hrest
      · rw [heq] at hne
        exact absurd hhead hne
      · exact mem_cons_of_mem visited hrest
    · rcases mem_cons.mp hmem with heq | hrest
      · rw [heq]
        exact mem_cons_self
      · exact mem_cons_of_mem head (ih hrest)

theorem self_mem_replaceFirst
    (hid : id ∈ ledgers.map InvestigationLedgerEntry.ledgerId) :
    visited ∈ replaceFirst id visited ledgers := by
  induction ledgers with
  | nil => cases hid
  | cons head rest ih =>
    rw [replaceFirst]
    split
    · exact mem_cons_self
    · rename_i hhead
      rw [map_cons, mem_cons] at hid
      rcases hid with heq | hrest
      · exact absurd heq.symm hhead
      · exact mem_cons_of_mem head (ih hrest)

theorem eq_of_ledgerId
    (hnodup : (ledgers.map InvestigationLedgerEntry.ledgerId).Nodup)
    (hentry : entry ∈ ledgers) (hvisited : visited ∈ ledgers)
    (hid : entry.ledgerId = visited.ledgerId) : entry = visited :=
  inj_on_of_nodup_map hnodup hentry hvisited hid

end

/-! The retention. -/

section

variable {encodedLen : InvestigationLedgerState → Nat}
  {policy : InvestigationPolicy} {state : InvestigationLedgerState}

theorem dropLedgers_sublist (order : List String) :
    (dropLedgers encodedLen policy order state).ledgers.Sublist
      state.ledgers := by
  induction order generalizing state with
  | nil => exact List.Sublist.refl _
  | cons dropId rest ih =>
    rw [dropLedgers]
    split
    · exact List.Sublist.refl _
    · split
      · exact List.Sublist.refl _
      · split
        · exact ih
        · exact ih.trans filter_sublist

theorem boundLedgers_sublist :
    (boundLedgers encodedLen policy state).ledgers.Sublist state.ledgers := by
  rw [boundLedgers]
  split
  · exact List.Sublist.refl _
  · split
    · exact List.Sublist.refl _
    · exact dropLedgers_sublist _

theorem mem_dropLedgers {entry : InvestigationLedgerEntry}
    (hnodup : (state.ledgers.map InvestigationLedgerEntry.ledgerId).Nodup)
    (hmem : entry ∈ state.ledgers) (hlocked : entry.locked = true)
    (order : List String) :
    entry ∈ (dropLedgers encodedLen policy order state).ledgers := by
  induction order generalizing state with
  | nil => exact hmem
  | cons dropId rest ih =>
    rw [dropLedgers]
    split
    · exact hmem
    · split
      · exact hmem
      · split
        · exact ih hnodup hmem
        · rename_i hunlocked
          have hother : entry.ledgerId ≠ dropId := by
            intro hdrop
            apply hunlocked
            rw [Option.any_eq_true]
            cases hfind : state.ledgers.find?
                fun other => other.ledgerId == dropId with
            | none =>
              have hnone := find?_eq_none.mp hfind entry hmem
              exact absurd (beq_iff_eq.mpr hdrop) hnone
            | some found =>
              have hid : found.ledgerId = dropId := by
                have hfound := find?_some hfind
                exact beq_iff_eq.mp hfound
              have heq : found = entry := eq_of_ledgerId hnodup
                (mem_of_find?_eq_some hfind) hmem
                (hid.trans hdrop.symm)
              exact ⟨found, rfl, by rw [heq]; exact hlocked⟩
          refine ih ?_ ?_
          · exact (filter_sublist.map _).nodup hnodup
          · exact mem_filter.mpr ⟨hmem, by simpa using hother⟩

theorem mem_boundLedgers {entry : InvestigationLedgerEntry}
    (hnodup : (state.ledgers.map InvestigationLedgerEntry.ledgerId).Nodup)
    (hmem : entry ∈ state.ledgers) (hlocked : entry.locked = true) :
    entry ∈ (boundLedgers encodedLen policy state).ledgers := by
  rw [boundLedgers]
  split
  · exact hmem
  · split
    · exact hmem
    · exact mem_dropLedgers hnodup hmem hlocked _

end

/-! One step. -/

theorem maxByKey_mem {α : Type} {key : α → Nat} {items : List α} {found : α}
    (hfound : maxByKey key items = some found) : found ∈ items := by
  cases items with
  | nil => cases hfound
  | cons first rest =>
    rw [maxByKey, some.injEq] at hfound
    rw [← hfound]
    clear hfound
    induction rest generalizing first with
    | nil => exact mem_cons_self
    | cons next rest ih =>
      rw [foldl_cons]
      split
      · exact mem_cons_of_mem first (ih next)
      · rcases mem_cons.mp (ih first) with heq | hrest
        · exact mem_cons.mpr (Or.inl heq)
        · exact mem_cons_of_mem first
            (mem_cons_of_mem next hrest)

/-- The linker names one of the candidates, or none and has a ledger opened. -/
theorem linkOperation_cases (identity : InvestigationIdentity)
    (candidates : List LedgerDescriptor) :
    ((linkOperation identity candidates).ledgerId = none ∧
      (linkOperation identity candidates).created = true) ∨
    ∃ found ∈ candidates,
      (linkOperation identity candidates).ledgerId = some found.ledgerId ∧
      (linkOperation identity candidates).created = false := by
  unfold linkOperation
  split
  · rename_i found hfound
    exact Or.inr ⟨found, mem_of_find?_eq_some hfound, rfl, rfl⟩
  · split
    · rename_i found hfound
      have hmem := maxByKey_mem hfound
      exact Or.inr ⟨found, (mem_filter.mp hmem).1, rfl, rfl⟩
    · exact Or.inl ⟨rfl, rfl⟩

/-- An operation with the progress known when it is reduced. -/
structure InvestigationCall where
  operation : EvidenceOperation
  progress : MaterialProgress := {}

section

variable (sha256Hex : String → String)

def InvestigationCall.identity (call : InvestigationCall) :
    InvestigationIdentity :=
  .fromOperation call.operation call.progress.userInstructionRevision

/-- An operation that no stored ledger is linked to does not come under the id
of one. -/
def OpensFreshLedger (state : InvestigationLedgerState)
    (call : InvestigationCall) : Prop :=
  call.operation.completed = true →
  isInvestigationOperation call.operation = true →
  call.identity.subjects ≠ [] →
  (linkOperation call.identity state.descriptors).ledgerId = none →
  stableLedgerId sha256Hex call.identity ∉
    state.ledgers.map InvestigationLedgerEntry.ledgerId

/-- What a run keeps. -/
structure LedgerInv (state : InvestigationLedgerState) : Prop where
  distinct : (state.ledgers.map InvestigationLedgerEntry.ledgerId).Nodup
  sound : ∀ entry ∈ state.ledgers, SoundLedger entry

/-- What a step does before the retention: nothing, or one visit to a ledger
that is there or was just opened. -/
inductive Touched (ledgers : List InvestigationLedgerEntry)
    (call : InvestigationCall) (fresh : Prop) (seq : Nat) :
    List InvestigationLedgerEntry → InvestigationTransition → Prop where
  | skipped {transition : InvestigationTransition}
      (hskipped : transition.skipped = true) :
      Touched ledgers call fresh seq ledgers transition
  | visited {transition : InvestigationTransition}
      {opened : List InvestigationLedgerEntry}
      {entry visited : InvestigationLedgerEntry}
      (hopened : opened = ledgers ∨
        ∃ new, opened = ledgers ++ [new] ∧ SoundLedger new ∧
          new.ledgerId = transition.ledgerId ∧
          (fresh → new.ledgerId ∉
            ledgers.map InvestigationLedgerEntry.ledgerId))
      (hentry : entry ∈ opened) (hid : entry.ledgerId = transition.ledgerId)
      (hvisited : Visited entry visited seq call.operation)
      (hskipped : transition.skipped = false) :
      Touched ledgers call fresh seq
        (replaceFirst transition.ledgerId visited opened) transition

theorem touched_visitNamed {fresh : Prop} (policy : InvestigationPolicy)
    {call : InvestigationCall} {seq : Nat}
    {ledgers opened : List InvestigationLedgerEntry}
    {transition : InvestigationTransition}
    (hopened : opened = ledgers ∨
      ∃ new, opened = ledgers ++ [new] ∧ SoundLedger new ∧
        new.ledgerId = transition.ledgerId ∧
        (fresh → new.ledgerId ∉
          ledgers.map InvestigationLedgerEntry.ledgerId))
    (hid : transition.ledgerId ∈
      opened.map InvestigationLedgerEntry.ledgerId)
    (hskipped : transition.skipped = false) :
    Touched ledgers call fresh seq
      (visitNamed policy call.progress seq call.operation transition opened).1
      (visitNamed policy call.progress seq call.operation transition
        opened).2 := by
  rw [visitNamed]
  split
  · rename_i hnone
    obtain ⟨entry, hentry, heq⟩ := List.mem_map.mp hid
    have hne := find?_eq_none.mp hnone entry hentry
    exact absurd (beq_iff_eq.mpr heq) hne
  · rename_i entry hfind
    have hfound := find?_some hfind
    exact .visited hopened (mem_of_find?_eq_some hfind)
      (beq_iff_eq.mp hfound)
      (visited_visitLedger policy call.progress seq call.operation entry
        transition) hskipped

theorem sound_openedLedger (progress : MaterialProgress) (seq : Nat)
    (operation : EvidenceOperation) (identity : InvestigationIdentity)
    (method : LinkMethod) (ledgerId : String) :
    SoundLedger
      (openedLedger progress seq operation identity method ledgerId) :=
  ⟨nodup_nil, fun _ hmem => absurd hmem not_mem_nil,
    Nat.zero_le 2⟩

theorem touched_linkAndVisit (policy : InvestigationPolicy)
    (state : InvestigationLedgerState) (call : InvestigationCall) (seq : Nat)
    (hsubjects : call.identity.subjects ≠ [])
    (hcompleted : call.operation.completed = true)
    (hinvestigation : isInvestigationOperation call.operation = true) :
    Touched state.ledgers call (OpensFreshLedger sha256Hex state call) seq
      (linkAndVisit sha256Hex policy state.ledgers call.progress seq
        call.operation call.identity
        (linkOperation call.identity state.descriptors)).1
      (linkAndVisit sha256Hex policy state.ledgers call.progress seq
        call.operation call.identity
        (linkOperation call.identity state.descriptors)).2 := by
  rcases linkOperation_cases call.identity state.descriptors with
    ⟨hnone, hcreated⟩ | ⟨found, hfound, hsome, hcreated⟩
  · rw [linkAndVisit, hnone, hcreated]
    simp only [getD_none, Bool.true_or, ↓reduceIte]
    refine touched_visitNamed policy (Or.inr ⟨_, rfl, sound_openedLedger ..,
      rfl, fun hfresh => ?_⟩) ?_ rfl
    · exact hfresh hcompleted hinvestigation hsubjects hnone
    · rw [map_append, mem_append]
      exact Or.inr mem_cons_self
  · obtain ⟨entry, hentry, rfl⟩ := List.mem_map.mp hfound
    have hany : (state.ledgers.any fun other =>
        other.ledgerId == entry.ledgerId) = true :=
      List.any_eq_true.mpr ⟨entry, hentry, beq_iff_eq.mpr rfl⟩
    rw [linkAndVisit, hsome, hcreated]
    simp only [getD_some, Bool.false_or, hany, Bool.not_true,
      Bool.false_eq_true, ↓reduceIte]
    exact touched_visitNamed policy (Or.inl rfl)
      (List.mem_map.mpr ⟨entry, hentry, rfl⟩) rfl

theorem touched_touchLedger (policy : InvestigationPolicy)
    (state : InvestigationLedgerState) (call : InvestigationCall) :
    Touched state.ledgers call (OpensFreshLedger sha256Hex state call)
      (touchLedger sha256Hex policy state call.operation
        call.progress).1.nextSeq
      (touchLedger sha256Hex policy state call.operation
        call.progress).1.ledgers
      (touchLedger sha256Hex policy state call.operation call.progress).2 := by
  unfold touchLedger
  dsimp only
  split
  · exact .skipped rfl
  · rename_i hactive
    rw [Bool.or_eq_true, not_or, Bool.not_eq_true', Bool.not_eq_true',
      Bool.not_eq_false, Bool.not_eq_false] at hactive
    split
    · exact .skipped rfl
    · rename_i hsubjects
      rw [List.isEmpty_iff] at hsubjects
      exact touched_linkAndVisit sha256Hex policy state call _ hsubjects
        hactive.1 hactive.2

/-! Runs. -/

variable (encodedLen : InvestigationLedgerState → Nat)
  (policy : InvestigationPolicy)

def investigationStep (state : InvestigationLedgerState)
    (call : InvestigationCall) : Option InvestigationLedgerState :=
  some (reduceInvestigation sha256Hex encodedLen policy state call.operation
    call.progress).1

end

/-- What a step owes to the ledgers.  A skipped one leaves them alone; any other
changes the ledger it names and no other, and the retention behind it drops
none under recovery. -/
structure StepLaw (state touched after : InvestigationLedgerState)
    (transition : InvestigationTransition) : Prop where
  distinct : (touched.ledgers.map InvestigationLedgerEntry.ledgerId).Nodup
  skipped : transition.skipped = true → after.ledgers = state.ledgers
  updated : transition.skipped = false →
    ∃ visited ∈ touched.ledgers,
      visited.ledgerId = transition.ledgerId ∧
      visited.lastActivitySeq = after.nextSeq ∧
      ∀ entry, entry.ledgerId ≠ transition.ledgerId →
        (entry ∈ touched.ledgers ↔ entry ∈ state.ledgers)
  kept : after.ledgers.Sublist touched.ledgers
  retained : ∀ entry ∈ touched.ledgers, entry.locked = true →
    entry ∈ after.ledgers

section

variable {sha256Hex : String → String}
  {encodedLen : InvestigationLedgerState → Nat} {policy : InvestigationPolicy}
  {state touched : InvestigationLedgerState} {call : InvestigationCall}

theorem nextSeq_dropLedgers (order : List String) :
    (dropLedgers encodedLen policy order state).nextSeq = state.nextSeq := by
  induction order generalizing state with
  | nil => rfl
  | cons dropId rest ih =>
    rw [dropLedgers]
    split
    · rfl
    · split
      · rfl
      · split
        · exact ih
        · exact ih

theorem nextSeq_boundLedgers :
    (boundLedgers encodedLen policy state).nextSeq = state.nextSeq := by
  rw [boundLedgers]
  split
  · rfl
  · split
    · rfl
    · exact nextSeq_dropLedgers _

/-- The visit keeps the ids distinct and every ledger sound. -/
theorem Touched.inv {ledgers touched : List InvestigationLedgerEntry}
    {fresh : Prop} {seq : Nat} {transition : InvestigationTransition}
    (htouched : Touched ledgers call fresh seq touched transition)
    (hfresh : fresh)
    (hdistinct : (ledgers.map InvestigationLedgerEntry.ledgerId).Nodup)
    (hsound : ∀ entry ∈ ledgers, SoundLedger entry) :
    (touched.map InvestigationLedgerEntry.ledgerId).Nodup ∧
      (∀ entry ∈ touched, SoundLedger entry) ∧
      (transition.skipped = true → touched = ledgers) ∧
      (transition.skipped = false → ∃ visited ∈ touched,
        visited.ledgerId = transition.ledgerId ∧
        visited.lastActivitySeq = seq ∧
        ∀ entry, entry.ledgerId ≠ transition.ledgerId →
          (entry ∈ touched ↔ entry ∈ ledgers)) := by
  cases htouched with
  | skipped hskipped =>
    refine ⟨hdistinct, hsound, fun _ => rfl, fun hnot => ?_⟩
    rw [hskipped] at hnot
    cases hnot
  | @visited _ opened entry visited hopened hentry hid hvisited hskipped =>
    have hopenedDistinct :
        (opened.map InvestigationLedgerEntry.ledgerId).Nodup := by
      rcases hopened with rfl | ⟨new, rfl, -, -, hnew⟩
      · exact hdistinct
      · rw [map_append, map_singleton]
        refine nodup_append.mpr
          ⟨hdistinct, nodup_singleton _, ?_⟩
        intro old hold other hother
        rw [mem_singleton.mp hother]
        rintro rfl
        exact hnew hfresh hold
    have hopenedSound : ∀ entry ∈ opened, SoundLedger entry := by
      rcases hopened with rfl | ⟨new, rfl, hnew, -, -⟩
      · exact hsound
      · intro entry hmem
        rcases mem_append.mp hmem with hold | hlast
        · exact hsound entry hold
        · rw [mem_singleton.mp hlast]
          exact hnew
    have hvisitedId : visited.ledgerId = transition.ledgerId :=
      hvisited.id.trans hid
    refine ⟨?_, ?_, ?_, ?_⟩
    · rw [map_replaceFirst hvisitedId]
      exact hopenedDistinct
    · intro other hmem
      rcases mem_replaceFirst hmem with rfl | hold
      · exact (hopenedSound entry hentry).visited hvisited
      · exact hopenedSound other hold
    · intro hskip
      rw [hskipped] at hskip
      cases hskip
    · intro _
      refine ⟨visited, self_mem_replaceFirst
        (List.mem_map.mpr ⟨entry, hentry, hid⟩), hvisitedId, hvisited.seq, ?_⟩
      intro other hother
      constructor
      · intro hmem
        rcases mem_replaceFirst hmem with rfl | hold
        · exact absurd hvisitedId hother
        · rcases hopened with rfl | ⟨new, rfl, -, hnewId, -⟩
          · exact hold
          · rcases mem_append.mp hold with hprior | hlast
            · exact hprior
            · rw [mem_singleton.mp hlast] at hother
              exact absurd hnewId hother
      · intro hmem
        refine mem_replaceFirst_of_ne ?_ hother
        rcases hopened with rfl | ⟨new, rfl, -, -, -⟩
        · exact hmem
        · exact mem_append_left _ hmem

variable (sha256Hex encodedLen policy) in
theorem LedgerInv.step (hinv : LedgerInv state)
    (hfresh : OpensFreshLedger sha256Hex state call) :
    LedgerInv (reduceInvestigation sha256Hex encodedLen policy state
        call.operation call.progress).1 ∧
      StepLaw state
        (touchLedger sha256Hex policy state call.operation call.progress).1
        (reduceInvestigation sha256Hex encodedLen policy state call.operation
          call.progress).1
        (reduceInvestigation sha256Hex encodedLen policy state call.operation
          call.progress).2 := by
  obtain ⟨hdistinct, hsound, hskip, hvisit⟩ :=
    (touched_touchLedger sha256Hex policy state call).inv hfresh
      hinv.distinct hinv.sound
  rw [reduceInvestigation]
  dsimp only
  split
  · rename_i hskipped
    exact ⟨⟨hdistinct, hsound⟩, hdistinct, hskip, hvisit,
      List.Sublist.refl _, fun _ hmem _ => hmem⟩
  · rename_i hactive
    have hsub : (boundLedgers encodedLen policy (touchLedger sha256Hex policy
          state call.operation call.progress).1).ledgers.Sublist
        (touchLedger sha256Hex policy state call.operation
          call.progress).1.ledgers := boundLedgers_sublist
    refine ⟨⟨(hsub.map _).nodup hdistinct,
      fun entry hmem => hsound entry (hsub.subset hmem)⟩, hdistinct,
      fun hskipped => absurd hskipped hactive, ?_, hsub,
      fun entry hmem hlocked => mem_boundLedgers hdistinct hmem hlocked⟩
    rw [nextSeq_boundLedgers]
    exact hvisit

variable (sha256Hex encodedLen policy) in
/-- In a run in which no operation opens a ledger under the id of another, the
ids are distinct, every ledger is sound, and the next such step keeps its law. -/
theorem ledgers_of_run {calls : List InvestigationCall}
    (hrun : GuardedRun (investigationStep sha256Hex encodedLen policy)
      (OpensFreshLedger sha256Hex) {} calls state) :
    LedgerInv state ∧
      ∀ call, OpensFreshLedger sha256Hex state call →
        StepLaw state
          (touchLedger sha256Hex policy state call.operation call.progress).1
          (reduceInvestigation sha256Hex encodedLen policy state
            call.operation call.progress).1
          (reduceInvestigation sha256Hex encodedLen policy state
            call.operation call.progress).2 := by
  have hinv : LedgerInv state := by
    refine hrun.invariant ⟨nodup_nil, by rintro _ ⟨⟩⟩ ?_
    intro before call after hinv hfresh hstep
    cases hstep
    exact (hinv.step sha256Hex encodedLen policy hfresh).1
  exact ⟨hinv, fun call hfresh =>
    (hinv.step sha256Hex encodedLen policy hfresh).2⟩

end


/-- A search in the workspace for these subjects. -/
def searchFor (subjects : List CanonicalSubject) (descriptor : String) :
    InvestigationCall where
  operation :=
    { sourceIndex := 0
      operation := .query
      channel := .workspace
      subjects
      result := .noResult
      descriptor }

def needleSearch : InvestigationCall :=
  searchFor [⟨.taskLiteral, "NEEDLE"⟩] "Query/Workspace [NEEDLE] rg NEEDLE"

/-- The digests that these runs ask for. -/
def ledgerDigest (text : String) : String :=
  if text = "Locate|0|TaskLiteral:NEEDLE" then
    "sha256:dbe7850832daf4a56c5e2b641cd392bb6e1b2f2bc03e16e81c8d8ffd7c090133"
  else if text = "Locate|0|File:a|File:b" then
    "sha256:c93fb010ce406c7868eaa3d857ae52c52b8d12fa6302551ed8f165f9f59c0914"
  else text

instance (sha256Hex : String → String) (state : InvestigationLedgerState)
    (call : InvestigationCall) :
    Decidable (OpensFreshLedger sha256Hex state call) := by
  unfold OpensFreshLedger
  infer_instance

theorem repeated_search_keeps_one_ledger :
    ∃ state, GuardedRun (investigationStep ledgerDigest (fun _ => 0) {})
        (OpensFreshLedger ledgerDigest) {} [needleSearch] state ∧
      state.ledgers.length = 1 ∧ LedgerInv state ∧
      StepLaw state
        (touchLedger ledgerDigest {} state needleSearch.operation {}).1
        (reduceInvestigation ledgerDigest (fun _ => 0) {} state
          needleSearch.operation {}).1
        (reduceInvestigation ledgerDigest (fun _ => 0) {} state
          needleSearch.operation {}).2 := by
  have hfirst : OpensFreshLedger ledgerDigest {} needleSearch :=
    fun _ _ _ _ => not_mem_nil
  have hrun : GuardedRun (investigationStep ledgerDigest (fun _ => 0) {})
      (OpensFreshLedger ledgerDigest) {} [needleSearch] _ :=
    GuardedRun.cons hfirst rfl GuardedRun.nil
  obtain ⟨hinv, hlaw⟩ := ledgers_of_run ledgerDigest (fun _ => 0) {} hrun
  exact ⟨_, hrun, by decide, hinv,
    hlaw needleSearch (by decide)⟩

/-- One question, whose only subject has a name with a bar in it. -/
def barSearch : InvestigationCall :=
  searchFor [⟨.file, "a|File:b"⟩] "Query/Workspace [a|File:b] rg a"

/-- Another question, about two subjects. -/
def pairSearch : InvestigationCall :=
  searchFor [⟨.file, "a"⟩, ⟨.file, "b"⟩] "Query/Workspace [a,b] rg a"

/-- Neither search is linked to the other, yet both come under one id. -/
theorem two_questions_share_an_id :
    identityText barSearch.identity = identityText pairSearch.identity ∧
    ∃ state, runActions (investigationStep ledgerDigest (fun _ => 1582) {}) {}
        [barSearch, pairSearch] = some state ∧
      ¬ (state.ledgers.map InvestigationLedgerEntry.ledgerId).Nodup := by
  have hids : (runActions
        (investigationStep ledgerDigest (fun _ => 1582) {}) {}
        [barSearch, pairSearch]).map
      (fun state => state.ledgers.map InvestigationLedgerEntry.ledgerId) =
        some ["inv:c93fb010ce406c78", "inv:c93fb010ce406c78"] := by
    decide +kernel
  obtain ⟨state, hstate, hshared⟩ := map_eq_some_iff.mp hids
  refine ⟨by decide +kernel, state, hstate, ?_⟩
  rw [hshared]
  decide

end Vellum.Proxy

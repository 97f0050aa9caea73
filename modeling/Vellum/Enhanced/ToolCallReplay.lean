/-
Runs of the ledger of provider tool calls
(`vellum-enhanced-codex/src/tool_reliability.rs`).  A run executes the call of
an id once, answers its replays as duplicates, and takes one result for it.
-/
import Vellum.Enhanced.ToolCallIdentity

namespace Vellum.Enhanced

open List Option HashMap

inductive LedgerAction where
  | admitCall (request : CallRequest)
  | markResolution (id : String) (resolution : ToolCallResolution)
  | completeOriginal (id : String)
  /-- The ledger is saved, and the saved ledger is read back. -/
  | saveRestore

inductive LedgerAnswer where
  | admitted (outcome : ToolReliabilityOutcome)
  | completed (decision : LateResultDecision)
  | done

/-- What an action answers, and the ledger it leaves. -/
structure LedgerEvent where
  action : LedgerAction
  answer : LedgerAnswer
  ledger : ToolCallLedger

namespace ToolCallLedger

/-- The ledger of a process that starts. -/
def new : ToolCallLedger := {}

def resolutionOf (ledger : ToolCallLedger) (id : String) :
    Option ToolCallResolution :=
  (ledger.handled.get id).map HandledToolCall.resolution

/-- One action; there is no result when a saved ledger is not read back. -/
def apply (crates : LedgerCrates) (ledger : ToolCallLedger) :
    LedgerAction → Option (LedgerAnswer × ToolCallLedger)
  | .admitCall request =>
    let (next, outcome) := ledger.admitCall crates (request.identity crates)
    some (.admitted outcome, next)
  | .markResolution id resolution =>
    some (.done, ledger.markResolution id resolution)
  | .completeOriginal id =>
    let (next, decision) := ledger.completeOriginal id
    some (.completed decision, next)
  | .saveRestore =>
    (fromDurableJson ledger.toDurableJson).map fun restored =>
      (.done, restored)

def run (crates : LedgerCrates) (ledger : ToolCallLedger) :
    List LedgerAction → Option (List LedgerEvent)
  | [] => some []
  | action :: rest => do
      let (answer, next) ← ledger.apply crates action
      let events ← next.run crates rest
      some (⟨action, answer, next⟩ :: events)

end ToolCallLedger

/-- The call of an id was let through. -/
def LedgerEvent.Executes (id : String) (event : LedgerEvent) : Prop :=
  ∃ request outcome, event.action = .admitCall request ∧
    request.providerCallId = id ∧ event.answer = .admitted outcome ∧
    outcome.decision = .execute

/-- A result for an id was taken. -/
def LedgerEvent.Accepts (id : String) (event : LedgerEvent) : Prop :=
  event.action = .completeOriginal id ∧ event.answer = .completed .accept

/-- A call whose id was executed before is a duplicate when it asks for the
same, and a collision otherwise. -/
def Replayed (earlier later : LedgerEvent) : Prop :=
  ∀ request again outcome, earlier.action = .admitCall request →
    earlier.Executes request.providerCallId →
    later.action = .admitCall again →
    again.providerCallId = request.providerCallId →
    later.answer = .admitted outcome →
    (SameCall request again ∧
      outcome.decision = .suppressDuplicate
        (ToolCallLedger.duplicateMessage again.providerCallId)) ∨
    (¬ SameCall request again ∧
      outcome.decision = .failClosed
        (ToolCallLedger.collisionMessage again.providerCallId))

def ToolCallResolution.Ended (resolution : ToolCallResolution) : Prop :=
  resolution = .cancelled ∨ resolution = .failed

/-- A call that ended without success does not become a success. -/
def StaysEnded (earlier later : LedgerEvent) : Prop :=
  ∀ id resolution, earlier.ledger.resolutionOf id = some resolution →
    resolution.Ended → later.ledger.resolutionOf id ≠ some .executed

/-- Each id is executed once, its replays are told apart, and one result is
taken for it. -/
structure AnswersOnce (events : List LedgerEvent) : Prop where
  executedOnce : ∀ id, events.Pairwise fun earlier later =>
    ¬ (earlier.Executes id ∧ later.Executes id)
  replayed : events.Pairwise Replayed
  acceptedOnce : ∀ id, events.Pairwise fun earlier later =>
    ¬ (earlier.Accepts id ∧ later.Accepts id)

/-- What a run of a ledger owes to its calls. -/
structure KeepsCalls (events : List LedgerEvent) : Prop
    extends AnswersOnce events where
  ended : events.Pairwise StaysEnded

/-- An admitted call was marked. -/
def Marked (past : List LedgerAction) (id : String)
    (resolution : ToolCallResolution) : Prop :=
  ∃ before after request, past = before ++ .markResolution id resolution ::
    after ∧ .admitCall request ∈ before ∧ request.providerCallId = id

/-- An admitted call that was marked as cancelled or failed is marked as
executed later. -/
def DoneAfterEnd (actions : List LedgerAction) : Prop :=
  ∃ past rest id resolution, actions = past ++ rest ∧
    Marked past id resolution ∧ resolution.Ended ∧
    .markResolution id .executed ∈ rest

/-- The id an action is about. -/
def LedgerAction.callId : LedgerAction → Option String
  | admitCall request => some request.providerCallId
  | markResolution id _ => some id
  | completeOriginal id => some id
  | saveRestore => none

/-- The comparison of `admitCall`. -/
def SameIdentity (left right : ProviderToolCallIdentity) : Prop :=
  left.toolName = right.toolName ∧ left.toolKind = right.toolKind ∧
    left.namespaceName = right.namespaceName ∧
    left.argumentFingerprint = right.argumentFingerprint

section Step

variable {crates : LedgerCrates} {ledger next : ToolCallLedger}
  {action : LedgerAction} {answer : LedgerAnswer}

theorem apply_saveRestore :
    ledger.apply crates .saveRestore = some (.done, ledger) := by
  rw [ToolCallLedger.apply, ToolCallLedger.from_toDurableJson, map_some]

theorem apply_total (crates : LedgerCrates) (ledger : ToolCallLedger)
    (action : LedgerAction) :
    ∃ answer next, ledger.apply crates action = some (answer, next) := by
  cases action with
  | saveRestore => exact ⟨_, _, apply_saveRestore⟩
  | _ => exact ⟨_, _, rfl⟩

/-- What an action does to the record of one call. -/
inductive Moves (crates : LedgerCrates) (id : String) : LedgerAction →
    LedgerAnswer → Option HandledToolCall → Option HandledToolCall → Prop
  | apart {action : LedgerAction} (hother : action.callId ≠ some id)
      (answer : LedgerAnswer) (found : Option HandledToolCall) :
      Moves crates id action answer found found
  | reserved {request : CallRequest} (hid : request.providerCallId = id)
      (index : UInt64) :
      Moves crates id (.admitCall request) (.admitted ⟨.execute, []⟩) none
        (some ⟨request.identity crates, .inFlight, true, false, false, index⟩)
  | collided {request : CallRequest} (hid : request.providerCallId = id)
      {handled : HandledToolCall}
      (hdiffers : ¬ SameIdentity handled.identity (request.identity crates))
      (events : List EnhancedEvent) :
      Moves crates id (.admitCall request)
        (.admitted ⟨.failClosed (ToolCallLedger.collisionMessage id), events⟩)
        (some handled) (some handled)
  | repeated {request : CallRequest} (hid : request.providerCallId = id)
      {handled : HandledToolCall}
      (hsame : SameIdentity handled.identity (request.identity crates))
      (events : List EnhancedEvent) :
      Moves crates id (.admitCall request)
        (.admitted ⟨.suppressDuplicate (ToolCallLedger.duplicateMessage id),
          events⟩)
        (some handled)
        (some { handled with syntheticDuplicateEmitted := true })
  | unknown (resolution : ToolCallResolution) :
      Moves crates id (.markResolution id resolution) .done none none
  | duplicated (handled : HandledToolCall) :
      Moves crates id (.markResolution id .syntheticDuplicate) .done
        (some handled)
        (some { handled with syntheticDuplicateEmitted := true })
  | marked (handled : HandledToolCall) {resolution : ToolCallResolution}
      (hreal : resolution ≠ .syntheticDuplicate) :
      Moves crates id (.markResolution id resolution) .done (some handled)
        (some { handled with resolution })
  | accepted {handled : HandledToolCall}
      (hpending : handled.originalResultDelivered = false) :
      Moves crates id (.completeOriginal id) (.completed .accept)
        (some handled)
        (some { handled with originalResultDelivered := true })
  | suppressed (found : Option HandledToolCall) :
      Moves crates id (.completeOriginal id) (.completed .suppress) found found

theorem Moves.of_ne {own id : String} (hown : action.callId = some own)
    (hid : own ≠ id) (answer : LedgerAnswer) (found : Option HandledToolCall) :
    Moves crates id action answer found found := by
  refine Moves.apart (fun hsome => hid ?_) answer found
  exact some.inj (hown.symm.trans hsome)

theorem CallRequest.identity_id (crates : LedgerCrates) (request : CallRequest) :
    (request.identity crates).providerCallId = request.providerCallId := by
  rw [identity]
  split <;> rfl

theorem moves_admit (request : CallRequest) (id : String) :
    Moves crates id (.admitCall request)
      (.admitted (ledger.admitCall crates (request.identity crates)).2)
      (ledger.handled.get id)
      ((ledger.admitCall crates (request.identity crates)).1.handled.get id) := by
  have hrequest := request.identity_id crates
  rw [ToolCallLedger.admitCall]
  split
  · rename_i existing hfound
    split
    · rename_i hdiffers
      by_cases hid : request.providerCallId = id
      · rw [hrequest, hid] at hfound
        rw [hrequest, hid, hfound]
        refine Moves.collided hid ?_ _
        rintro ⟨hname, hkind, hspace, hprint⟩
        simp [hname, hkind, hspace, hprint] at hdiffers
      · exact Moves.of_ne rfl hid _ _
    · rename_i hsame
      simp only [not_or, not_not] at hsame
      by_cases hid : request.providerCallId = id
      · rw [hrequest, hid] at hfound
        rw [hrequest, hid, hfound]
        simp only [get_insert_self]
        exact Moves.repeated hid hsame _
      · simp only [hrequest, get_insert, if_neg (Ne.symm hid)]
        exact Moves.of_ne rfl hid _ _
  · rename_i hfound
    by_cases hid : request.providerCallId = id
    · rw [hrequest, hid] at hfound
      simp only [hrequest, hid, hfound, get_insert_self]
      exact Moves.reserved hid _
    · simp only [hrequest, get_insert, if_neg (Ne.symm hid)]
      exact Moves.of_ne rfl hid _ _

theorem moves_markResolution (marked : String)
    (resolution : ToolCallResolution) (id : String) :
    Moves crates id (.markResolution marked resolution) .done
      (ledger.handled.get id)
      ((ledger.markResolution marked resolution).handled.get id) := by
  by_cases hid : marked = id
  · rw [hid, ToolCallLedger.markResolution]
    split
    · rename_i existing hfound
      rw [hfound]
      simp only [get_insert_self]
      split
      · rename_i hduplicate
        rw [hduplicate]
        exact Moves.duplicated existing
      · rename_i hreal
        exact Moves.marked existing hreal
    · rename_i hfound
      rw [hfound]
      exact Moves.unknown resolution
  · have hsame : (ledger.markResolution marked resolution).handled.get id =
        ledger.handled.get id := by
      rw [ToolCallLedger.markResolution]
      split
      · simp only [get_insert, if_neg (Ne.symm hid)]
      · rfl
    rw [hsame]
    exact Moves.of_ne rfl hid _ _

theorem moves_completeOriginal (completed id : String) :
    Moves crates id (.completeOriginal completed)
      (.completed (ledger.completeOriginal completed).2)
      (ledger.handled.get id)
      ((ledger.completeOriginal completed).1.handled.get id) := by
  by_cases hid : completed = id
  · rw [hid, ToolCallLedger.completeOriginal]
    split
    · rename_i handled hfound
      split
      · rename_i hopen
        rw [Bool.and_eq_true, Bool.not_eq_true'] at hopen
        rw [hfound]
        simp only [get_insert_self]
        exact Moves.accepted hopen.2
      · exact Moves.suppressed _
    · exact Moves.suppressed _
  · have hsame : (ledger.completeOriginal completed).1.handled.get id =
        ledger.handled.get id := by
      rw [ToolCallLedger.completeOriginal]
      split
      · split
        · simp only [get_insert, if_neg (Ne.symm hid)]
        · rfl
      · rfl
    rw [hsame]
    exact Moves.of_ne rfl hid _ _

theorem moves_of_apply (happly : ledger.apply crates action = some (answer, next))
    (id : String) :
    Moves crates id action answer (ledger.handled.get id)
      (next.handled.get id) := by
  cases action with
  | admitCall request =>
    cases happly
    exact moves_admit request id
  | markResolution marked resolution =>
    cases happly
    exact moves_markResolution marked resolution id
  | completeOriginal completed =>
    cases happly
    exact moves_completeOriginal completed id
  | saveRestore =>
    rw [apply_saveRestore] at happly
    cases happly
    refine Moves.apart ?_ _ _
    rintro ⟨⟩

section Record

variable {id : String} {found found' : Option HandledToolCall}
  (hmoves : Moves crates id action answer found found')
include hmoves

variable {request : CallRequest} {handled : HandledToolCall}

/-- A record stays, with the identity it was reserved under. -/
theorem Moves.keeps (hfound : found = some handled) :
    ∃ kept, found' = some kept ∧ kept.identity = handled.identity ∧
      (handled.originalResultDelivered = true →
        kept.originalResultDelivered = true) := by
  cases hmoves with
  | apart => exact ⟨handled, hfound, rfl, fun hdelivered => hdelivered⟩
  | reserved => cases hfound
  | collided => exact ⟨handled, hfound, rfl, fun hdelivered => hdelivered⟩
  | unknown => cases hfound
  | suppressed => exact ⟨handled, hfound, rfl, fun hdelivered => hdelivered⟩
  | accepted hpending =>
    cases hfound
    exact ⟨_, rfl, rfl, fun _ => rfl⟩
  | _ =>
    cases hfound
    exact ⟨_, rfl, rfl, fun hdelivered => hdelivered⟩

theorem Moves.execute {outcome : ToolReliabilityOutcome}
    (haction : action = .admitCall request) (hid : request.providerCallId = id)
    (hanswer : answer = .admitted outcome)
    (hexecute : outcome.decision = .execute) :
    found = none ∧ ∃ handled, found' = some handled ∧
      handled.identity = request.identity crates := by
  cases hmoves with
  | apart hother =>
    rw [haction] at hother
    exact absurd (congrArg some hid) hother
  | reserved =>
    cases haction
    exact ⟨rfl, _, rfl, rfl⟩
  | collided =>
    cases hanswer
    cases hexecute
  | repeated =>
    cases hanswer
    cases hexecute
  | _ => cases haction

theorem Moves.again {outcome : ToolReliabilityOutcome}
    (haction : action = .admitCall request) (hid : request.providerCallId = id)
    (hanswer : answer = .admitted outcome) (hfound : found = some handled) :
    (SameIdentity handled.identity (request.identity crates) ∧
      outcome.decision =
        .suppressDuplicate (ToolCallLedger.duplicateMessage id)) ∨
    (¬ SameIdentity handled.identity (request.identity crates) ∧
      outcome.decision = .failClosed (ToolCallLedger.collisionMessage id)) := by
  cases hmoves with
  | apart hother =>
    rw [haction] at hother
    exact absurd (congrArg some hid) hother
  | reserved => cases hfound
  | collided _ hdiffers =>
    cases haction
    cases hanswer
    cases hfound
    exact Or.inr ⟨hdiffers, rfl⟩
  | repeated _ hsame =>
    cases haction
    cases hanswer
    cases hfound
    exact Or.inl ⟨hsame, rfl⟩
  | _ => cases haction

theorem Moves.accept (haction : action = .completeOriginal id)
    (hanswer : answer = .completed .accept) :
    (∃ handled, found = some handled ∧
      handled.originalResultDelivered = false) ∧
    ∃ handled, found' = some handled ∧
      handled.originalResultDelivered = true := by
  cases hmoves with
  | apart hother =>
    rw [haction] at hother
    exact absurd rfl hother
  | accepted hpending => exact ⟨⟨_, rfl, hpending⟩, _, rfl, rfl⟩
  | suppressed => cases hanswer
  | _ => cases haction

theorem Moves.resolution (hfound : found' = some handled) :
    handled.resolution = .inFlight ∨
    (∃ before, found = some before ∧
      before.resolution = handled.resolution) ∨
    action = .markResolution id handled.resolution ∧ found ≠ none := by
  cases hmoves with
  | apart => exact Or.inr (Or.inl ⟨handled, hfound, rfl⟩)
  | reserved =>
    cases hfound
    exact Or.inl rfl
  | collided => exact Or.inr (Or.inl ⟨handled, hfound, rfl⟩)
  | repeated =>
    cases hfound
    exact Or.inr (Or.inl ⟨_, rfl, rfl⟩)
  | unknown => cases hfound
  | duplicated before =>
    cases hfound
    exact Or.inr (Or.inl ⟨_, rfl, rfl⟩)
  | marked before hreal =>
    cases hfound
    exact Or.inr (Or.inr ⟨rfl, by rintro ⟨⟩⟩)
  | accepted =>
    cases hfound
    exact Or.inr (Or.inl ⟨_, rfl, rfl⟩)
  | suppressed => exact Or.inr (Or.inl ⟨handled, hfound, rfl⟩)

theorem Moves.marks {resolution : ToolCallResolution}
    (haction : action = .markResolution id resolution)
    (hreal : resolution ≠ .syntheticDuplicate) (hfound : found = some handled) :
    found' = some { handled with resolution } := by
  cases hmoves with
  | apart hother =>
    rw [haction] at hother
    exact absurd rfl hother
  | unknown => cases hfound
  | duplicated =>
    cases haction
    exact absurd rfl hreal
  | marked =>
    cases haction
    cases hfound
    rfl
  | _ => cases haction

theorem Moves.admits (haction : action = .admitCall request)
    (hid : request.providerCallId = id) : found' ≠ none := by
  cases hmoves with
  | apart hother =>
    rw [haction] at hother
    exact absurd (congrArg some hid) hother
  | reserved => rintro ⟨⟩
  | collided => rintro ⟨⟩
  | repeated => rintro ⟨⟩
  | _ => cases haction

/-- Only an admitted id has a record. -/
theorem Moves.fresh (hfound : found = none) (hafter : found' = some handled) :
    ∃ request, action = .admitCall request ∧ request.providerCallId = id := by
  cases hmoves with
  | reserved hid => exact ⟨_, rfl, hid⟩
  | apart =>
    rw [hfound] at hafter
    cases hafter
  | suppressed =>
    rw [hfound] at hafter
    cases hafter
  | unknown => cases hafter
  | _ => cases hfound

end Record

end Step

section Run

variable {crates : LedgerCrates} {ledger : ToolCallLedger}
  {actions : List LedgerAction} {events : List LedgerEvent} {id : String}

variable {past : List LedgerAction} {action : LedgerAction}
  {rest : List LedgerAction} {answer : LedgerAnswer}
  {resolution : ToolCallResolution} {next : ToolCallLedger}

theorem run_cons (hrun : ledger.run crates (action :: rest) = some events) :
    ∃ answer next later, ledger.apply crates action = some (answer, next) ∧
      next.run crates rest = some later ∧
      events = ⟨action, answer, next⟩ :: later := by
  obtain ⟨answer, next, happly⟩ := apply_total crates ledger action
  rw [ToolCallLedger.run, happly] at hrun
  change ((next.run crates rest).bind _) = some events at hrun
  obtain ⟨later, hlater, hevents⟩ := bind_eq_some_iff.mp hrun
  exact ⟨answer, next, later, happly, hlater, (some.inj hevents).symm⟩

/-- A saved ledger is always read back, so every run goes through. -/
theorem run_total (crates : LedgerCrates) (ledger : ToolCallLedger)
    (actions : List LedgerAction) :
    ∃ events, ledger.run crates actions = some events := by
  induction actions generalizing ledger with
  | nil => exact ⟨[], rfl⟩
  | cons action rest ih =>
    obtain ⟨answer, next, happly⟩ := apply_total crates ledger action
    obtain ⟨later, hlater⟩ := ih next
    refine ⟨⟨action, answer, next⟩ :: later, ?_⟩
    rw [ToolCallLedger.run, happly]
    change ((next.run crates rest).bind _) = _
    exact bind_eq_some_iff.mpr ⟨later, hlater, rfl⟩

/-- What each action keeps of the ledger and says of its event holds along a
run. -/
theorem run_forall {P : ToolCallLedger → Prop} {Q : LedgerEvent → Prop}
    (hstep : ∀ (ledger : ToolCallLedger) action answer next,
      action ∈ actions → P ledger →
      ledger.apply crates action = some (answer, next) →
      P next ∧ Q ⟨action, answer, next⟩)
    (hledger : P ledger) (hrun : ledger.run crates actions = some events) :
    ∀ event ∈ events, Q event := by
  induction actions generalizing ledger events with
  | nil =>
    cases hrun
    rintro _ ⟨⟩
  | cons action rest ih =>
    obtain ⟨answer, next, later, happly, hlater, rfl⟩ := run_cons hrun
    obtain ⟨hnext, hevent⟩ :=
      hstep ledger action answer next mem_cons_self hledger happly
    refine forall_mem_cons.mpr ⟨hevent, ih ?_ hnext hlater⟩
    exact fun ledger action answer next hmem =>
      hstep ledger action answer next (mem_cons_of_mem _ hmem)

/-- A relation of each event to all later ones. -/
theorem run_pairwise {R : LedgerEvent → LedgerEvent → Prop}
    (hstep : ∀ (ledger : ToolCallLedger) action answer next rest later,
      action ∈ actions →
      rest ⊆ actions → ledger.apply crates action = some (answer, next) →
      next.run crates rest = some later →
      ∀ event ∈ later, R ⟨action, answer, next⟩ event)
    (hrun : ledger.run crates actions = some events) : events.Pairwise R := by
  induction actions generalizing ledger events with
  | nil =>
    cases hrun
    exact List.Pairwise.nil
  | cons action rest ih =>
    obtain ⟨answer, next, later, happly, hlater, rfl⟩ := run_cons hrun
    refine pairwise_cons.mpr ⟨?_, ih ?_ hlater⟩
    · exact hstep ledger action answer next rest later mem_cons_self
        (subset_cons_self action rest) happly hlater
    · exact fun ledger next answer after tail events hmem hsub =>
        hstep ledger next answer after tail events
          (mem_cons_of_mem _ hmem)
          (List.Subset.trans hsub (subset_cons_self action rest))

theorem run_executedOnce (hrun : ledger.run crates actions = some events)
    (id : String) : events.Pairwise fun earlier later =>
      ¬ (earlier.Executes id ∧ later.Executes id) := by
  refine run_pairwise ?_ hrun
  intro ledger action answer next rest later _ _ happly hlater event hevent
  rintro ⟨⟨request, outcome, haction, hid, hanswer, hexecute⟩, hagain⟩
  obtain ⟨_, handled, hhandled, _⟩ :=
    (moves_of_apply happly id).execute haction hid hanswer hexecute
  have hnever := run_forall (P := fun ledger => ledger.handled.get id ≠ none)
    (Q := fun event => ¬ event.Executes id) ?_ ?_ hlater event hevent
  · exact hnever hagain
  · intro ledger action answer next _ hfound happly
    have hmoves := moves_of_apply happly id
    obtain ⟨found, hfound⟩ := ne_none_iff_exists'.mp hfound
    obtain ⟨kept, hkept, _⟩ := hmoves.keeps hfound
    refine ⟨by rw [hkept]; rintro ⟨⟩, ?_⟩
    rintro ⟨request, outcome, haction, hid, hanswer, hexecute⟩
    have hnone := (hmoves.execute haction hid hanswer hexecute).1
    rw [hfound] at hnone
    cases hnone
  · rw [hhandled]
    rintro ⟨⟩

theorem run_acceptedOnce (hrun : ledger.run crates actions = some events)
    (id : String) : events.Pairwise fun earlier later =>
      ¬ (earlier.Accepts id ∧ later.Accepts id) := by
  refine run_pairwise ?_ hrun
  intro ledger action answer next rest later _ _ happly hlater event hevent
  rintro ⟨⟨haction, hanswer⟩, hagain⟩
  obtain ⟨_, delivered⟩ := (moves_of_apply happly id).accept haction hanswer
  have hnever := run_forall
    (P := fun ledger => ∃ handled, ledger.handled.get id = some handled ∧
      handled.originalResultDelivered = true)
    (Q := fun event => ¬ event.Accepts id) ?_ delivered hlater event hevent
  · exact hnever hagain
  · rintro ledger action answer next _ ⟨found, hfound, hdelivered⟩ happly
    have hmoves := moves_of_apply happly id
    obtain ⟨kept, hkept, _, hstays⟩ := hmoves.keeps hfound
    refine ⟨⟨kept, hkept, hstays hdelivered⟩, ?_⟩
    rintro ⟨haction, hanswer⟩
    obtain ⟨⟨pending, hpending, hopen⟩, _⟩ := hmoves.accept haction hanswer
    rw [hfound] at hpending
    cases hpending
    rw [hdelivered] at hopen
    cases hopen

theorem run_replayed (hsha : Function.Injective crates.sha256)
    (hdistinct : ∀ request, .admitCall request ∈ actions → request.Distinct)
    (hrun : ledger.run crates actions = some events) :
    events.Pairwise Replayed := by
  refine run_pairwise ?_ hrun
  intro ledger action answer next rest later hmem hsub happly hlater event
    hevent request again outcome haction hexecutes hagain hid hanswer
  obtain ⟨_, first, haction', _, hfirst, hexecute⟩ := hexecutes
  obtain ⟨_, reserved⟩ := (moves_of_apply happly request.providerCallId).execute
    haction rfl hfirst hexecute
  have hrest := run_forall
    (P := fun ledger => ∃ handled,
      ledger.handled.get request.providerCallId = some handled ∧
        handled.identity = request.identity crates)
    (Q := fun event => event.action ∈ rest ∧ ∀ again outcome,
      event.action = .admitCall again →
      again.providerCallId = request.providerCallId →
      event.answer = .admitted outcome →
      (SameIdentity (request.identity crates) (again.identity crates) ∧
        outcome.decision = .suppressDuplicate
          (ToolCallLedger.duplicateMessage request.providerCallId)) ∨
      (¬ SameIdentity (request.identity crates) (again.identity crates) ∧
        outcome.decision = .failClosed
          (ToolCallLedger.collisionMessage request.providerCallId)))
    ?_ reserved hlater event hevent
  · obtain ⟨hin, hdecides⟩ := hrest
    have hsame := sameCall_iff hsha
      (hdistinct request (haction ▸ hmem))
      (hdistinct again (hsub (hagain ▸ hin)))
    have hdecision := hdecides again outcome hagain hid hanswer
    rw [hid, hsame]
    exact hdecision
  · rintro ledger action answer next hmem ⟨found, hfound, hidentity⟩ happly
    have hmoves := moves_of_apply happly request.providerCallId
    obtain ⟨kept, hkept, hkeptIdentity, _⟩ := hmoves.keeps hfound
    refine ⟨⟨kept, hkept, hkeptIdentity.trans hidentity⟩, hmem, ?_⟩
    intro again outcome hagain hid hanswer
    have hdecision := hmoves.again hagain hid hanswer hfound
    rw [hidentity] at hdecision
    exact hdecision

theorem Marked.append (hmarked : Marked past id resolution)
    (rest : List LedgerAction) : Marked (past ++ rest) id resolution := by
  obtain ⟨before, after, request, rfl, hmem, hid⟩ := hmarked
  exact ⟨before, after ++ rest, request, by simp, hmem, hid⟩

/-- What the actions so far say of the records of a ledger. -/
def Explained (past : List LedgerAction) (ledger : ToolCallLedger) : Prop :=
  ∀ id handled, ledger.handled.get id = some handled →
    (∃ request, .admitCall request ∈ past ∧ request.providerCallId = id) ∧
    (handled.resolution = .inFlight ∨ Marked past id handled.resolution)

theorem Explained.apply (hpast : Explained past ledger)
    (happly : ledger.apply crates action = some (answer, next)) :
    Explained (past ++ [action]) next := by
  intro id handled hhandled
  have hmoves := moves_of_apply happly id
  have hadmitted : ∃ request, LedgerAction.admitCall request ∈ past ++ [action] ∧
      request.providerCallId = id := by
    cases hfound : ledger.handled.get id with
    | none =>
      obtain ⟨request, rfl, hid⟩ := hmoves.fresh hfound hhandled
      exact ⟨request, by simp, hid⟩
    | some found =>
      obtain ⟨⟨request, hmem, hid⟩, _⟩ := hpast id found hfound
      exact ⟨request, mem_append_left _ hmem, hid⟩
  refine ⟨hadmitted, ?_⟩
  rcases hmoves.resolution hhandled with
    hflight | ⟨before, hbefore, hsame⟩ | ⟨rfl, hfound⟩
  · exact Or.inl hflight
  · rw [← hsame]
    exact (hpast id before hbefore).2.imp_right fun hmarked =>
      hmarked.append [action]
  · obtain ⟨found, hfound⟩ := ne_none_iff_exists'.mp hfound
    obtain ⟨⟨request, hmem, hid⟩, _⟩ := hpast id found hfound
    exact Or.inr ⟨past, [], request, rfl, hmem, hid⟩

theorem run_not_executed (hmark : .markResolution id .executed ∉ actions)
    (hledger : ledger.resolutionOf id ≠ some .executed)
    (hrun : ledger.run crates actions = some events) :
    ∀ event ∈ events, event.ledger.resolutionOf id ≠ some .executed := by
  refine run_forall
    (P := fun ledger => ledger.resolutionOf id ≠ some .executed)
    ?_ hledger hrun
  intro ledger action answer next hmem hbefore happly
  have hnext : next.resolutionOf id ≠ some .executed := by
    intro hexecuted
    obtain ⟨handled, hhandled, hdone⟩ := map_eq_some_iff.mp hexecuted
    rcases (moves_of_apply happly id).resolution hhandled with
      hflight | ⟨before, hfound, hsame⟩ | ⟨rfl, _⟩
    · rw [hdone] at hflight
      cases hflight
    · apply hbefore
      rw [ToolCallLedger.resolutionOf, hfound, map_some, hsame, hdone]
    · rw [hdone] at hmem
      exact hmark hmem
  exact ⟨hnext, hnext⟩

theorem run_ended (hpast : Explained past ledger)
    (hrun : ledger.run crates actions = some events)
    (hnever : ¬ DoneAfterEnd (past ++ actions)) :
    events.Pairwise StaysEnded := by
  induction actions generalizing past ledger events with
  | nil =>
    cases hrun
    exact List.Pairwise.nil
  | cons action rest ih =>
    obtain ⟨answer, next, later, happly, hlater, rfl⟩ := run_cons hrun
    have hexplained := hpast.apply happly
    have hsplit : past ++ action :: rest = past ++ [action] ++ rest := by simp
    rw [hsplit] at hnever
    refine pairwise_cons.mpr ⟨?_, ih hexplained hlater hnever⟩
    intro event hevent id resolution hresolution hended
    obtain ⟨handled, hhandled, rfl⟩ := map_eq_some_iff.mp hresolution
    have hmarked : Marked (past ++ [action]) id handled.resolution := by
      rcases (hexplained id handled hhandled).2 with hflight | hmarked
      · rw [hflight] at hended
        rcases hended with hended | hended <;> cases hended
      · exact hmarked
    refine run_not_executed ?_ ?_ hlater event hevent
    · intro hmem
      exact hnever ⟨_, rest, id, handled.resolution, rfl, hmarked, hended, hmem⟩
    · intro hexecuted
      rw [show next.resolutionOf id = _ from hresolution] at hexecuted
      cases some.inj hexecuted ▸ hended with
      | inl hended => cases hended
      | inr hended => cases hended

theorem apply_keeps (hknown : ledger.handled.get id ≠ none)
    (happly : ledger.apply crates action = some (answer, next)) :
    next.handled.get id ≠ none := by
  obtain ⟨found, hfound⟩ := ne_none_iff_exists'.mp hknown
  obtain ⟨kept, hkept, _⟩ := (moves_of_apply happly id).keeps hfound
  rw [hkept]
  rintro ⟨⟩

theorem apply_marks (hknown : ledger.handled.get id ≠ none)
    (hreal : resolution ≠ .syntheticDuplicate)
    (happly : ledger.apply crates (.markResolution id resolution) =
      some (answer, next)) : next.resolutionOf id = some resolution := by
  obtain ⟨found, hfound⟩ := ne_none_iff_exists'.mp hknown
  rw [ToolCallLedger.resolutionOf,
    (moves_of_apply happly id).marks rfl hreal hfound]
  rfl

theorem run_marks_executed (hknown : ledger.handled.get id ≠ none)
    (hmem : .markResolution id .executed ∈ actions)
    (hrun : ledger.run crates actions = some events) :
    ∃ event ∈ events, event.ledger.resolutionOf id = some .executed := by
  induction actions generalizing ledger events with
  | nil => cases hmem
  | cons action rest ih =>
    obtain ⟨answer, next, later, happly, hlater, rfl⟩ := run_cons hrun
    rcases mem_cons.mp hmem with rfl | hrest
    · exact ⟨_, mem_cons_self, apply_marks hknown (by rintro ⟨⟩) happly⟩
    · obtain ⟨event, hevent, hexecuted⟩ :=
        ih (apply_keeps hknown happly) hrest hlater
      exact ⟨event, mem_cons_of_mem _ hevent, hexecuted⟩

/-- A known call that is marked as ended and then as executed. -/
theorem run_revives {middle : List LedgerAction} (hended : resolution.Ended)
    (hmem : .markResolution id .executed ∈ rest)
    (hknown : ledger.handled.get id ≠ none)
    (hrun : ledger.run crates
      (middle ++ .markResolution id resolution :: rest) = some events) :
    ¬ events.Pairwise StaysEnded := by
  intro hpairs
  induction middle generalizing ledger events with
  | nil =>
    obtain ⟨answer, next, later, happly, hlater, rfl⟩ := run_cons hrun
    have hreal : resolution ≠ .syntheticDuplicate := by
      rcases hended with rfl | rfl <;> rintro ⟨⟩
    obtain ⟨event, hevent, hexecuted⟩ :=
      run_marks_executed (apply_keeps hknown happly) hmem hlater
    exact (pairwise_cons.mp hpairs).1 event hevent id resolution
      (apply_marks hknown hreal happly) hended hexecuted
  | cons action middle ih =>
    obtain ⟨answer, next, later, happly, hlater, rfl⟩ := run_cons hrun
    exact ih (apply_keeps hknown happly) hlater
      (pairwise_cons.mp hpairs).2

theorem run_doneAfterEnd {before : List LedgerAction} {request : CallRequest}
    {middle : List LedgerAction} (hrequested : .admitCall request ∈ before)
    (hid : request.providerCallId = id) (hended : resolution.Ended)
    (hmem : .markResolution id .executed ∈ rest)
    (hrun : ledger.run crates
      (before ++ middle ++ .markResolution id resolution :: rest) =
        some events) : ¬ events.Pairwise StaysEnded := by
  intro hpairs
  induction before generalizing ledger events with
  | nil => cases hrequested
  | cons action before ih =>
    obtain ⟨answer, next, later, happly, hlater, rfl⟩ := run_cons hrun
    have htail := (pairwise_cons.mp hpairs).2
    rcases mem_cons.mp hrequested with rfl | hbefore
    · have hknown := (moves_of_apply happly id).admits rfl hid
      exact run_revives hended hmem hknown hlater htail
    · exact ih hbefore hlater htail

/-- Every run of a new ledger goes through, executes each id once, tells its
replays from collisions and takes one result; and a call that ended without
success stays so exactly when no admitted call is marked as executed after it
was marked as cancelled or failed. -/
theorem run_keeps_calls_iff (crates : LedgerCrates)
    (hsha : Function.Injective crates.sha256) (actions : List LedgerAction)
    (hdistinct : ∀ request, .admitCall request ∈ actions → request.Distinct) :
    ∃ events, ToolCallLedger.new.run crates actions = some events ∧
      AnswersOnce events ∧ (KeepsCalls events ↔ ¬ DoneAfterEnd actions) := by
  obtain ⟨events, hrun⟩ :=
    run_total crates ToolCallLedger.new actions
  have hanswers : AnswersOnce events :=
    { executedOnce := run_executedOnce hrun
      replayed := run_replayed hsha hdistinct hrun
      acceptedOnce := run_acceptedOnce hrun }
  refine ⟨events, hrun, hanswers, ?_, ?_⟩
  · rintro hkeeps ⟨past, rest, id, resolution, rfl, hmarked, hended, hmem⟩
    obtain ⟨before, after, request, rfl, hrequested, hid⟩ := hmarked
    have hsplit : before ++ .markResolution id resolution :: after ++ rest =
        before ++ [] ++ .markResolution id resolution :: (after ++ rest) := by
      simp
    rw [hsplit] at hrun
    exact run_doneAfterEnd hrequested hid hended (mem_append_right _ hmem)
      hrun hkeeps.ended
  · intro hnever
    have hnew : Explained [] ToolCallLedger.new := by rintro _ _ ⟨⟩
    exact { hanswers with ended := run_ended hnew hrun hnever }

end Run

/-- Digests of the texts of one call; any other text is told apart by its
length. -/
def sampleSha256 (text : String) : List UInt8 :=
  if text = "shell\x00\x7b\"n\":1,\"path\":\"a.rs\"\x7d" then
    [221, 92, 28, 176, 217, 62, 174, 31, 84, 39, 231, 140, 226, 119, 14, 147,
      100, 138, 184, 69, 36, 125, 30, 165, 157, 170, 168, 9, 206, 92, 242, 95]
  else if text = "call-1" then
    [93, 121, 99, 196, 244, 113, 225, 66, 245, 167, 34, 20, 169, 102, 111, 177,
      100, 113, 143, 155, 161, 6, 106, 120, 98, 172, 28, 80, 65, 136, 121, 64]
  else List.replicate 33 0 ++ text.toByteArray.data.toList

theorem sampleSha256_injective : Function.Injective sampleSha256 := by
  have hlong : ∀ (bytes : List UInt8) (text : String), bytes.length = 32 →
      bytes ≠ List.replicate 33 0 ++ text.toByteArray.data.toList := by
    intro bytes text hlength heq
    rw [heq, length_append, length_replicate] at hlength
    omega
  intro left right heq
  have hcases : ∀ text : String,
      text = "shell\x00\x7b\"n\":1,\"path\":\"a.rs\"\x7d" ∨
      text = "call-1" ∨
      sampleSha256 text =
        List.replicate 33 0 ++ text.toByteArray.data.toList := by
    intro text
    rw [sampleSha256]
    split
    · exact Or.inl ‹_›
    · split
      · exact Or.inr (Or.inl ‹_›)
      · exact Or.inr (Or.inr rfl)
  rcases hcases left with rfl | rfl | hleft <;>
    rcases hcases right with rfl | rfl | hright
  · rfl
  · exact absurd heq (by decide)
  · exact absurd (heq.trans hright) (hlong _ right (by decide))
  · exact absurd heq (by decide)
  · rfl
  · exact absurd (heq.trans hright) (hlong _ right (by decide))
  · exact absurd (heq.symm.trans hleft) (hlong _ left (by decide))
  · exact absurd (heq.symm.trans hleft) (hlong _ left (by decide))
  · rw [hleft, hright] at heq
    exact String.toByteArray_inj.mp
      (ByteArray.ext (Array.toList_inj.mp (append_cancel_left heq)))

/-- Doubles by their bits, for runs without doubles. -/
def sampleFloats : JsonText.FloatText := .ofBits

def sampleLedgerCrates : LedgerCrates where
  sha256 := sampleSha256
  floats := sampleFloats

def sampleRequest : CallRequest where
  providerCallId := "call-1"
  toolName := "shell"
  input := .json (.obj [("path", .str "a.rs"), ("n", .num (.int 1))])

/-- The same call with its names in another order. -/
def sampleReplay : CallRequest :=
  { sampleRequest with
    input := .json (.obj [("n", .num (.int 1)), ("path", .str "a.rs")]) }

/-- A call that is executed, saved, replayed and answered. -/
theorem run_keeps_calls_replay : ∃ events,
    ToolCallLedger.new.run sampleLedgerCrates
      [.admitCall sampleRequest, .saveRestore, .admitCall sampleReplay,
        .completeOriginal "call-1", .markResolution "call-1" .executed] =
      some events ∧ KeepsCalls events := by
  have hdistinct : ∀ request, .admitCall request ∈
      [LedgerAction.admitCall sampleRequest, .saveRestore, .admitCall sampleReplay,
        .completeOriginal "call-1", .markResolution "call-1" .executed] →
      request.Distinct := by
    intro request hmem arguments hinput
    simp at hmem
    rcases hmem with rfl | rfl <;> cases hinput <;> decide
  obtain ⟨events, hrun, _, hkeeps⟩ :=
    run_keeps_calls_iff sampleLedgerCrates sampleSha256_injective _ hdistinct
  refine ⟨events, hrun, hkeeps.mpr ?_⟩
  rintro ⟨past, rest, id, resolution, hsplit, hmarked, hended, _⟩
  obtain ⟨before, after, _, rfl, _, _⟩ := hmarked
  have hmem : LedgerAction.markResolution id resolution ∈
      [LedgerAction.admitCall sampleRequest, .saveRestore, .admitCall sampleReplay,
        .completeOriginal "call-1", .markResolution "call-1" .executed] := by
    rw [hsplit]
    simp
  simp at hmem
  rcases hended with hended | hended <;> rw [hended] at hmem <;>
    exact absurd hmem.2 (by rintro ⟨⟩)

/-- A cancelled call is turned into an executed one. -/
theorem cancelled_call_becomes_executed :
    ¬ ∀ (crates : LedgerCrates), Function.Injective crates.sha256 →
      ∀ actions : List LedgerAction,
        (∀ request, .admitCall request ∈ actions → request.Distinct) →
        ∃ events, ToolCallLedger.new.run crates actions = some events ∧
          KeepsCalls events := by
  intro hall
  have hdistinct : ∀ request, .admitCall request ∈
      [LedgerAction.admitCall sampleRequest, .markResolution "call-1" .cancelled,
        .markResolution "call-1" .executed] → request.Distinct := by
    intro request hmem arguments hinput
    simp at hmem
    subst hmem
    cases hinput
    decide
  obtain ⟨events, hrun, hkeeps⟩ :=
    hall sampleLedgerCrates sampleSha256_injective _ hdistinct
  have hrevived : ¬ events.Pairwise StaysEnded :=
    @run_doneAfterEnd _ _ _ _ _ _ [.admitCall sampleRequest] _ [] mem_cons_self
      rfl (Or.inl rfl) mem_cons_self hrun
  exact hrevived hkeeps.ended

end Vellum.Enhanced

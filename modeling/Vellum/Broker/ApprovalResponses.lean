/-
Answering approvals.  `respond_approval` reads the row, sends the response and
writes the decision in three separate steps, on whichever actor the command
reached, while registrations, presentations and orphanings go on around it.
The state of the row is never looked at, so one response for each request and
the finality of a decision hold exactly on the schedules in which every send
finds the row open.
-/
import Vellum.Library.StepRun
import Vellum.Broker.ApprovalRegistry
import Vellum.Broker.CommandRouter

namespace Vellum.Broker

open List Option KeyedTable ApprovalRegistry

/-- `json!({"decision": decision})`. -/
def approvalResponse (decision : ApprovalDecision) : Json :=
  .obj [("decision", decision.toJson)]

/-- The checks of `respond_approval` before it sends.  Only the epoch of the
stored approval is compared. -/
def loadApproval (lookup : Except StoreError (Option StoredApproval))
    (epoch : Nat) (idempotencyKey : String) :
    Except ThreadCommandResult StoredApproval :=
  match lookup with
  | .error error =>
    .error (failed idempotencyKey (.new .internalError error.text true))
  | .ok none =>
    .error (failed idempotencyKey
      (.new .approvalOrphaned "approval token not found" false))
  | .ok (some stored) =>
    if stored.upstreamEpoch ≠ epoch then
      .error (failed idempotencyKey (.new .staleUpstreamEpoch
        "approval belongs to a previous upstream epoch" false))
    else .ok stored

/-- What `respond_approval` answers once the decision is sent and written. -/
def approvalAnswered (idempotencyKey token : String) : ThreadCommandResult :=
  completed idempotencyKey (.obj [("approvalToken", .str token)])

/-- A `respond_approval` in progress: the row is read; `sent` once the upstream
has acknowledged the response. -/
structure RespondTask where
  id : Nat
  idempotencyKey : String
  token : String
  decision : ApprovalDecision
  requestId : JsonRpcId
  sent : Bool

/-- The registry, the tasks in progress, and two logs: the responses the
upstream received and the results the clients got. -/
structure ApprovalSystem where
  registry : ApprovalRegistry
  epoch : Nat
  tasks : KeyedTable RespondTask.id
  responses : List (JsonRpcId × Json)
  answers : List ThreadCommandResult

namespace ApprovalSystem

/-- A broker whose registry holds what earlier runs left there. -/
def start (registry : ApprovalRegistry) (epoch : Nat) : ApprovalSystem :=
  ⟨registry, epoch, .empty, [], []⟩

/-- One atomic step.  `send` carries the transport's answer and whether the
upstream received the response: a timed-out send may have arrived. -/
inductive Action where
  | register (token : String) (upstreamEpoch : Nat) (requestId : JsonRpcId)
      (method : String) (request : Json) (threadId : Option String)
      (createdAt : Nat)
  | markPresented (token : String)
  | orphanEpoch (epoch : Nat)
  | load (task : Nat) (idempotencyKey token : String)
      (decision : ApprovalDecision) (fault : Option StoreError)
  | send (task : Nat) (answer : Except AppServerError Unit) (received : Bool)
  | resolve (task : Nat) (written : Bool)

variable (state : ApprovalSystem) (token : String)

/-- `get`, unless the read fails. -/
def lookup : Option StoreError → Except StoreError (Option StoredApproval)
  | some fault => .error fault
  | none => .ok (state.registry.get token)

def loadStep (id : Nat) (idempotencyKey token : String)
    (decision : ApprovalDecision) (fault : Option StoreError) :
    ApprovalSystem :=
  match loadApproval (state.lookup token fault) state.epoch idempotencyKey with
  | .error result => { state with answers := state.answers ++ [result] }
  | .ok stored =>
    { state with
      tasks := state.tasks.put
        { id, idempotencyKey, token, decision
          requestId := stored.upstreamRequestId
          sent := false } }

def sendStep (task : RespondTask) (answer : Except AppServerError Unit)
    (received : Bool) : ApprovalSystem :=
  let state :=
    if received then
      { state with responses := state.responses ++
          [(task.requestId, approvalResponse task.decision)] }
    else state
  match answer with
  | .ok () => { state with tasks := state.tasks.put { task with sent := true } }
  | .error error =>
    { state with
      tasks := state.tasks.erase task.id
      answers := state.answers ++
        [upstreamFailure task.idempotencyKey error] }

/-- The decision is written and the command answered, whether or not the write
succeeded. -/
def resolveStep (task : RespondTask) (written : Bool) : ApprovalSystem :=
  { state with
    registry :=
      if written then
        state.registry.resolve task.token task.decision
          (approvalResponse task.decision)
      else state.registry
    tasks := state.tasks.erase task.id
    answers := state.answers ++
      [approvalAnswered task.idempotencyKey task.token] }

def step : Action → Option ApprovalSystem
  | .register token upstreamEpoch requestId method request threadId createdAt =>
    match state.registry.register
        (ApprovalRegistry.newRow token upstreamEpoch requestId method request
          threadId createdAt)
        (ApprovalRegistry.newRow_decoded token upstreamEpoch requestId method
          request threadId createdAt) with
    | .ok registry => some { state with registry := registry }
    | .error _ => some state
  | .markPresented token =>
    some { state with registry := state.registry.markPresented token }
  | .orphanEpoch epoch =>
    some { state with registry := state.registry.orphanEpoch epoch }
  | .load id idempotencyKey token decision fault =>
    if (state.tasks.find? id).isSome then none
    else some (state.loadStep id idempotencyKey token decision fault)
  | .send id answer received =>
    match state.tasks.find? id with
    | some task =>
      if task.sent || (answer.isOk && !received) then none
      else some (state.sendStep task answer received)
    | none => none
  | .resolve id written =>
    match state.tasks.find? id with
    | some task =>
      if task.sent then some (state.resolveStep task written) else none
    | none => none

/-- The row under a token exists and is open. -/
def OpenAt : Prop :=
  ∃ row, state.registry.find? token = some row ∧ row.isOpen

/-- The schedules on which the registry is sound.  A response is sent only
while the row is open and no other task has sent one without writing it yet,
and a failed send did not arrive; a decision is written only over an open row,
and the write succeeds. -/
def Undecided : Action → Prop
  | .send id answer received =>
    ∀ task, state.tasks.find? id = some task →
      state.OpenAt task.token ∧
      (∀ other ∈ state.tasks.rows, other.sent → other.token ≠ task.token) ∧
      (received → answer = .ok ())
  | .resolve id written =>
    written ∧ ∀ task, state.tasks.find? id = some task →
      state.OpenAt task.token
  | _ => True

variable {state next : ApprovalSystem} {id : Nat}

theorem step_send {answer : Except AppServerError Unit} {received : Bool}
    (hstep : state.step (.send id answer received) = some next) :
    ∃ task, state.tasks.find? id = some task ∧
      (answer.isOk → received) ∧
      state.sendStep task answer received = next := by
  simp only [step] at hstep
  split at hstep
  · rename_i task htask
    split at hstep
    · cases hstep
    · rename_i hsend
      rw [some.injEq] at hstep
      refine ⟨task, htask, ?_, hstep⟩
      cases received <;> simp_all
  · cases hstep

theorem step_resolve {written : Bool}
    (hstep : state.step (.resolve id written) = some next) :
    ∃ task, state.tasks.find? id = some task ∧ task.sent ∧
      state.resolveStep task written = next := by
  simp only [step] at hstep
  split at hstep
  · rename_i task htask
    split at hstep
    · rename_i hsent
      rw [some.injEq] at hstep
      exact ⟨task, htask, hsent, hstep⟩
    · cases hstep
  · cases hstep

@[simp]
theorem sendStep_registry (state : ApprovalSystem) (task : RespondTask)
    (answer : Except AppServerError Unit) (received : Bool) :
    (state.sendStep task answer received).registry = state.registry := by
  unfold sendStep
  cases answer <;> cases received <;> rfl

/-- On a sound schedule no step touches a closed row. -/
theorem step_grows {action : Action} (hok : state.Undecided action)
    (hstep : state.step action = some next) :
    state.registry.Grows next.registry := by
  cases action with
  | register token upstreamEpoch requestId method request threadId createdAt =>
    simp only [step] at hstep
    split at hstep <;> rw [some.injEq] at hstep <;> subst hstep
    · rename_i registry hregister
      exact grows_register hregister
    · exact ApprovalRegistry.Grows.refl _
  | markPresented token =>
    rw [step, some.injEq] at hstep
    rw [← hstep]
    exact grows_markPresented _ token
  | orphanEpoch epoch =>
    rw [step, some.injEq] at hstep
    rw [← hstep]
    exact grows_orphanEpoch _ epoch
  | load id idempotencyKey token decision fault =>
    simp only [step] at hstep
    split at hstep
    · cases hstep
    · rw [some.injEq] at hstep
      rw [← hstep, loadStep]
      split <;> exact ApprovalRegistry.Grows.refl _
  | send id answer received =>
    obtain ⟨task, -, -, rfl⟩ := step_send hstep
    rw [sendStep_registry]
    exact ApprovalRegistry.Grows.refl _
  | resolve id written =>
    obtain ⟨task, htask, -, rfl⟩ := step_resolve hstep
    obtain ⟨hwritten, hopen⟩ := hok
    obtain ⟨row, hrow, hrowOpen⟩ := hopen task htask
    rw [resolveStep, if_pos hwritten]
    exact grows_resolve _ _ _ hrow hrowOpen

/-- The books the tasks keep.  A task answers the row it read; a response that
was received belongs to a row that is closed, or is about to be by the task
that sent it; no request has two. -/
structure Ledger (state : ApprovalSystem) : Prop where
  loaded : ∀ task ∈ state.tasks.rows, ∃ row,
    state.registry.find? task.token = some row ∧
      row.upstreamEpoch = state.epoch ∧ row.requestId = task.requestId
  covered : ∀ response ∈ state.responses, ∃ token row,
    state.registry.find? token = some row ∧
      row.upstreamEpoch = state.epoch ∧ row.requestId = response.1 ∧
      (¬ row.isOpen ∨
        ∃ task ∈ state.tasks.rows, task.sent ∧ task.token = token)
  once : (state.responses.map Prod.fst).Nodup

theorem ledger_start (registry : ApprovalRegistry) (epoch : Nat) :
    (start registry epoch).Ledger where
  loaded _ htask := absurd htask not_mem_nil
  covered _ hresponse := absurd hresponse not_mem_nil
  once := nodup_nil

/-- Growth of the registry alone keeps the books. -/
theorem Ledger.of_grows (hledger : state.Ledger)
    (hgrows : state.registry.Grows next.registry)
    (hepoch : next.epoch = state.epoch)
    (htasks : ∀ task, task ∈ next.tasks.rows → task ∈ state.tasks.rows)
    (hkept : ∀ token row, next.registry.find? token = some row → row.isOpen →
      ∀ task ∈ state.tasks.rows, task.sent → task.token = token →
        task ∈ next.tasks.rows)
    (hresponses : next.responses = state.responses) : next.Ledger := by
  refine ⟨?_, ?_, ?_⟩
  · intro task htask
    obtain ⟨row, hrow, hrowEpoch, hid⟩ := hledger.loaded task (htasks task htask)
    obtain ⟨later, hlater, hlaterEpoch, hlaterId, -⟩ := hgrows _ row hrow
    exact ⟨later, hlater, by rw [hlaterEpoch, hrowEpoch, hepoch],
      hlaterId.trans hid⟩
  · intro response hresponse
    rw [hresponses] at hresponse
    obtain ⟨token, row, hrow, hrowEpoch, hid, hcover⟩ :=
      hledger.covered response hresponse
    obtain ⟨later, hlater, hlaterEpoch, hlaterId, hclosed⟩ := hgrows _ row hrow
    refine ⟨token, later, hlater, by rw [hlaterEpoch, hrowEpoch, hepoch],
      hlaterId.trans hid, ?_⟩
    rcases hcover with hnot | ⟨task, htask, hsent, htoken⟩
    · rw [hclosed hnot]
      exact Or.inl hnot
    · by_cases hopen : later.isOpen
      · exact Or.inr ⟨task, hkept token later hlater hopen task htask hsent
          htoken, hsent, htoken⟩
      · exact Or.inl hopen
  · rw [hresponses]
    exact hledger.once

/-- An approval that passes the checks was read from a row of the current
epoch. -/
theorem read_of_loadApproval {token : String} {fault : Option StoreError}
    {idempotencyKey : String} {stored : StoredApproval}
    (hload : loadApproval (state.lookup token fault) state.epoch
      idempotencyKey = .ok stored) :
    ∃ row, state.registry.find? token = some row ∧
      row.upstreamEpoch = state.epoch ∧
      row.requestId = stored.upstreamRequestId := by
  cases fault with
  | some fault => simp [lookup, loadApproval] at hload
  | none =>
    simp only [lookup, loadApproval, ApprovalRegistry.get] at hload
    cases hrow : state.registry.find? token with
    | none => simp [hrow] at hload
    | some row =>
      simp only [hrow, map_some] at hload
      split at hload
      · cases hload
      · rename_i hepoch
        rw [Except.ok.injEq] at hload
        subst hload
        exact ⟨row, rfl, not_not.mp hepoch, rfl⟩

section

variable (hledger : state.Ledger)
include hledger

/-- A task that has read its row joins. -/
theorem ledger_load (id : Nat) (idempotencyKey token : String)
    (decision : ApprovalDecision) (fault : Option StoreError)
    (hfresh : state.tasks.find? id = none) :
    (state.loadStep id idempotencyKey token decision fault).Ledger := by
  unfold loadStep
  split
  · exact ⟨hledger.loaded, hledger.covered, hledger.once⟩
  · rename_i stored hload
    have habsent := (state.tasks.find?_eq_none_iff id).mp hfresh
    have hread := read_of_loadApproval hload
    refine ⟨?_, ?_, hledger.once⟩
    · intro task htask
      rcases (mem_put_iff _ _ _).mp htask with rfl | ⟨hold, -⟩
      · exact hread
      · exact hledger.loaded task hold
    · intro response hresponse
      obtain ⟨found, row, hrow, hepoch, hid, hcover⟩ :=
        hledger.covered response hresponse
      refine ⟨found, row, hrow, hepoch, hid, hcover.imp_right ?_⟩
      intro ⟨task, htask, hsent, htoken⟩
      have hkeep := (mem_put_iff state.tasks
        { id, idempotencyKey, token, decision
          requestId := stored.upstreamRequestId
          sent := false } task).mpr (Or.inr ⟨htask, habsent task htask⟩)
      exact ⟨task, hkeep, hsent, htoken⟩

/-- A send over an open row, with no other send outstanding, is the first one
for its request. -/
theorem Ledger.unanswered {task : RespondTask} (htask : task ∈ state.tasks.rows)
    (hopen : state.OpenAt task.token)
    (halone : ∀ other ∈ state.tasks.rows, other.sent →
      other.token ≠ task.token) :
    task.requestId ∉ state.responses.map Prod.fst := by
  intro hmem
  obtain ⟨response, hresponse, hsame⟩ := List.mem_map.mp hmem
  obtain ⟨row, hrow, hepoch, hid⟩ := hledger.loaded task htask
  obtain ⟨token, found, hfound, hfoundEpoch, hfoundId, hcover⟩ :=
    hledger.covered response hresponse
  have hrowMem := ((find?_eq_some_iff _ _ _).mp hrow)
  have hfoundMem := ((find?_eq_some_iff _ _ _).mp hfound)
  have heq : found = row := by
    apply state.registry.eq_of_requestId hfoundMem.1 hrowMem.1
    · rw [hfoundEpoch, hepoch]
    · rw [hfoundId, hsame, hid]
  subst heq
  have htoken : token = task.token := hfoundMem.2.symm.trans hrowMem.2
  obtain ⟨openRow, hopenRow, hisOpen⟩ := hopen
  rcases hcover with hclosed | ⟨other, hother, hsent, hotherToken⟩
  · rw [hrow, some.injEq] at hopenRow
    rw [← hopenRow] at hisOpen
    exact hclosed hisOpen
  · exact halone other hother hsent (hotherToken.trans htoken)

theorem ledger_send {answer : Except AppServerError Unit} {received : Bool}
    (hok : state.Undecided (.send id answer received))
    (hstep : state.step (.send id answer received) = some next) :
    next.Ledger := by
  obtain ⟨task, hfind, hreceived, rfl⟩ := step_send hstep
  obtain ⟨hopen, halone, hknown⟩ := hok task hfind
  have htask := ((state.tasks.find?_eq_some_iff _ _).mp hfind).1
  cases answer with
  | error error =>
    have hlost : received = false := by
      cases received with
      | false => rfl
      | true => exact absurd (hknown rfl) (by rintro ⟨⟩)
    subst hlost
    -- the task leaves; it had not sent, so it covered no response
    have hgrows := step_grows hok hstep
    apply hledger.of_grows hgrows
    · rfl
    · intro other hother
      exact ((mem_erase_iff _ _ _).mp hother).1
    · intro token row _ _ other hother hsent htoken
      refine (mem_erase_iff _ _ _).mpr ⟨hother, fun hsame => ?_⟩
      have heq := state.tasks.eq_of_mem hother htask hsame
      exact halone other hother hsent (by rw [heq])
    · rfl
  | ok _ =>
    have hgot : received = true := hreceived rfl
    subst hgot
    have hfresh := hledger.unanswered htask hopen halone
    have hmem : ∀ other, other ∈ (state.sendStep task (.ok ())
        true).tasks.rows ↔ other = { task with sent := true } ∨
          other ∈ state.tasks.rows ∧ other.id ≠ task.id :=
      fun other => mem_put_iff _ _ _
    refine ⟨?_, ?_, ?_⟩
    · intro other hother
      rcases (hmem other).mp hother with rfl | ⟨hold, -⟩
      · exact hledger.loaded task htask
      · exact hledger.loaded other hold
    · intro response hresponse
      rcases mem_append.mp hresponse with hold | hnew
      · obtain ⟨token, row, hrow, hepoch, hrowId, hcover⟩ :=
          hledger.covered response hold
        refine ⟨token, row, hrow, hepoch, hrowId, hcover.imp_right ?_⟩
        intro ⟨other, hother, hsent, htoken⟩
        refine ⟨other, (hmem other).mpr (Or.inr ⟨hother, fun hsame => ?_⟩),
          hsent, htoken⟩
        have heq := state.tasks.eq_of_mem hother htask hsame
        exact halone other hother hsent (by rw [heq])
      · obtain ⟨row, hrow, hepoch, hrowId⟩ := hledger.loaded task htask
        rw [mem_singleton.mp hnew]
        exact ⟨task.token, row, hrow, hepoch, hrowId,
          Or.inr ⟨_, (hmem _).mpr (Or.inl rfl), rfl, rfl⟩⟩
    · have hlog : (state.sendStep task (.ok ()) true).responses.map Prod.fst =
          state.responses.map Prod.fst ++ [task.requestId] := by
        simp [sendStep]
      rw [hlog, nodup_append]
      refine ⟨hledger.once, nodup_singleton _, ?_⟩
      intro found hfound other hother heq
      rw [mem_singleton.mp hother] at heq
      exact hfresh (heq ▸ hfound)

theorem ledger_resolve {written : Bool}
    (hok : state.Undecided (.resolve id written))
    (hstep : state.step (.resolve id written) = some next) : next.Ledger := by
  have hgrows := step_grows hok hstep
  obtain ⟨task, hfind, hsent, rfl⟩ := step_resolve hstep
  have htask := ((state.tasks.find?_eq_some_iff _ _).mp hfind).1
  apply hledger.of_grows hgrows
  · rfl
  · intro other hother
    exact ((mem_erase_iff _ _ _).mp hother).1
  · intro token row hrow hopen other hother hotherSent htoken
    refine (mem_erase_iff _ _ _).mpr ⟨hother, fun hsame => ?_⟩
    -- the leaving task has closed the row it answered for
    have heq := state.tasks.eq_of_mem hother htask hsame
    subst heq
    rw [resolveStep, if_pos hok.1, ← htoken] at hrow
    exact find?_resolve_closed _ _ _ hrow hopen
  · rfl

theorem ledger_step {action : Action} (hok : state.Undecided action)
    (hstep : state.step action = some next) : next.Ledger := by
  have hgrows := step_grows hok hstep
  cases action with
  | register token upstreamEpoch requestId method request threadId createdAt =>
    simp only [step] at hstep
    split at hstep <;> rw [some.injEq] at hstep <;> subst hstep
    · exact hledger.of_grows hgrows rfl (fun _ htask => htask)
        (fun _ _ _ _ _ htask _ _ => htask) rfl
    · exact hledger
  | markPresented token =>
    rw [step, some.injEq] at hstep
    subst hstep
    exact hledger.of_grows hgrows rfl (fun _ htask => htask)
      (fun _ _ _ _ _ htask _ _ => htask) rfl
  | orphanEpoch epoch =>
    rw [step, some.injEq] at hstep
    subst hstep
    exact hledger.of_grows hgrows rfl (fun _ htask => htask)
      (fun _ _ _ _ _ htask _ _ => htask) rfl
  | load id idempotencyKey token decision fault =>
    simp only [step] at hstep
    split at hstep
    · cases hstep
    · rename_i hfresh
      rw [some.injEq] at hstep
      subst hstep
      exact ledger_load hledger id idempotencyKey token decision fault
        (not_isSome_iff_eq_none.mp hfresh)
  | send id answer received => exact ledger_send hledger hok hstep
  | resolve id written => exact ledger_resolve hledger hok hstep

end

theorem ledger_run {actions : List Action}
    (run : GuardedRun step Undecided state actions next)
    (hledger : state.Ledger) : next.Ledger :=
  run.invariant hledger fun _ _ _ hinv hok hstep => ledger_step hinv hok hstep

theorem grows_run {actions : List Action}
    (run : GuardedRun step Undecided state actions next) :
    state.registry.Grows next.registry := by
  induction run with
  | nil => exact ApprovalRegistry.Grows.refl _
  | snoc run hok hstep ih => exact ih.trans (step_grows hok hstep)

/-- The states no later operation may change. -/
def isFinal (row : ApprovalRow) : Bool :=
  row.state = .accepted || row.state = .declined || row.state = .orphaned

theorem not_isOpen_of_isFinal {row : ApprovalRow} (hfinal : isFinal row) :
    ¬ row.isOpen := by
  revert hfinal
  cases hstate : row.state <;> simp [isFinal, ApprovalRow.isOpen, hstate]

/-- Over a sound schedule, from whatever registry earlier runs left: at every
point no request id has been answered twice, and what is accepted, declined or
orphaned at one point is so at every later one. -/
theorem approvals_answered_once_and_final {registry : ApprovalRegistry}
    {epoch : Nat} {middle finish : ApprovalSystem}
    {earlier later : List Action}
    (run : GuardedRun step Undecided (start registry epoch) earlier middle)
    (rest : GuardedRun step Undecided middle later finish) :
    (finish.responses.map Prod.fst).Nodup ∧
      ∀ token row, middle.registry.find? token = some row → isFinal row →
        finish.registry.find? token = some row := by
  have hledger := ledger_run rest (ledger_run run (ledger_start registry epoch))
  refine ⟨hledger.once, ?_⟩
  intro token row hrow hfinal
  obtain ⟨found, hfound, -, -, hsame⟩ := grows_run rest token row hrow
  rw [hsame (not_isOpen_of_isFinal hfinal)] at hfound
  exact hfound

/-- Whether the step may be taken on a sound schedule, decided. -/
def undecidedCheck (state : ApprovalSystem) : Action → Bool
  | .send id answer received =>
    (state.tasks.find? id).all fun task =>
      ((state.registry.find? task.token).any ApprovalRow.isOpen) &&
      (state.tasks.rows.all fun other =>
        !other.sent || other.token ≠ task.token) &&
      (!received || answer.isOk)
  | .resolve id written =>
    written && (state.tasks.find? id).all fun task =>
      (state.registry.find? task.token).any ApprovalRow.isOpen
  | _ => true

theorem openAt_of_any {token : String}
    (hany : (state.registry.find? token).any ApprovalRow.isOpen) :
    state.OpenAt token := by
  cases hfind : state.registry.find? token with
  | none => simp [hfind] at hany
  | some row =>
    rw [hfind] at hany
    exact ⟨row, hfind, hany⟩

theorem undecided_of_check (state : ApprovalSystem) (action : Action)
    (hcheck : state.undecidedCheck action = true) :
    state.Undecided action := by
  cases action with
  | send id answer received =>
    intro task htask
    simp only [undecidedCheck, htask, all_some, Bool.and_eq_true,
      List.all_eq_true] at hcheck
    obtain ⟨⟨hopen, halone⟩, hknown⟩ := hcheck
    refine ⟨openAt_of_any hopen, ?_, ?_⟩
    · intro other hother hsent
      have hother := halone other hother
      simpa [hsent] using hother
    · intro hreceived
      cases answer with
      | ok _ => rfl
      | error error =>
        simp [hreceived, Except.isOk, Except.toBool] at hknown
  | resolve id written =>
    simp only [undecidedCheck, Bool.and_eq_true] at hcheck
    refine ⟨hcheck.1, ?_⟩
    intro task htask
    have hopen := hcheck.2
    simp only [htask, all_some] at hopen
    exact openAt_of_any hopen
  | register | markPresented | orphanEpoch | load => trivial

namespace TwoKeys

def registerOne : Action :=
  .register "approval_1" 1 (.number 7) "item/fileChange/requestApproval"
    (.obj []) (some "thread-1") 0

/-- One command, from its read to its write. -/
def respond (task : Nat) (key : String) (decision : ApprovalDecision) :
    List Action :=
  [.load task key "approval_1" decision none, .send task (.ok ()) true,
    .resolve task true]

/-- The same approval accepted under one key and then declined under another,
one command after the other: the upstream gets two responses for request 7,
and the stored decision turns from accepted to declined. -/
theorem second_key_overturns_decision :
    ((runActions step (start .empty 1)
        (registerOne :: respond 1 "key-1" .accept)).bind fun state =>
      (state.registry.find? "approval_1").map ApprovalRow.state) =
        some .accepted ∧
    ((runActions step (start .empty 1)
        (registerOne :: (respond 1 "key-1" .accept ++
          respond 2 "key-2" .decline))).map fun state =>
      (state.responses.map Prod.fst,
        (state.registry.find? "approval_1").map ApprovalRow.state)) =
      some ([.number 7, .number 7], some .declined) := by
  decide

/-- A sound schedule: the approval is accepted, and what comes later finds it
closed. -/
def soundActions : List Action :=
  registerOne :: respond 1 "key-1" .accept

def soundRest : List Action :=
  [.markPresented "approval_1", .orphanEpoch 1,
    .load 2 "key-2" "approval_1" .decline none]

theorem sound_schedule_exists :
    ∃ middle finish,
      GuardedRun step Undecided (start .empty 1) soundActions middle ∧
      GuardedRun step Undecided middle soundRest finish ∧
      (finish.responses.map Prod.fst).Nodup ∧
      ∀ token row, middle.registry.find? token = some row → isFinal row →
        finish.registry.find? token = some row := by
  have hmiddle : (runGuarded step undecidedCheck (start .empty 1)
      soundActions).isSome := by decide
  obtain ⟨middle, hmiddleRun⟩ := isSome_iff_exists.mp hmiddle
  have hfinish : ((runGuarded step undecidedCheck (start .empty 1)
      soundActions).bind fun state =>
        runGuarded step undecidedCheck state soundRest).isSome := by
    decide
  rw [hmiddleRun, bind_some] at hfinish
  obtain ⟨finish, hfinishRun⟩ := isSome_iff_exists.mp hfinish
  have run := guardedRun_of_runGuarded undecided_of_check hmiddleRun
  have rest := guardedRun_of_runGuarded undecided_of_check hfinishRun
  exact ⟨middle, finish, run, rest, approvals_answered_once_and_final run rest⟩

end TwoKeys

end ApprovalSystem

end Vellum.Broker

/-
Commands across a restart.  A starting broker turns the commands left in
`processing` into indeterminate ones, but only for the kinds it lists; for the
others the record stays in `processing` with nobody working on it.  On the runs
in which no such command is in flight at a restart, and every outcome is
written, a record in `processing` always has its task.
-/
import Vellum.Broker.CommandSystem

namespace Vellum.Broker

open Option

/-- The task has claimed its key and not yet written its outcome. -/
def CommandTask.Claimed (task : CommandTask) : Prop :=
  task.phase = .executing ∨ ∃ outside, task.phase = .settling outside

namespace CommandSystem

/-- Some task is processing the key. -/
def InProgress (state : CommandSystem) (key : String) : Prop :=
  ∃ task ∈ state.tasks.rows, task.attempt.key = key ∧ task.Claimed

/-- Every record is well-formed, and one in `processing` has its task. -/
structure Attended (state : CommandSystem) : Prop where
  wellformed : ∀ key row, state.commands.find? key = some row →
    row.Wellformed
  working : ∀ key row, state.commands.find? key = some row →
    row.state = .processing → state.InProgress key

/-- Outcomes are written, and a restart finds in `processing` only kinds that
it does not consider safe to retry. -/
def Recoverable (state : CommandSystem) : Action → Prop
  | .settle _ written => written
  | .restart => ∀ row ∈ state.commands.rows, row.state = .processing →
      classifyAfterUpstreamRestart row.commandKind false = .indeterminate
  | _ => True

theorem attended_start : (start .empty).Attended where
  wellformed _ _ hrow := by simp [start] at hrow
  working _ _ hrow := by simp [start] at hrow

variable {digest : Json → String} {state next : CommandSystem}
  {task : CommandTask}

/-- Tasks that have claimed stay in progress while another task moves. -/
theorem inProgress_of_kept {key : String} (hprogress : state.InProgress key)
    (hkept : ∀ task ∈ state.tasks.rows, task.attempt.key = key →
      task.Claimed → task ∈ next.tasks.rows) : next.InProgress key := by
  obtain ⟨task, hmem, hkey, hclaimed⟩ := hprogress
  exact ⟨task, hkept task hmem hkey hclaimed, hkey, hclaimed⟩

theorem not_claimed_of_checking (hphase : task.phase = .checking) :
    ¬ task.Claimed := by
  simp [CommandTask.Claimed, hphase]

theorem not_claimed_of_claiming (hphase : task.phase = .claiming) :
    ¬ task.Claimed := by
  simp [CommandTask.Claimed, hphase]

/-- A task that has claimed nothing may move on while the others stay. -/
theorem Attended.moves (hattended : state.Attended)
    (htask : task ∈ state.tasks.rows) (hunclaimed : ¬ task.Claimed)
    (hcommands : next.commands = state.commands)
    (hkept : ∀ other ∈ state.tasks.rows, other.party ≠ task.party →
      other ∈ next.tasks.rows) : next.Attended := by
  refine ⟨hcommands ▸ hattended.wellformed, ?_⟩
  intro key row hrow hstate
  rw [hcommands] at hrow
  apply inProgress_of_kept (hattended.working key row hrow hstate)
  intro other hmem _ hclaimed
  refine hkept other hmem fun hparty => hunclaimed ?_
  rw [← state.tasks.eq_of_mem hmem htask hparty]
  exact hclaimed

theorem attended_check (hattended : state.Attended)
    (htask : task ∈ state.tasks.rows) (hphase : task.phase = .checking)
    (readable : Bool) : (state.checkStep digest task readable).Attended := by
  have hunclaimed := not_claimed_of_checking hphase
  rw [checkStep]
  split
  · exact hattended.moves htask hunclaimed rfl fun other hmem hne =>
      (mem_answer_iff _ _ _ _ _).mpr ⟨hmem, hne⟩
  · exact hattended.moves htask hunclaimed rfl fun other hmem hne =>
      (mem_advance_iff _ _ _ _).mpr (Or.inr ⟨hmem, hne⟩)

theorem attended_claim (hattended : state.Attended)
    (htask : task ∈ state.tasks.rows) (hphase : task.phase = .claiming)
    (fault : Option StoreError) :
    (state.claimStep digest task fault).Attended := by
  have hunclaimed := not_claimed_of_claiming hphase
  cases fault with
  | some error =>
    exact hattended.moves htask hunclaimed rfl fun other hmem hne =>
      (mem_answer_iff _ _ _ _ _).mpr ⟨hmem, hne⟩
  | none =>
    refine ⟨wellformed_storeCommand
      (task.attempt.wellformed_claimRow digest) hattended.wellformed, ?_⟩
    intro key row hrow hstate
    have hiff := mem_advance_iff state task .executing
    rcases find?_storeCommand_cases hrow with ⟨hkey, -, -⟩ | ⟨-, hold⟩
    · exact ⟨_, (hiff _).mpr (Or.inl rfl), hkey.symm, Or.inl rfl⟩
    · apply inProgress_of_kept (hattended.working key row hold hstate)
      intro other hmem _ hclaimed
      refine (hiff other).mpr (Or.inr ⟨hmem, fun hparty => hunclaimed ?_⟩)
      rw [← state.tasks.eq_of_mem hmem htask hparty]
      exact hclaimed

theorem attended_execute (hattended : state.Attended)
    (htask : task ∈ state.tasks.rows) (outside : CommandOutside) :
    (state.executeStep task outside).Attended := by
  refine ⟨hattended.wellformed, ?_⟩
  intro key row hrow hstate
  obtain ⟨other, hmem, hkey, hclaimed⟩ := hattended.working key row hrow hstate
  have hiff := mem_advance_iff state task (.settling outside)
  by_cases hparty : other.party = task.party
  · rw [state.tasks.eq_of_mem hmem htask hparty] at hkey
    exact ⟨_, (hiff _).mpr (Or.inl rfl), hkey, Or.inr ⟨outside, rfl⟩⟩
  · exact ⟨other, (hiff other).mpr (Or.inr ⟨hmem, hparty⟩), hkey, hclaimed⟩

/-- The outcome that is written is not `processing`, so the task may go. -/
theorem attended_settle (hattended : state.Attended)
    (htask : task ∈ state.tasks.rows) (outside : CommandOutside) :
    (state.settleStep digest task outside true).Attended := by
  obtain ⟨hwellformed, hdone⟩ :=
    task.attempt.wellformed_settledRow digest outside
  refine ⟨wellformed_storeCommand hwellformed hattended.wellformed, ?_⟩
  intro key row hrow hstate
  rcases find?_storeCommand_cases hrow with ⟨-, hwritten, -⟩ | ⟨hne, hold⟩
  · exact absurd (hwritten.symm.trans hstate) hdone
  · apply inProgress_of_kept (hattended.working key row hold hstate)
    intro other hmem hkey _
    refine (mem_answer_iff state task (task.attempt.execute outside).result
      .executed other).mpr ⟨hmem, fun hparty => hne ?_⟩
    rw [state.tasks.eq_of_mem hmem htask hparty] at hkey
    exact hkey.symm

theorem find?_restartStep (hok : state.Recoverable .restart) {key : String}
    {row : CommandRow}
    (hrow : state.restartStep.commands.find? key = some row) :
    ∃ old, state.commands.find? key = some old ∧ row.error = old.error ∧
      (row.state = old.state ∨ row.state = .indeterminate) ∧
      row.state ≠ .processing := by
  rw [restartStep, reconcileProcessingCommands,
    find?_markProcessingIndeterminate] at hrow
  obtain ⟨old, hold, rfl⟩ := map_eq_some_iff.mp hrow
  refine ⟨old, hold, ?_⟩
  have hmem := ((KeyedTable.find?_eq_some_iff _ _ _).mp hold).1
  by_cases hprocessing : old.state = .processing
  · have hkind := hok old hmem hprocessing
    rw [classifyAfterUpstreamRestart_eq] at hkind
    have hmarked : old.commandKind ∈ markedKinds := by
      by_contra hunmarked
      rw [if_neg hunmarked] at hkind
      cases hkind
    simp [hprocessing, hmarked, CommandRow.markIndeterminate]
  · simp [hprocessing]

theorem attended_restart (hattended : state.Attended)
    (hok : state.Recoverable .restart) : state.restartStep.Attended := by
  refine ⟨?_, ?_⟩
  · intro key row hrow
    obtain ⟨old, hold, herror, hstate, -⟩ := find?_restartStep hok hrow
    obtain ⟨hknown, hcode⟩ := hattended.wellformed key old hold
    refine ⟨?_, ?_⟩
    · rcases hstate with hsame | hmarked
      · rw [hsame]
        exact hknown
      · simp [hmarked]
    · rw [herror]
      exact hcode
  · intro key row hrow hprocessing
    obtain ⟨-, -, -, -, hdone⟩ := find?_restartStep hok hrow
    exact absurd hprocessing hdone

theorem attended_step {action : Action} (hattended : state.Attended)
    (hok : state.Recoverable action)
    (hstep : state.step digest action = some next) : next.Attended := by
  rcases step_cases hstep with
    ⟨party, attempt, workspace, rfl, hidle, rfl⟩ |
    ⟨task, readable, rfl, htask, hphase, rfl⟩ |
    ⟨task, fault, rfl, htask, hphase, rfl⟩ |
    ⟨task, outside, rfl, htask, hphase, rfl⟩ |
    ⟨task, outside, written, rfl, htask, hphase, rfl⟩ | ⟨rfl, rfl⟩
  · rw [arriveStep]
    split
    · exact ⟨hattended.wellformed, hattended.working⟩
    · refine ⟨hattended.wellformed, ?_⟩
      intro key row hrow hstate
      apply inProgress_of_kept (hattended.working key row hrow hstate)
      intro other hmem _ _
      have hfree := (state.tasks.find?_eq_none_iff party).mp hidle
      exact (KeyedTable.mem_put_iff _ _ _).mpr
        (Or.inr ⟨hmem, hfree other hmem⟩)
  · exact attended_check hattended htask hphase readable
  · exact attended_claim hattended htask hphase fault
  · exact attended_execute hattended htask outside
  · rw [show written = true from hok]
    exact attended_settle hattended htask outside
  · exact attended_restart hattended hok

theorem attended_run {actions : List Action}
    (run : GuardedRun (step digest) Recoverable state actions next)
    (hattended : state.Attended) : next.Attended := by
  induction run with
  | nil => exact hattended
  | snoc run hok hstep ih => exact attended_step ih hok hstep

/-- Only a record in `processing` answers that the command is being
processed. -/
theorem processing_of_replay {row : CommandRow} (hwellformed : row.Wellformed)
    {attempt : Attempt}
    (hreplay : attempt.replay digest row = some attempt.stillProcessing) :
    row.state = .processing := by
  obtain ⟨hknown, hcode⟩ := hwellformed
  cases attempt with
  | threadStart deviceId key cwd model approvalPolicy =>
    simp only [Attempt.replay, Attempt.stillProcessing] at hreplay
    split at hreplay
    · simp [failed, RemoteError.new] at hreplay
    · split at hreplay
      · simp [failed, RemoteError.new] at hreplay
      · split at hreplay
        · simp [failed, RemoteError.new] at hreplay
        · cases hstate : row.state with
          | processing => rfl
          | other text => exact absurd hstate (hknown text)
          | completed => simp [hstate, completed, failed] at hreplay
          | indeterminate => simp [hstate, indeterminate, failed] at hreplay
          | failed =>
            cases herror : row.error with
            | none =>
              simp [hstate, herror, failed, RemoteError.new] at hreplay
            | some error =>
              simp only [hstate, herror, getD_some, failed,
                some.injEq, ThreadCommandResult.mk.injEq, true_and]
                at hreplay
              exact absurd (by rw [hreplay, RemoteError.new])
                (hcode error herror)
  | actorCommand threadId deviceId request =>
    simp only [Attempt.replay, Attempt.stillProcessing] at hreplay
    split at hreplay
    · simp [Attempt.identityConflict, failed, processing] at hreplay
    · cases hstate : row.state with
      | processing => rfl
      | other text => exact absurd hstate (hknown text)
      | completed => simp [hstate, completed, processing] at hreplay
      | failed => simp [hstate, processing] at hreplay
      | indeterminate => simp [hstate, indeterminate, processing] at hreplay

/-- On every recoverable run, at every point: a command sent again under its
key is not answered as processing unless a task is processing it; and a restart
leaves only final records, so that it is reported with its outcome or as
indeterminate. -/
theorem processing_always_attended (digest : Json → String)
    {actions : List Action} {state : CommandSystem}
    (run : GuardedRun (step digest) Recoverable (start .empty) actions state) :
    (∀ attempt row, state.commands.find? (Attempt.key attempt) = some row →
      ¬ state.InProgress attempt.key →
        attempt.replay digest row ≠ some attempt.stillProcessing) ∧
    ∀ next, state.Recoverable .restart →
      state.step digest .restart = some next →
        ∀ key row, next.commands.find? key = some row →
          row.state ∈ [CommandState.completed, .failed, .indeterminate] := by
  have hattended := attended_run run attended_start
  refine ⟨?_, ?_⟩
  · intro attempt row hrow hidle hreplay
    have hstate :=
      processing_of_replay (hattended.wellformed _ row hrow) hreplay
    exact hidle (hattended.working _ row hrow hstate)
  · intro next hok hstep key row hrow
    rw [step, some.injEq] at hstep
    subst hstep
    have hwellformed := (attended_restart hattended hok).wellformed key row hrow
    obtain ⟨-, -, -, -, hdone⟩ := find?_restartStep hok hrow
    cases hstate : row.state with
    | processing => exact absurd hstate hdone
    | other text => exact absurd hstate (hwellformed.1 text)
    | completed | failed | indeterminate => simp

/-- Whether the step is one of a recoverable run, decided. -/
def recoverableCheck (state : CommandSystem) : Action → Bool
  | .settle _ written => written
  | .restart => state.commands.rows.all fun row => row.state ≠ .processing ||
      classifyAfterUpstreamRestart row.commandKind false = .indeterminate
  | _ => true

theorem recoverable_of_check (state : CommandSystem) (action : Action)
    (hcheck : state.recoverableCheck action = true) :
    state.Recoverable action := by
  cases action with
  | settle party written => exact hcheck
  | restart =>
    intro row hrow hprocessing
    have hrowCheck := List.all_eq_true.mp hcheck row hrow
    simpa [hprocessing] using hrowCheck
  | arrive | check | claim | execute => trivial

namespace Interrupted

def worker : Party := .actor 1

def outside : CommandOutside where
  lease := none
  answer := .error .notReady
  approval := .ok none
  epoch := 1
  acquire := .ok (.ok .null)
  released := false

/-- The digest of `writer.acquire`, the one payload of the first run. -/
def sha : Json → String := fun _ =>
  "b2ddc83482bfb22a841e60a9430eb2ac" ++
  "f6c05d01162a0f68e14543d115e6f878"

def acquire : Attempt :=
  .actorCommand "thread-1" "device-1" ⟨"key-1", none, none, .writerAcquire⟩

/-- A restart after the claim of a `writer.acquire`, which is safe to retry;
the client then sends it again. -/
def acquireActions : List Action :=
  [.arrive worker acquire none, .check worker true, .claim worker none,
    .restart, .arrive worker acquire none, .check worker true]

/-- The record stays in `processing` with no task left, and the command sent
again is answered as processing. -/
theorem acquire_stuck_after_restart :
    classifyAfterUpstreamRestart acquire.kind false = .safeToRetry ∧
    ((runActions (step sha) (start .empty) acquireActions).map fun state =>
      (state.commands.rows.map CommandRow.state, state.tasks.rows,
        state.answers.map Answer.result)) =
      some ([.processing], [], [processing "key-1"]) := by
  decide

/-- The digest of an approval response, the one payload of the second run. -/
def respondSha : Json → String := fun _ =>
  "37e54e6589ae409f8254e0b4935900db" ++
  "09b59b5a04fb06d6f022abae198f6416"

def respond : Attempt :=
  .actorCommand "thread-1" "device-1"
    ⟨"key-1", none, none, .approvalRespond "approval_1" .accept⟩

def respondActions : List Action :=
  [.arrive worker respond none, .check worker true, .claim worker none,
    .restart, .arrive worker respond none, .check worker true]

/-- The same interruption of an `approval.respond`. -/
theorem respond_attended_after_restart :
    ∃ state, GuardedRun (step respondSha) Recoverable (start .empty)
        respondActions state ∧
      state.commands.rows.map CommandRow.state = [.indeterminate] ∧
      (∀ attempt row, state.commands.find? (Attempt.key attempt) = some row →
        ¬ state.InProgress attempt.key →
          attempt.replay respondSha row ≠ some attempt.stillProcessing) ∧
      ∀ next, state.Recoverable .restart →
        state.step respondSha .restart = some next →
          ∀ key row, next.commands.find? key = some row →
            row.state ∈ [CommandState.completed, .failed, .indeterminate] := by
  have hstates : (runGuarded (step respondSha) recoverableCheck (start .empty)
      respondActions).map (fun state =>
        state.commands.rows.map CommandRow.state) = some [.indeterminate] := by
    decide
  obtain ⟨state, hrun, hmarked⟩ := map_eq_some_iff.mp hstates
  have run := guardedRun_of_runGuarded recoverable_of_check hrun
  exact ⟨state, run, hmarked, processing_always_attended respondSha run⟩

end Interrupted

end CommandSystem

end Vellum.Broker

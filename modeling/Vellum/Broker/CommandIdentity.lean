/-
Whose record a key answers with.  The identity of a command is compared column
by column: device, kind and digest of the payload.  The target thread is in
none of them, so a second command under a key is rejected exactly when one of
the three differs, whatever threads the two were sent to.
-/
import Vellum.Broker.CommandSystem

namespace Vellum.Broker

open Option

namespace CommandSystem

/-- The record under the first command's key is that command's, and any other
task past its check under the key has the same payload digest. -/
structure Bound (digest : Json → String) (first : Attempt)
    (state : CommandSystem) : Prop where
  record : ∃ row, state.commands.find? first.key = some row ∧
    row.Wellformed ∧ row.deviceId = first.deviceId ∧
    row.commandKind = first.kind ∧
    row.commandSha256 = some (digest first.commandJson)
  digests : ∀ task ∈ state.tasks.rows, task.attempt.key = first.key →
    task.phase ≠ .checking →
      digest task.attempt.commandJson = digest first.commandJson

/-- Every read of a record succeeds. -/
def Readable : Action → Prop
  | .check _ readable => readable = true
  | _ => True

variable {digest : Json → String} {first : Attempt} {state : CommandSystem}

theorem bound_storeCommand {commands : CommandTable} {written : CommandRow}
    (hrecord : ∃ row, commands.find? first.key = some row ∧
      row.Wellformed ∧ row.deviceId = first.deviceId ∧
      row.commandKind = first.kind ∧
      row.commandSha256 = some (digest first.commandJson))
    (hwritten : written.Wellformed)
    (hsha : written.idempotencyKey = first.key →
      written.commandSha256 = some (digest first.commandJson)) :
    ∃ row, (storeCommand commands written).find? first.key = some row ∧
      row.Wellformed ∧ row.deviceId = first.deviceId ∧
      row.commandKind = first.kind ∧
      row.commandSha256 = some (digest first.commandJson) := by
  obtain ⟨row, hrow, hwellformed, hdevice, hkind, hrowSha⟩ := hrecord
  rw [find?_storeCommand]
  by_cases hkey : first.key = written.idempotencyKey
  · rw [if_pos hkey, hrow]
    refine ⟨written.settle row, rfl, hwritten, hdevice, hkind, ?_⟩
    rw [CommandRow.settle, hsha hkey.symm, some_or]
  · rw [if_neg hkey]
    exact ⟨row, hrow, hwellformed, hdevice, hkind, hrowSha⟩

section

variable (hbound : state.Bound digest first)
include hbound

/-- A task that keeps its attempt and was past its check adds no digest. -/
theorem Bound.digests_advance {task : CommandTask}
    (htask : task ∈ state.tasks.rows) (hpast : task.phase ≠ .checking)
    (phase : Phase) :
    ∀ other ∈ (state.advance task phase).tasks.rows,
      other.attempt.key = first.key → other.phase ≠ .checking →
        digest other.attempt.commandJson = digest first.commandJson := by
  intro other hother hkey hphase
  rcases (mem_advance_iff _ _ _ _).mp hother with rfl | ⟨hold, -⟩
  · exact hbound.digests task htask hkey hpast
  · exact hbound.digests other hold hkey hphase

theorem Bound.digests_answer (task : CommandTask) (result : ThreadCommandResult)
    (origin : Origin) :
    ∀ other ∈ (state.answer task result origin).tasks.rows,
      other.attempt.key = first.key → other.phase ≠ .checking →
        digest other.attempt.commandJson = digest first.commandJson :=
  fun other hother =>
    hbound.digests other ((mem_answer_iff _ _ _ _ _).mp hother).1

/-- The record answers every attempt under its key. -/
theorem Bound.recordFor_isSome {attempt : Attempt}
    (hkey : attempt.key = first.key) :
    (state.recordFor digest attempt true).isSome := by
  obtain ⟨row, hrow, hwellformed, -, -, -⟩ := hbound.record
  obtain ⟨result, hresult⟩ := isSome_iff_exists.mp
    (attempt.replay_isSome digest row hwellformed.1)
  simp [recordFor, hkey, hrow, hresult]

theorem bound_step {next : CommandSystem} {action : Action}
    (hok : Readable action) (hstep : state.step digest action = some next) :
    next.Bound digest first := by
  rcases step_cases hstep with
    ⟨party, attempt, workspace, rfl, hidle, rfl⟩ |
    ⟨task, readable, rfl, htask, hphase, rfl⟩ |
    ⟨task, fault, rfl, htask, hphase, rfl⟩ |
    ⟨task, outside, rfl, htask, hphase, rfl⟩ |
    ⟨task, outside, written, rfl, htask, hphase, rfl⟩ | ⟨rfl, rfl⟩
  · rw [arriveStep]
    split
    · exact ⟨hbound.record, hbound.digests⟩
    · refine ⟨hbound.record, ?_⟩
      intro other hother hkey hpast
      rcases (KeyedTable.mem_put_iff _ _ _).mp hother with rfl | ⟨hold, -⟩
      · exact absurd rfl hpast
      · exact hbound.digests other hold hkey hpast
  · rw [show readable = true from hok, checkStep]
    split
    · exact ⟨hbound.record, hbound.digests_answer task _ _⟩
    · rename_i hnone
      refine ⟨hbound.record, ?_⟩
      intro other hother hkey hpast
      rcases (mem_advance_iff _ _ _ _).mp hother with rfl | ⟨hold, -⟩
      · have hsome := hbound.recordFor_isSome hkey
        rw [hnone] at hsome
        cases hsome
      · exact hbound.digests other hold hkey hpast
  · have hpast : task.phase ≠ .checking := by simp [hphase]
    cases fault with
    | some error => exact ⟨hbound.record, hbound.digests_answer task _ _⟩
    | none =>
      refine ⟨?_, hbound.digests_advance htask hpast .executing⟩
      apply bound_storeCommand hbound.record
      · exact task.attempt.wellformed_claimRow digest
      · intro hkey
        exact congrArg some (hbound.digests task htask hkey hpast)
  · have hpast : task.phase ≠ .checking := by simp [hphase]
    exact ⟨hbound.record, hbound.digests_advance htask hpast _⟩
  · have hpast : task.phase ≠ .checking := by simp [hphase]
    refine ⟨?_, hbound.digests_answer task
      (task.attempt.execute outside).result .executed⟩
    cases written with
    | false => exact hbound.record
    | true =>
      apply bound_storeCommand hbound.record
      · exact (task.attempt.wellformed_settledRow digest outside).1
      · intro hkey
        exact congrArg some (hbound.digests task htask hkey hpast)
  · refine ⟨?_, fun _ hother => absurd hother List.not_mem_nil⟩
    obtain ⟨row, hrow, hwellformed, hdevice, hkind, hsha⟩ := hbound.record
    rw [restartStep, reconcileProcessingCommands,
      find?_markProcessingIndeterminate, hrow, map_some]
    split
    · refine ⟨_, rfl, ⟨?_, hwellformed.2⟩, hdevice, hkind, hsha⟩
      intro text hstate
      cases hstate
    · exact ⟨row, rfl, hwellformed, hdevice, hkind, hsha⟩

end

theorem bound_run {next : CommandSystem} {actions : List Action}
    (run : GuardedRun (step digest) (fun _ => Readable) state actions next)
    (hbound : state.Bound digest first) : next.Bound digest first := by
  induction run with
  | nil => exact hbound
  | snoc run hok hstep ih => exact bound_step ih hok hstep

/-- The claim of a fresh key, with nobody else past the check, binds it. -/
theorem bound_claim (digest : Json → String) {task : CommandTask}
    (hfresh : state.commands.find? task.attempt.key = none)
    (halone : ∀ other ∈ state.tasks.rows,
      other.attempt.key = task.attempt.key → other.phase ≠ .checking →
        other.party = task.party) :
    (state.claimStep digest task none).Bound digest task.attempt := by
  refine ⟨⟨task.attempt.claimRow digest, ?_,
    task.attempt.wellformed_claimRow digest, rfl, rfl, rfl⟩, ?_⟩
  · have hkey : task.attempt.key =
        (task.attempt.claimRow digest).idempotencyKey := rfl
    refine ((find?_storeCommand _ _ _).trans (if_pos hkey)).trans ?_
    rw [hfresh, elim_none]
  · intro other hother hkey hpast
    rcases (mem_advance_iff state task .executing other).mp hother with
      rfl | ⟨hold, hparty⟩
    · rfl
    · exact absurd (halone other hold hkey hpast) hparty

/-- The answer of a bound record to a command on an actor: the rejection, when
device, kind or digest differ, and never the rejection otherwise. -/
theorem replay_rejects_iff (digest : Json → String) {second : Attempt}
    {row : CommandRow} (hwellformed : row.Wellformed)
    (hdevice : row.deviceId = first.deviceId)
    (hkind : row.commandKind = first.kind)
    (hsha : row.commandSha256 = some (digest first.commandJson))
    {threadId deviceId : String} {request : ThreadCommandRequest}
    (hsecond : second = .actorCommand threadId deviceId request) :
    second.replay digest row = some second.identityConflict ↔
      first.deviceId ≠ second.deviceId ∨ first.kind ≠ second.kind ∨
        digest first.commandJson ≠ digest second.commandJson := by
  have hcompared : (row.deviceId ≠ second.deviceId ∨
      row.commandKind ≠ second.kind ∨
      row.commandSha256.any (· ≠ digest second.commandJson)) ↔
        (first.deviceId ≠ second.deviceId ∨ first.kind ≠ second.kind ∨
          digest first.commandJson ≠ digest second.commandJson) := by
    simp [hdevice, hkind, hsha]
  subst hsecond
  constructor
  · intro hsame
    by_contra hidentity
    have hequal := fun hdiffers => hidentity (hcompared.mp hdiffers)
    simp only [Attempt.deviceId] at hequal
    simp only [Attempt.replay] at hsame
    rw [if_neg hequal] at hsame
    cases hstate : row.state with
    | other text => exact absurd hstate (hwellformed.1 text)
    | processing =>
      simp [hstate, Attempt.stillProcessing, processing,
        Attempt.identityConflict, failed] at hsame
    | completed =>
      simp [hstate, completed, Attempt.identityConflict, failed] at hsame
    | indeterminate =>
      simp [hstate, indeterminate, Attempt.identityConflict, failed] at hsame
    | failed =>
      simp only [hstate, Attempt.identityConflict, failed,
        some.injEq, ThreadCommandResult.mk.injEq] at hsame
      exact hwellformed.2 _ hsame.2.2.2 rfl
  · intro hidentity
    exact if_pos (hcompared.mpr hidentity)

/-- A command is recorded under a fresh key; then, after anything at all has
gone on but a failed read, a second command under the key is checked on an
actor.  It is answered at once from the record, and it is rejected exactly when
it differs from the first in device, kind or payload digest.  The threads of
the two do not matter. -/
theorem second_command_rejected_iff (digest : Json → String)
    {before claimed now next : CommandSystem} {task later : CommandTask}
    {actions : List Action} {threadId deviceId : String}
    {request : ThreadCommandRequest}
    (htask : before.taskIn task.party .claiming = some task)
    (hfresh : before.commands.find? task.attempt.key = none)
    (halone : ∀ other ∈ before.tasks.rows,
      other.attempt.key = task.attempt.key → other.phase ≠ .checking →
        other.party = task.party)
    (hclaim : before.step digest (.claim task.party none) = some claimed)
    (run : GuardedRun (step digest) (fun _ => Readable) claimed actions now)
    (hlater : now.taskIn later.party .checking = some later)
    (hsecond : later.attempt = .actorCommand threadId deviceId request)
    (hkey : later.attempt.key = task.attempt.key)
    (hcheck : now.step digest (.check later.party true) = some next) :
    ∃ result row,
      next.answers = now.answers ++
        [⟨later.serial, later.attempt, result, .record row⟩] ∧
      (result = later.attempt.identityConflict ↔
        task.attempt.deviceId ≠ later.attempt.deviceId ∨
          task.attempt.kind ≠ later.attempt.kind ∨
          digest task.attempt.commandJson ≠
            digest later.attempt.commandJson) := by
  have hclaimed : claimed = before.claimStep digest task none := by
    simp only [step, htask, map_some, some.injEq] at hclaim
    exact hclaim.symm
  have hbound : now.Bound digest task.attempt := by
    apply bound_run run
    rw [hclaimed]
    exact bound_claim digest hfresh halone
  obtain ⟨row, hrow, hwellformed, hdevice, hkind, hsha⟩ := hbound.record
  obtain ⟨result, hresult⟩ := isSome_iff_exists.mp
    (later.attempt.replay_isSome digest row hwellformed.1)
  have hnext : next = now.answer later result (.record row) := by
    simp only [step, hlater, map_some, some.injEq] at hcheck
    rw [← hcheck, checkStep]
    simp [recordFor, hkey, hrow, hresult]
  refine ⟨result, row, ?_, ?_⟩
  · rw [hnext, answer]
  · have hiff := replay_rejects_iff digest hwellformed hdevice hkind hsha
      hsecond
    rw [hresult, some.injEq] at hiff
    exact hiff

namespace TwoThreads

/-- The digest of `writer.acquire`, the one payload used here. -/
def sha : Json → String := fun _ =>
  "b2ddc83482bfb22a841e60a9430eb2ac" ++
  "f6c05d01162a0f68e14543d115e6f878"

def acquireOn (threadId deviceId : String) : Attempt :=
  .actorCommand threadId deviceId ⟨"key-1", none, none, .writerAcquire⟩

/-- The lease manager grants the lease of the first thread. -/
def granted : CommandOutside where
  lease := none
  answer := .error .notReady
  approval := .ok none
  epoch := 1
  acquire := .ok (.ok (.obj [("leaseId", .str "lease_a")]))
  released := false

def firstActor : Party := .actor 1

def secondActor : Party := .actor 2

/-- The lease of one thread is acquired; then the same key is used for the
lease of another. -/
def crossActions : List Action :=
  [.arrive firstActor (acquireOn "thread-a" "device-1") none,
    .check firstActor true, .claim firstActor none, .execute firstActor granted,
    .settle firstActor true,
    .arrive secondActor (acquireOn "thread-b" "device-1") none,
    .check secondActor true]

/-- The second thread's command is not rejected: it is answered with the lease
of the first thread. -/
theorem second_thread_gets_first_lease :
    ((runActions (step sha) (start .empty) crossActions).map fun state =>
      state.answers.map fun answer => (answer.attempt, answer.result)) =
    some [(acquireOn "thread-a" "device-1",
        accepted "key-1" (.obj [("leaseId", .str "lease_a")])),
      (acquireOn "thread-b" "device-1",
        completed "key-1" (.obj [("leaseId", .str "lease_a")]))] := by
  decide

def checkedActions : List Action :=
  [.arrive firstActor (acquireOn "thread-a" "device-1") none,
    .check firstActor true]

def meanwhile : List Action :=
  [.execute firstActor granted,
    .arrive secondActor (acquireOn "thread-b" "device-2") none]

def firstTask : CommandTask :=
  ⟨firstActor, 0, acquireOn "thread-a" "device-1", .claiming⟩

def secondTask : CommandTask :=
  ⟨secondActor, 1, acquireOn "thread-b" "device-2", .checking⟩

/-- From another device the second command is rejected, also while the first
is still in flight. -/
theorem other_device_rejected :
    ∃ (now next : CommandSystem) (result : ThreadCommandResult)
      (row : CommandRow),
      next.answers = now.answers ++
        [⟨1, secondTask.attempt, result, .record row⟩] ∧
      result = secondTask.attempt.identityConflict := by
  have hbefore : (runActions (step sha) (start .empty) checkedActions).map
      (fun state => (state.tasks.rows, state.commands.rows)) =
        some ([firstTask], []) := by decide
  obtain ⟨before, hrun, hpair⟩ := map_eq_some_iff.mp hbefore
  obtain ⟨htasks, hcommands⟩ := Prod.mk.inj hpair
  have hfind : before.taskIn firstTask.party .claiming = some firstTask := by
    simp [taskIn, KeyedTable.find?, htasks, firstTask]
  have hfresh : before.commands.find? firstTask.attempt.key = none := by
    simp [KeyedTable.find?, hcommands]
  have halone : ∀ other ∈ before.tasks.rows,
      other.attempt.key = firstTask.attempt.key → other.phase ≠ .checking →
        other.party = firstTask.party := by
    intro other hother _ _
    rw [htasks] at hother
    rw [List.mem_singleton.mp hother]
  have hwhole : ((runActions (step sha) (start .empty) checkedActions).bind
      fun before => (before.step sha (.claim firstActor none)).bind fun claimed =>
        (runGuarded (step sha) (fun _ action => match action with
          | .check _ readable => readable
          | _ => true) claimed meanwhile).bind fun now =>
            (now.step sha (.check secondActor true)).map fun _ =>
              now.taskIn secondActor .checking) = some (some secondTask) := by
    decide
  rw [hrun, bind_some] at hwhole
  obtain ⟨claimed, hclaim, hwhole⟩ := bind_eq_some_iff.mp hwhole
  obtain ⟨now, hnow, hwhole⟩ := bind_eq_some_iff.mp hwhole
  obtain ⟨next, hcheck, hlater⟩ := map_eq_some_iff.mp hwhole
  have run : GuardedRun (step sha) (fun _ => Readable) claimed meanwhile now := by
    apply guardedRun_of_runGuarded _ hnow
    intro _ action hreadable
    cases action with
    | check party readable => exact hreadable
    | arrive | claim | execute | settle | restart => trivial
  have hkey : secondTask.attempt.key = firstTask.attempt.key := rfl
  obtain ⟨result, row, hanswers, hiff⟩ := second_command_rejected_iff sha hfind
    hfresh halone hclaim run hlater rfl hkey hcheck
  exact ⟨now, next, result, row, hanswers, hiff.mpr (Or.inl (by decide))⟩

end TwoThreads

end CommandSystem

end Vellum.Broker

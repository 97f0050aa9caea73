/-
At most one execution for each idempotency key.  The read of the record and the
claim are separate steps, so this holds on the schedules in which nobody reads
the record of a key while somebody else is about to claim it.
-/
import Vellum.Broker.CommandSystem

namespace Vellum.Broker

open List Option

namespace CommandSystem

/-- The attempt `serial` is not, or will not be, answered from the record of
the key: it is past its check, has made a call, or was answered otherwise. -/
inductive Owns (state : CommandSystem) (key : String) : Nat → Prop
  | task {task : CommandTask} (hmem : task ∈ state.tasks.rows)
      (hkey : task.attempt.key = key) (hphase : task.phase ≠ .checking) :
      Owns state key task.serial
  | call {call : IssuedCall} (hmem : call ∈ state.issued)
      (hkey : call.attempt.key = key) : Owns state key call.serial
  | answer {answer : Answer} (hmem : answer ∈ state.answers)
      (hkey : answer.attempt.key = key)
      (horigin : ∀ row, answer.origin ≠ .record row) :
      Owns state key answer.serial

/-- The key has a record in one of the four states the broker writes. -/
def Recorded (state : CommandSystem) (key : String) : Prop :=
  ∃ row, state.commands.find? key = some row ∧
    ∀ text, row.state ≠ .other text

/-- What ordered schedules keep.  A key has one owner, whose claim is recorded
unless it is just about to be written; no attempt calls twice. -/
structure Exclusive (digest : Json → String) (state : CommandSystem) :
    Prop where
  single : ∀ key first second, state.Owns key first → state.Owns key second →
    first = second
  held : ∀ key serial, state.Owns key serial →
    state.Recorded key ∨
      ∃ task ∈ state.tasks.rows, task.attempt.key = key ∧
        task.phase = .claiming
  distinct : ∀ task ∈ state.tasks.rows, ∀ other ∈ state.tasks.rows,
    task.serial = other.serial → task = other
  unissued : ∀ task ∈ state.tasks.rows,
    (∀ outside, task.phase ≠ .settling outside) →
      ∀ call ∈ state.issued, call.serial ≠ task.serial
  once : (state.issued.map IssuedCall.serial).Nodup
  taskArrived : ∀ task ∈ state.tasks.rows, task.serial < state.arrivals
  callArrived : ∀ call ∈ state.issued, call.serial < state.arrivals
  replayed : ∀ answer ∈ state.answers, ∀ row, answer.origin = .record row →
    row.idempotencyKey = answer.attempt.key ∧
      answer.attempt.replay digest row = some answer.result

theorem exclusive_start (digest : Json → String) (commands : CommandTable) :
    (start commands).Exclusive digest where
  single _ _ _ howns := by
    rcases howns with ⟨hmem, -, -⟩ | ⟨hmem, -⟩ | ⟨hmem, -, -⟩ <;>
      exact absurd hmem not_mem_nil
  held _ _ howns := by
    rcases howns with ⟨hmem, -, -⟩ | ⟨hmem, -⟩ | ⟨hmem, -, -⟩ <;>
      exact absurd hmem not_mem_nil
  distinct _ hmem := absurd hmem not_mem_nil
  unissued _ hmem := absurd hmem not_mem_nil
  once := nodup_nil
  taskArrived _ hmem := absurd hmem not_mem_nil
  callArrived _ hmem := absurd hmem not_mem_nil
  replayed _ hmem := absurd hmem not_mem_nil

/-- The ordered schedules: attempts that reach the record, reads and claims
that work, no restart, and no read of a record while another task is about to
claim the key. -/
def Ordered (state : CommandSystem) : Action → Prop
  | .arrive _ attempt workspace => attempt.refusal workspace = none
  | .check party readable =>
    readable ∧ ∀ task ∈ state.tasks.rows, task.party = party →
      ∀ other ∈ state.tasks.rows, other.phase = .claiming →
        other.attempt.key ≠ task.attempt.key
  | .claim _ fault => fault = none
  | .restart => False
  | _ => True

variable {digest : Json → String} {state next : CommandSystem}
  {task : CommandTask}

theorem recorded_storeCommand {key : String} (hrecorded : state.Recorded key)
    {row : CommandRow} (hstate : ∀ text, row.state ≠ .other text)
    (next : CommandSystem)
    (hcommands : next.commands = storeCommand state.commands row) :
    next.Recorded key := by
  obtain ⟨old, hold, hknown⟩ := hrecorded
  rw [Recorded, hcommands, find?_storeCommand]
  by_cases hkey : key = row.idempotencyKey
  · rw [if_pos hkey, hold]
    exact ⟨_, rfl, hstate⟩
  · rw [if_neg hkey]
    exact ⟨old, hold, hknown⟩

theorem recorded_claim (digest : Json → String) (state : CommandSystem)
    (task : CommandTask) :
    (state.claimStep digest task none).Recorded task.attempt.key := by
  have hkey : task.attempt.key = (task.attempt.claimRow digest).idempotencyKey :=
    rfl
  refine ⟨_, (find?_storeCommand _ _ _).trans (if_pos hkey), ?_⟩
  intro text
  cases state.commands.find? task.attempt.key <;>
    simp [CommandRow.settle, Attempt.claimRow]

section

variable (hexcl : state.Exclusive digest)
include hexcl

/-- The laws about owners carry over when a step brings no new owner, loses no
record and leaves a claiming task claiming or recorded. -/
theorem Exclusive.of_owners
    (howns : ∀ key serial, next.Owns key serial → state.Owns key serial)
    (hrecorded : ∀ key, state.Recorded key → next.Recorded key)
    (hclaiming : ∀ task ∈ state.tasks.rows, task.phase = .claiming →
      next.Recorded task.attempt.key ∨ task ∈ next.tasks.rows)
    (hdistinct : ∀ task ∈ next.tasks.rows, ∀ other ∈ next.tasks.rows,
      task.serial = other.serial → task = other)
    (hunissued : ∀ task ∈ next.tasks.rows,
      (∀ outside, task.phase ≠ .settling outside) →
        ∀ call ∈ next.issued, call.serial ≠ task.serial)
    (honce : (next.issued.map IssuedCall.serial).Nodup)
    (htaskArrived : ∀ task ∈ next.tasks.rows, task.serial < next.arrivals)
    (hcallArrived : ∀ call ∈ next.issued, call.serial < next.arrivals)
    (hreplayed : ∀ answer ∈ next.answers, ∀ row, answer.origin = .record row →
      row.idempotencyKey = answer.attempt.key ∧
        answer.attempt.replay digest row = some answer.result) :
    next.Exclusive digest := by
  refine ⟨?_, ?_, hdistinct, hunissued, honce, htaskArrived, hcallArrived,
    hreplayed⟩
  · intro key first second hfirst hsecond
    exact hexcl.single key first second (howns _ _ hfirst) (howns _ _ hsecond)
  · intro key serial hown
    rcases hexcl.held key serial (howns _ _ hown) with hrec | hclaim
    · exact Or.inl (hrecorded key hrec)
    · obtain ⟨task, hmem, rfl, hphase⟩ := hclaim
      rcases hclaiming task hmem hphase with hrec | hkept
      · exact Or.inl hrec
      · exact Or.inr ⟨task, hkept, rfl, hphase⟩

/-- A task that only changes its phase keeps its number to itself. -/
theorem Exclusive.distinct_advance (htask : task ∈ state.tasks.rows)
    (phase : Phase) :
    ∀ first ∈ (state.advance task phase).tasks.rows,
      ∀ second ∈ (state.advance task phase).tasks.rows,
        first.serial = second.serial → first = second := by
  have hother : ∀ other ∈ state.tasks.rows, other.party ≠ task.party →
      other.serial ≠ task.serial := by
    intro other hmem hparty hserial
    rw [hexcl.distinct other hmem task htask hserial] at hparty
    exact hparty rfl
  intro first hfirst second hsecond hserial
  rcases (mem_advance_iff _ _ _ _).mp hfirst with rfl | ⟨hmem, hparty⟩ <;>
    rcases (mem_advance_iff _ _ _ _).mp hsecond with rfl | ⟨hmem', hparty'⟩
  · rfl
  · exact absurd hserial.symm (hother second hmem' hparty')
  · exact absurd hserial (hother first hmem hparty)
  · exact hexcl.distinct first hmem second hmem' hserial

theorem Exclusive.taskArrived_advance (htask : task ∈ state.tasks.rows)
    (phase : Phase) :
    ∀ other ∈ (state.advance task phase).tasks.rows,
      other.serial < state.arrivals := by
  intro other hother
  rcases (mem_advance_iff _ _ _ _).mp hother with rfl | ⟨hmem, -⟩
  · exact hexcl.taskArrived task htask
  · exact hexcl.taskArrived other hmem

theorem exclusive_arrive {party : Party} {attempt : Attempt}
    {workspace : Option RemoteError} (hidle : state.tasks.find? party = none)
    (hadmitted : attempt.refusal workspace = none) :
    (state.arriveStep party attempt workspace).Exclusive digest := by
  have hfree := (state.tasks.find?_eq_none_iff party).mp hidle
  simp only [arriveStep, hadmitted]
  have hmem : ∀ task, task ∈ (state.tasks.put
      ⟨party, state.arrivals, attempt, .checking⟩).rows ↔
        task = ⟨party, state.arrivals, attempt, .checking⟩ ∨
          task ∈ state.tasks.rows ∧ task.party ≠ party :=
    fun task => KeyedTable.mem_put_iff _ _ task
  refine hexcl.of_owners ?_ (fun _ hrecorded => hrecorded) ?_ ?_ ?_ hexcl.once
    ?_ ?_ hexcl.replayed
  · intro key serial hown
    cases hown with
    | task htask hkey hphase =>
      rcases (hmem _).mp htask with rfl | ⟨hold, -⟩
      · exact absurd rfl hphase
      · exact Owns.task hold hkey hphase
    | call hcall hkey => exact Owns.call hcall hkey
    | answer hanswer hkey horigin => exact Owns.answer hanswer hkey horigin
  · intro task htask _
    exact Or.inr ((hmem task).mpr (Or.inr ⟨htask, hfree task htask⟩))
  · intro first hfirst second hsecond hserial
    rcases (hmem first).mp hfirst with rfl | ⟨hold, -⟩ <;>
      rcases (hmem second).mp hsecond with rfl | ⟨hold', -⟩
    · rfl
    · exact absurd hserial.symm (Nat.ne_of_lt (hexcl.taskArrived second hold'))
    · exact absurd hserial (Nat.ne_of_lt (hexcl.taskArrived first hold))
    · exact hexcl.distinct first hold second hold' hserial
  · intro task htask hphase call hcall
    rcases (hmem task).mp htask with rfl | ⟨hold, -⟩
    · exact Nat.ne_of_lt (hexcl.callArrived call hcall)
    · exact hexcl.unissued task hold hphase call hcall
  · intro task htask
    rcases (hmem task).mp htask with rfl | ⟨hold, -⟩
    · exact Nat.lt_succ_self _
    · exact Nat.lt_succ_of_lt (hexcl.taskArrived task hold)
  · intro call hcall
    exact Nat.lt_succ_of_lt (hexcl.callArrived call hcall)

section

variable (htask : task ∈ state.tasks.rows)
include htask

theorem exclusive_answered (hclaiming : task.phase ≠ .claiming)
    (result : ThreadCommandResult) (origin : Origin) (commands : CommandTable)
    (hrecorded : ∀ key, state.Recorded key →
      ({ state with commands } : CommandSystem).Recorded key)
    (howner : (∀ row, origin ≠ .record row) → task.phase ≠ .checking)
    (hreplay : ∀ row, origin = .record row →
      row.idempotencyKey = task.attempt.key ∧
        task.attempt.replay digest row = some result) :
    ({ state.answer task result origin with commands } :
      CommandSystem).Exclusive digest := by
  have hmem := mem_answer_iff state task result origin
  refine hexcl.of_owners ?_ hrecorded ?_ ?_ ?_ hexcl.once ?_ hexcl.callArrived
    ?_
  · intro key serial hown
    cases hown with
    | task hother hkey hphase =>
      exact Owns.task ((hmem _).mp hother).1 hkey hphase
    | call hcall hkey => exact Owns.call hcall hkey
    | answer hanswer hkey horigin =>
      rcases mem_append.mp hanswer with hold | hnew
      · exact Owns.answer hold hkey horigin
      · rw [mem_singleton.mp hnew] at hkey horigin ⊢
        exact Owns.task htask hkey (howner horigin)
  · intro other hother hphase
    refine Or.inr ((hmem other).mpr ⟨hother, fun hparty => ?_⟩)
    rw [state.tasks.eq_of_mem hother htask hparty] at hphase
    exact hclaiming hphase
  · intro first hfirst second hsecond hserial
    exact hexcl.distinct first ((hmem first).mp hfirst).1 second
      ((hmem second).mp hsecond).1 hserial
  · intro other hother
    exact hexcl.unissued other ((hmem other).mp hother).1
  · intro other hother
    exact hexcl.taskArrived other ((hmem other).mp hother).1
  · intro answer hanswer found horigin
    rcases mem_append.mp hanswer with hold | hnew
    · exact hexcl.replayed answer hold found horigin
    · rw [mem_singleton.mp hnew] at horigin ⊢
      exact hreplay found horigin

/-- An attempt that finds no record becomes the owner of its key: nobody is
claiming it, and a recorded owner would have been found. -/
theorem exclusive_missed (hchecking : task.phase = .checking)
    (hnone : state.recordFor digest task.attempt true = none)
    (halone : ∀ other ∈ state.tasks.rows, other.phase = .claiming →
      other.attempt.key ≠ task.attempt.key) :
    (state.advance task .claiming).Exclusive digest := by
  have hmem := mem_advance_iff state task .claiming
  have hunowned : ∀ serial, ¬ state.Owns task.attempt.key serial := by
    intro serial hown
    rcases hexcl.held _ serial hown with ⟨row, hrow, hknown⟩ | hclaim
    · have hsome := task.attempt.replay_isSome digest row hknown
      obtain ⟨result, hresult⟩ := isSome_iff_exists.mp hsome
      simp [recordFor, hrow, hresult] at hnone
    · obtain ⟨other, hother, hkey, hphase⟩ := hclaim
      exact halone other hother hphase hkey
  have howns : ∀ key serial, (state.advance task .claiming).Owns key serial →
      state.Owns key serial ∨ key = task.attempt.key ∧ serial = task.serial := by
    intro key serial hown
    cases hown with
    | task hother hkey hphase =>
      rcases (hmem _).mp hother with rfl | ⟨hold, -⟩
      · exact Or.inr ⟨hkey.symm, rfl⟩
      · exact Or.inl (Owns.task hold hkey hphase)
    | call hcall hkey => exact Or.inl (Owns.call hcall hkey)
    | answer hanswer hkey horigin =>
      exact Or.inl (Owns.answer hanswer hkey horigin)
  refine ⟨?_, ?_, hexcl.distinct_advance htask .claiming, ?_, hexcl.once,
    hexcl.taskArrived_advance htask .claiming, hexcl.callArrived,
    hexcl.replayed⟩
  · intro key first second hfirst hsecond
    by_cases hkey : key = task.attempt.key
    · subst hkey
      have hnew : ∀ serial, (state.advance task .claiming).Owns
          task.attempt.key serial → serial = task.serial := by
        intro serial hown
        rcases howns _ serial hown with hold | ⟨-, hserial⟩
        · exact absurd hold (hunowned serial)
        · exact hserial
      rw [hnew first hfirst, hnew second hsecond]
    · have hold : ∀ serial, (state.advance task .claiming).Owns key serial →
          state.Owns key serial :=
        fun serial hown => (howns key serial hown).resolve_right
          fun hsame => hkey hsame.1
      exact hexcl.single key first second (hold first hfirst)
        (hold second hsecond)
  · intro key serial hown
    rcases howns key serial hown with hold | ⟨rfl, -⟩
    · rcases hexcl.held key serial hold with hrec | hclaim
      · exact Or.inl hrec
      · obtain ⟨other, hother, hkey, hphase⟩ := hclaim
        refine Or.inr ⟨other, (hmem other).mpr (Or.inr ⟨hother, ?_⟩), hkey,
          hphase⟩
        intro hparty
        rw [state.tasks.eq_of_mem hother htask hparty, hchecking] at hphase
        cases hphase
    · exact Or.inr ⟨_, (hmem _).mpr (Or.inl rfl), rfl, rfl⟩
  · intro other hother hphase call hcall
    rcases (hmem other).mp hother with rfl | ⟨hold, -⟩
    · exact hexcl.unissued task htask (by simp [hchecking]) call hcall
    · exact hexcl.unissued other hold hphase call hcall

theorem exclusive_claim (hclaiming : task.phase = .claiming) :
    (state.claimStep digest task none).Exclusive digest := by
  have hmem := mem_advance_iff state task .executing
  have hself : state.Owns task.attempt.key task.serial :=
    Owns.task htask rfl (by simp [hclaiming])
  refine hexcl.of_owners ?_ ?_ ?_ (hexcl.distinct_advance htask .executing) ?_
    hexcl.once (hexcl.taskArrived_advance htask .executing) hexcl.callArrived
    hexcl.replayed
  · intro key serial hown
    cases hown with
    | task hother hkey hphase =>
      rcases (hmem _).mp hother with rfl | ⟨hold, -⟩
      · subst hkey
        exact hself
      · exact Owns.task hold hkey hphase
    | call hcall hkey => exact Owns.call hcall hkey
    | answer hanswer hkey horigin => exact Owns.answer hanswer hkey horigin
  · intro key hrecorded
    exact recorded_storeCommand hrecorded
      (fun _ hstate => CommandState.noConfusion hstate) _ rfl
  · intro other hother _
    by_cases hparty : other.party = task.party
    · rw [state.tasks.eq_of_mem hother htask hparty]
      exact Or.inl (recorded_claim digest state task)
    · exact Or.inr ((hmem other).mpr (Or.inr ⟨hother, hparty⟩))
  · intro other hother hphase call hcall
    rcases (hmem other).mp hother with rfl | ⟨hold, -⟩
    · exact hexcl.unissued task htask (by simp [hclaiming]) call hcall
    · exact hexcl.unissued other hold hphase call hcall

/-- The one call of an attempt. -/
theorem exclusive_execute (hexecuting : task.phase = .executing)
    (outside : CommandOutside) :
    (state.executeStep task outside).Exclusive digest := by
  have hmem := mem_advance_iff state task (.settling outside)
  have hself : state.Owns task.attempt.key task.serial :=
    Owns.task htask rfl (by simp [hexecuting])
  have hcalls : ∀ call ∈ (state.executeStep task outside).issued,
      call ∈ state.issued ∨
        call.serial = task.serial ∧ call.attempt = task.attempt := by
    intro call hcall
    rcases mem_append.mp hcall with hold | hnew
    · exact Or.inl hold
    · rw [mem_toList] at hnew
      obtain ⟨made, -, rfl⟩ := map_eq_some_iff.mp hnew
      exact Or.inr ⟨rfl, rfl⟩
  have hfresh := hexcl.unissued task htask (by simp [hexecuting])
  refine hexcl.of_owners ?_ (fun _ hrecorded => hrecorded) ?_
    (hexcl.distinct_advance htask _) ?_ ?_ (hexcl.taskArrived_advance htask _)
    ?_ hexcl.replayed
  · intro key serial hown
    cases hown with
    | task hother hkey hphase =>
      rcases (hmem _).mp hother with rfl | ⟨hold, -⟩
      · subst hkey
        exact hself
      · exact Owns.task hold hkey hphase
    | call hcall hkey =>
      rcases hcalls _ hcall with hold | ⟨hserial, hattempt⟩
      · exact Owns.call hold hkey
      · rw [hattempt] at hkey
        subst hkey
        rw [hserial]
        exact hself
    | answer hanswer hkey horigin => exact Owns.answer hanswer hkey horigin
  · intro other hother hphase
    refine Or.inr ((hmem other).mpr (Or.inr ⟨hother, fun hparty => ?_⟩))
    rw [state.tasks.eq_of_mem hother htask hparty, hexecuting] at hphase
    cases hphase
  · intro other hother hphase call hcall
    rcases (hmem other).mp hother with rfl | ⟨hold, hparty⟩
    · exact absurd rfl (hphase outside)
    · rcases hcalls call hcall with hcallOld | ⟨hserial, -⟩
      · exact hexcl.unissued other hold hphase call hcallOld
      · intro hsame
        rw [hserial] at hsame
        rw [hexcl.distinct task htask other hold hsame] at hparty
        exact hparty rfl
  · rw [executeStep, map_append, nodup_append]
    refine ⟨hexcl.once, ?_, ?_⟩
    · cases (task.attempt.execute outside).call <;> simp
    · intro old hold new hnew hsame
      obtain ⟨call, hcall, rfl⟩ := List.mem_map.mp hold
      rw [List.mem_map] at hnew
      obtain ⟨made, hmade, rfl⟩ := hnew
      rw [mem_toList] at hmade
      obtain ⟨_, -, rfl⟩ := map_eq_some_iff.mp hmade
      exact hfresh call hcall hsame
  · intro call hcall
    rcases hcalls call hcall with hold | ⟨hserial, -⟩
    · exact hexcl.callArrived call hold
    · rw [hserial]
      exact hexcl.taskArrived task htask

theorem exclusive_settle {outside : CommandOutside}
    (hsettling : task.phase = .settling outside) (written : Bool) :
    (state.settleStep digest task outside written).Exclusive digest := by
  apply exclusive_answered hexcl htask (by simp [hsettling])
  · intro key hrecorded
    cases written with
    | false => exact hrecorded
    | true =>
      exact recorded_storeCommand hrecorded
        (task.attempt.wellformed_settledRow digest outside).1.1 _ rfl
  · exact fun _ => by simp [hsettling]
  · rintro row ⟨⟩

end

theorem exclusive_step {action : Action} (hok : state.Ordered action)
    (hstep : state.step digest action = some next) : next.Exclusive digest := by
  rcases step_cases hstep with
    ⟨party, attempt, workspace, rfl, hidle, rfl⟩ |
    ⟨task, readable, rfl, htask, hphase, rfl⟩ |
    ⟨task, fault, rfl, htask, hphase, rfl⟩ |
    ⟨task, outside, rfl, htask, hphase, rfl⟩ |
    ⟨task, outside, written, rfl, htask, hphase, rfl⟩ | ⟨rfl, rfl⟩
  · exact exclusive_arrive hexcl hidle hok
  · obtain ⟨rfl, halone⟩ := hok
    rw [checkStep]
    split
    · rename_i row result hrecord
      obtain ⟨found, hfind, hreplay⟩ := bind_eq_some_iff.mp hrecord
      obtain ⟨answered, hanswered, hpair⟩ := map_eq_some_iff.mp hreplay
      rw [Prod.mk.injEq] at hpair
      obtain ⟨rfl, rfl⟩ := hpair
      apply exclusive_answered hexcl htask (by simp [hphase])
      · exact fun _ hrecorded => hrecorded
      · exact fun horigin => absurd rfl (horigin found)
      · rintro _ ⟨⟩
        exact ⟨KeyedTable.key_of_find? hfind, hanswered⟩
    · rename_i hnone
      exact exclusive_missed hexcl htask hphase hnone (halone task htask rfl)
  · rw [show fault = none from hok]
    exact exclusive_claim hexcl htask hphase
  · exact exclusive_execute hexcl htask hphase outside
  · exact exclusive_settle hexcl htask hphase written
  · exact absurd hok id

end

theorem exclusive_run {actions : List Action}
    (run : GuardedRun (step digest) Ordered state actions next)
    (hexcl : state.Exclusive digest) : next.Exclusive digest := by
  induction run with
  | nil => exact hexcl
  | snoc run hok hstep ih => exact exclusive_step ih hok hstep

theorem length_le_one_of_same {calls : List IssuedCall} {owner : Nat}
    (hnodup : (calls.map IssuedCall.serial).Nodup)
    (hsame : ∀ call ∈ calls, call.serial = owner) : calls.length ≤ 1 := by
  match calls with
  | [] => exact Nat.zero_le 1
  | [_] => exact Nat.le_refl 1
  | first :: second :: rest =>
    have hfirst := hsame first (by simp)
    have hsecond := hsame second (by simp)
    simp [hfirst, hsecond] at hnodup

/-- On every ordered schedule, from whatever table, at most one call is issued
for a key; the attempt that may make it is one and the same throughout, and
every other attempt that is answered is answered from the stored record. -/
theorem command_executed_at_most_once (digest : Json → String)
    {commands : CommandTable} {actions : List Action} {finish : CommandSystem}
    (run : GuardedRun (step digest) Ordered (start commands) actions finish)
    (key : String) :
    (finish.issued.filter fun call => call.attempt.key = key).length ≤ 1 ∧
      ∃ owner, (∀ call ∈ finish.issued, call.attempt.key = key →
          call.serial = owner) ∧
        ∀ answer ∈ finish.answers, answer.attempt.key = key →
          answer.serial = owner ∨
            ∃ row, answer.origin = .record row ∧ row.idempotencyKey = key ∧
              answer.attempt.replay digest row = some answer.result := by
  have hexcl := exclusive_run run (exclusive_start digest commands)
  have hreplayed : ∀ answer ∈ finish.answers, answer.attempt.key = key →
      finish.Owns key answer.serial ∨
        ∃ row, answer.origin = .record row ∧ row.idempotencyKey = key ∧
          answer.attempt.replay digest row = some answer.result := by
    intro answer hanswer hkey
    by_cases hrecord : ∃ row, answer.origin = .record row
    · obtain ⟨row, horigin⟩ := hrecord
      obtain ⟨hrow, hresult⟩ := hexcl.replayed answer hanswer row horigin
      exact Or.inr ⟨row, horigin, hrow.trans hkey, hresult⟩
    · exact Or.inl (Owns.answer hanswer hkey
        fun row horigin => hrecord ⟨row, horigin⟩)
  have howner : ∃ owner, ∀ serial, finish.Owns key serial → serial = owner := by
    by_cases hany : ∃ owner, finish.Owns key owner
    · obtain ⟨owner, hown⟩ := hany
      exact ⟨owner, fun serial hserial =>
        hexcl.single key serial owner hserial hown⟩
    · exact ⟨0, fun serial hserial => absurd ⟨serial, hserial⟩ hany⟩
  obtain ⟨owner, hsame⟩ := howner
  refine ⟨?_, owner, ?_, ?_⟩
  · apply length_le_one_of_same
    · exact (filter_sublist.map _).nodup hexcl.once
    · intro call hcall
      obtain ⟨hmem, hkey⟩ := mem_filter.mp hcall
      exact hsame _ (Owns.call hmem (of_decide_eq_true hkey))
  · intro call hcall hkey
    exact hsame _ (Owns.call hcall hkey)
  · intro answer hanswer hkey
    exact (hreplayed answer hanswer hkey).imp_left (hsame _)

/-- Whether the step keeps the schedule ordered, decided. -/
def orderedCheck (state : CommandSystem) : Action → Bool
  | .arrive _ attempt workspace => (attempt.refusal workspace).isNone
  | .check party readable =>
    readable && state.tasks.rows.all fun task => task.party ≠ party ||
      state.tasks.rows.all fun other => other.phase ≠ .claiming ||
        other.attempt.key ≠ task.attempt.key
  | .claim _ fault => fault.isNone
  | .restart => false
  | _ => true

theorem ordered_of_check (state : CommandSystem) (action : Action)
    (hcheck : state.orderedCheck action = true) : state.Ordered action := by
  cases action with
  | arrive party attempt workspace =>
    exact isNone_iff_eq_none.mp hcheck
  | check party readable =>
    simp only [orderedCheck, Bool.and_eq_true, List.all_eq_true,
      Bool.or_eq_true, decide_eq_true_eq] at hcheck
    refine ⟨hcheck.1, ?_⟩
    intro task htask hparty other hother hphase
    have hall := (hcheck.2 task htask).resolve_left (not_not.mpr hparty)
    exact (hall other hother).resolve_left (not_not.mpr hphase)
  | claim party fault => exact isNone_iff_eq_none.mp hcheck
  | execute | settle => trivial
  | restart => cases hcheck

namespace TwoConnections

def attempt : Attempt := .threadStart "device-1" "key-1" "/work" none none

/-- The digest of the one payload used here. -/
def sha : Json → String := fun _ =>
  "b80dbaee44d7b7f9a4d128638e765a00" ++
  "a3e0759c40ecc4ae40acd84354dba615"

/-- The upstream creates a thread. -/
def outside : CommandOutside where
  lease := none
  answer := .ok (.obj [("thread", .obj [("id", .str "thread-1")])])
  approval := .ok none
  epoch := 1
  acquire := .ok (.ok .null)
  released := false

def first : Party := .connection 1

def second : Party := .connection 2

/-- The same request on two connections; both read before either claims. -/
def raceActions : List Action :=
  [.arrive first attempt none, .arrive second attempt none, .check first true,
    .check second true, .claim first none, .claim second none,
    .execute first outside, .execute second outside]

/-- Two threads are started for one key, device and payload. -/
theorem race_starts_two_threads :
    ((runActions (step sha) (start .empty) raceActions).map fun state =>
      state.issued.map fun call => (call.attempt, call.call)) =
    some [(attempt, .call "thread/start" (.obj [("cwd", .str "/work")])),
      (attempt, .call "thread/start" (.obj [("cwd", .str "/work")]))] := by
  decide

/-- The second connection reads after the first has claimed. -/
def orderedActions : List Action :=
  [.arrive first attempt none, .arrive second attempt none, .check first true,
    .claim first none, .check second true, .execute first outside,
    .settle first true, .arrive second attempt none, .check second true]

theorem ordered_starts_one_thread :
    ∃ finish,
      GuardedRun (step sha) Ordered (start .empty) orderedActions finish ∧
      finish.answers.length = 3 ∧ finish.issued.length = 1 ∧
      (finish.issued.filter fun call => call.attempt.key = "key-1").length ≤ 1 ∧
      ∃ owner, (∀ call ∈ finish.issued, call.attempt.key = "key-1" →
          call.serial = owner) ∧
        ∀ answer ∈ finish.answers, answer.attempt.key = "key-1" →
          answer.serial = owner ∨
            ∃ row, answer.origin = .record row ∧
              row.idempotencyKey = "key-1" ∧
              answer.attempt.replay sha row = some answer.result := by
  have hlengths : (runGuarded (step sha) orderedCheck (start .empty)
      orderedActions).map (fun state =>
        (state.answers.length, state.issued.length)) = some (3, 1) := by
    decide
  obtain ⟨finish, hrun, hpair⟩ := map_eq_some_iff.mp hlengths
  rw [Prod.mk.injEq] at hpair
  have run := guardedRun_of_runGuarded ordered_of_check hrun
  exact ⟨finish, run, hpair.1, hpair.2,
    command_executed_at_most_once sha run "key-1"⟩

end TwoConnections

end CommandSystem

end Vellum.Broker

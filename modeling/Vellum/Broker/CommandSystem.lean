/-
Commands in flight.  Connections and actors run side by side over one command
table; the read of the record, the claim, the upstream call and the final write
of a command are separate steps, and a restart may come between any two.
-/
import Vellum.Broker.HandleCommand

namespace Vellum.Broker

open Option

/-- What handles a command: a client connection for `thread.start`, an actor
for everything else.  Each handles one command at a time. -/
inductive Party where
  | connection (id : Nat)
  | actor (id : Nat)
deriving DecidableEq

def Party.runs : Party → Attempt → Bool
  | .connection _, .threadStart .. => true
  | .actor _, .actorCommand .. => true
  | _, _ => false

/-- What a task does next; one that settles has its answers from outside. -/
inductive Phase where
  | checking
  | claiming
  | executing
  | settling (outside : CommandOutside)
deriving DecidableEq

structure CommandTask where
  party : Party
  serial : Nat
  attempt : Attempt
  phase : Phase
deriving DecidableEq

/-- Where an answer came from. -/
inductive Origin where
  | refused
  | record (row : CommandRow)
  | unclaimed
  | executed

structure Answer where
  serial : Nat
  attempt : Attempt
  result : ThreadCommandResult
  origin : Origin

structure IssuedCall where
  serial : Nat
  attempt : Attempt
  call : UpstreamCall

/-- The command table, the tasks in flight, and the logs of upstream calls and
of answers.  Attempts are numbered as they arrive. -/
structure CommandSystem where
  commands : CommandTable
  tasks : KeyedTable CommandTask.party
  arrivals : Nat
  issued : List IssuedCall
  answers : List Answer

namespace CommandSystem

def start (commands : CommandTable) : CommandSystem :=
  ⟨commands, .empty, 0, [], []⟩

/-- One atomic step.  Reads and writes of the table carry whether they
succeed; `execute` carries what the rest of the world answers. -/
inductive Action where
  | arrive (party : Party) (attempt : Attempt) (workspace : Option RemoteError)
  | check (party : Party) (readable : Bool)
  | claim (party : Party) (fault : Option StoreError)
  | execute (party : Party) (outside : CommandOutside)
  | settle (party : Party) (written : Bool)
  | restart

variable (digest : Json → String) (state : CommandSystem)

variable (task : CommandTask) (outside : CommandOutside)

/-- The task ends with an answer. -/
def answer (result : ThreadCommandResult) (origin : Origin) : CommandSystem :=
  { state with
    tasks := state.tasks.erase task.party
    answers := state.answers ++ [⟨task.serial, task.attempt, result, origin⟩] }

def advance (phase : Phase) : CommandSystem :=
  { state with tasks := state.tasks.put { task with phase := phase } }

def arriveStep (party : Party) (attempt : Attempt)
    (workspace : Option RemoteError) : CommandSystem :=
  match attempt.refusal workspace with
  | some result =>
    { state with
      arrivals := state.arrivals + 1
      answers := state.answers ++
        [⟨state.arrivals, attempt, result, .refused⟩] }
  | none =>
    { state with
      arrivals := state.arrivals + 1
      tasks := state.tasks.put ⟨party, state.arrivals, attempt, .checking⟩ }

/-- The record that answers an attempt, with the answer.  A record that cannot
be read counts as none: `if let Ok(Some(..))`. -/
def recordFor (attempt : Attempt) (readable : Bool) :
    Option (CommandRow × ThreadCommandResult) :=
  if readable then
    (state.commands.find? attempt.key).bind fun row =>
      (attempt.replay digest row).map fun result => (row, result)
  else none

def checkStep (readable : Bool) : CommandSystem :=
  match state.recordFor digest task.attempt readable with
  | some (row, result) => state.answer task result (.record row)
  | none => state.advance task .claiming

def claimStep (fault : Option StoreError) : CommandSystem :=
  match fault with
  | some error => state.answer task (task.attempt.unclaimed error) .unclaimed
  | none =>
    { state.advance task .executing with
      commands := storeCommand state.commands (task.attempt.claimRow digest) }

def executeStep : CommandSystem :=
  { state.advance task (.settling outside) with
    issued := state.issued ++
      ((task.attempt.execute outside).call.map fun call =>
        ⟨task.serial, task.attempt, call⟩).toList }

def settleStep (written : Bool) : CommandSystem :=
  let executed := task.attempt.execute outside
  { state.answer task executed.result .executed with
    commands :=
      if written then
        storeCommand state.commands (task.attempt.settledRow digest executed)
      else state.commands }

/-- A new broker on the same tables: the tasks are gone, and the commands left
in `processing` are reconciled. -/
def restartStep : CommandSystem :=
  { state with
    commands := reconcileProcessingCommands state.commands
    tasks := .empty }

/-- The task of a party, when it is in the given phase. -/
def taskIn (party : Party) (phase : Phase) : Option CommandTask :=
  (state.tasks.find? party).filter fun task => task.phase = phase

/-- The task of a party that has executed, with the answers it got. -/
def executedTask (party : Party) : Option (CommandTask × CommandOutside) :=
  (state.tasks.find? party).bind fun task =>
    match task.phase with
    | .settling outside => some (task, outside)
    | _ => none

def step : Action → Option CommandSystem
  | .arrive party attempt workspace =>
    if (state.tasks.find? party).isNone && party.runs attempt then
      some (state.arriveStep party attempt workspace)
    else none
  | .check party readable =>
    (state.taskIn party .checking).map fun task =>
      state.checkStep digest task readable
  | .claim party fault =>
    (state.taskIn party .claiming).map fun task =>
      state.claimStep digest task fault
  | .execute party outside =>
    (state.taskIn party .executing).map fun task =>
      state.executeStep task outside
  | .settle party written =>
    (state.executedTask party).map fun (task, outside) =>
      state.settleStep digest task outside written
  | .restart => some state.restartStep

theorem taskIn_eq_some {state : CommandSystem} {party : Party} {phase : Phase}
    {task : CommandTask} (htask : state.taskIn party phase = some task) :
    task ∈ state.tasks.rows ∧ task.party = party ∧ task.phase = phase := by
  obtain ⟨hfind, hphase⟩ := filter_eq_some_iff.mp htask
  obtain ⟨hmem, hparty⟩ := (state.tasks.find?_eq_some_iff _ _).mp hfind
  exact ⟨hmem, hparty, of_decide_eq_true hphase⟩

theorem executedTask_eq_some {state : CommandSystem} {party : Party}
    {task : CommandTask} {outside : CommandOutside}
    (htask : state.executedTask party = some (task, outside)) :
    task ∈ state.tasks.rows ∧ task.party = party ∧
      task.phase = .settling outside := by
  obtain ⟨found, hfind, hphase⟩ := bind_eq_some_iff.mp htask
  obtain ⟨hmem, hparty⟩ := (state.tasks.find?_eq_some_iff _ _).mp hfind
  split at hphase
  · rename_i heq
    simp only [some.injEq, Prod.mk.injEq] at hphase
    obtain ⟨rfl, rfl⟩ := hphase
    exact ⟨hmem, hparty, heq⟩
  · cases hphase

theorem mem_advance_iff (state : CommandSystem) (task : CommandTask)
    (phase : Phase) (other : CommandTask) :
    other ∈ (state.advance task phase).tasks.rows ↔
      other = { task with phase := phase } ∨
        other ∈ state.tasks.rows ∧ other.party ≠ task.party :=
  KeyedTable.mem_put_iff state.tasks { task with phase := phase } other

theorem mem_answer_iff (state : CommandSystem) (task : CommandTask)
    (result : ThreadCommandResult) (origin : Origin) (other : CommandTask) :
    other ∈ (state.answer task result origin).tasks.rows ↔
      other ∈ state.tasks.rows ∧ other.party ≠ task.party :=
  KeyedTable.mem_erase_iff state.tasks task.party other

theorem step_cases {digest : Json → String} {state next : CommandSystem}
    {action : Action} (hstep : state.step digest action = some next) :
    (∃ party attempt workspace, action = .arrive party attempt workspace ∧
      state.tasks.find? party = none ∧
      next = state.arriveStep party attempt workspace) ∨
    (∃ task readable, action = .check task.party readable ∧
      task ∈ state.tasks.rows ∧ task.phase = .checking ∧
      next = state.checkStep digest task readable) ∨
    (∃ task fault, action = .claim task.party fault ∧
      task ∈ state.tasks.rows ∧ task.phase = .claiming ∧
      next = state.claimStep digest task fault) ∨
    (∃ task outside, action = .execute task.party outside ∧
      task ∈ state.tasks.rows ∧ task.phase = .executing ∧
      next = state.executeStep task outside) ∨
    (∃ task outside written, action = .settle task.party written ∧
      task ∈ state.tasks.rows ∧ task.phase = .settling outside ∧
      next = state.settleStep digest task outside written) ∨
    (action = .restart ∧ next = state.restartStep) := by
  cases action with
  | arrive party attempt workspace =>
    rw [step] at hstep
    split at hstep
    · rename_i hidle
      rw [Bool.and_eq_true, isNone_iff_eq_none] at hidle
      exact Or.inl ⟨party, attempt, workspace, rfl, hidle.1,
        (some.inj hstep).symm⟩
    · cases hstep
  | check party readable =>
    obtain ⟨task, htask, rfl⟩ := map_eq_some_iff.mp hstep
    obtain ⟨hmem, rfl, hphase⟩ := taskIn_eq_some htask
    exact Or.inr (Or.inl ⟨task, readable, rfl, hmem, hphase, rfl⟩)
  | claim party fault =>
    obtain ⟨task, htask, rfl⟩ := map_eq_some_iff.mp hstep
    obtain ⟨hmem, rfl, hphase⟩ := taskIn_eq_some htask
    exact Or.inr (Or.inr (Or.inl ⟨task, fault, rfl, hmem, hphase, rfl⟩))
  | execute party outside =>
    obtain ⟨task, htask, rfl⟩ := map_eq_some_iff.mp hstep
    obtain ⟨hmem, rfl, hphase⟩ := taskIn_eq_some htask
    exact Or.inr (Or.inr (Or.inr (Or.inl
      ⟨task, outside, rfl, hmem, hphase, rfl⟩)))
  | settle party written =>
    obtain ⟨⟨task, outside⟩, htask, rfl⟩ := map_eq_some_iff.mp hstep
    obtain ⟨hmem, rfl, hphase⟩ := executedTask_eq_some htask
    exact Or.inr (Or.inr (Or.inr (Or.inr (Or.inl
      ⟨task, outside, written, rfl, hmem, hphase, rfl⟩))))
  | restart =>
    rw [step, some.injEq] at hstep
    exact Or.inr (Or.inr (Or.inr (Or.inr (Or.inr ⟨rfl, hstep.symm⟩))))

end CommandSystem

end Vellum.Broker

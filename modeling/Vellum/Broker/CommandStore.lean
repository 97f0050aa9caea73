/-
The `client_commands` table: one row for each idempotency key, the upsert that
claims and settles a command, and the reconciliation a starting broker runs.
-/
import Vellum.Library.KeyedTable
import Vellum.Broker.CommandRouter

namespace Vellum.Broker

/-- A row of `client_commands`.  A stored error that cannot be read back as a
`RemoteError` is treated by every reader as absent. -/
structure CommandRow where
  idempotencyKey : String
  deviceId : String
  threadId : Option String
  commandKind : String
  command : Json
  state : CommandState
  result : Option Json
  error : Option RemoteError
  commandSha256 : Option String
deriving DecidableEq

abbrev CommandTable := KeyedTable CommandRow.idempotencyKey

/-- The `DO UPDATE` of `store_command`: the owner, the thread, the kind and the
command of the first write stay. -/
def CommandRow.settle (written row : CommandRow) : CommandRow :=
  { row with
    state := written.state
    result := written.result
    error := written.error
    commandSha256 := written.commandSha256.or row.commandSha256 }

/-- `store_command`: an upsert that does not report whether the key was
there. -/
def storeCommand (commands : CommandTable) (row : CommandRow) : CommandTable :=
  commands.upsert row (CommandRow.settle row)

theorem find?_storeCommand (commands : CommandTable) (row : CommandRow)
    (key : String) :
    (storeCommand commands row).find? key =
      if key = row.idempotencyKey then
        some ((commands.find? key).elim row (CommandRow.settle row))
      else commands.find? key :=
  commands.find?_upsert row (CommandRow.settle row) (fun _ => rfl) key

/-- A record as the broker writes it: in one of its four states, and with no
refusal of the key as its error. -/
def CommandRow.Wellformed (row : CommandRow) : Prop :=
  (∀ text, row.state ≠ .other text) ∧
    ∀ error, row.error = some error → error.code ≠ .commandConflict

/-- What a store leaves under a key: the written state and error under its own
key, the old row elsewhere. -/
theorem find?_storeCommand_cases {commands : CommandTable} {row found : CommandRow}
    {key : String}
    (hfound : (storeCommand commands row).find? key = some found) :
    key = row.idempotencyKey ∧ found.state = row.state ∧
        found.error = row.error ∨
      key ≠ row.idempotencyKey ∧ commands.find? key = some found := by
  rw [find?_storeCommand] at hfound
  by_cases hkey : key = row.idempotencyKey
  · rw [if_pos hkey, Option.some.injEq] at hfound
    refine Or.inl ⟨hkey, ?_⟩
    rw [← hfound]
    cases commands.find? key <;> exact ⟨rfl, rfl⟩
  · rw [if_neg hkey] at hfound
    exact Or.inr ⟨hkey, hfound⟩

theorem wellformed_storeCommand {commands : CommandTable} {row : CommandRow}
    (hrow : row.Wellformed)
    (hall : ∀ key old, commands.find? key = some old →
      old.Wellformed) :
    ∀ key found, (storeCommand commands row).find? key = some found →
      found.Wellformed := by
  intro key found hfound
  rcases find?_storeCommand_cases hfound with
    ⟨-, hstate, herror⟩ | ⟨-, hold⟩
  · rw [CommandRow.Wellformed, hstate, herror]
    exact hrow
  · exact hall key found hold

/-- The kinds listed in the `UPDATE` of `mark_processing_indeterminate`. -/
def markedKinds : List String :=
  ["thread.start", "turn.start", "turn.interrupt", "approval.respond"]

def CommandRow.markIndeterminate (row : CommandRow) : CommandRow :=
  { row with state := .indeterminate }

theorem CommandRow.markIndeterminate_idempotencyKey (row : CommandRow) :
    row.markIndeterminate.idempotencyKey = row.idempotencyKey := rfl

def markProcessingIndeterminate (commands : CommandTable) : CommandTable :=
  commands.modify
    (fun row => row.state = .processing && row.commandKind ∈ markedKinds)
    CommandRow.markIndeterminate CommandRow.markIndeterminate_idempotencyKey

theorem find?_markProcessingIndeterminate (commands : CommandTable)
    (key : String) :
    (markProcessingIndeterminate commands).find? key =
      (commands.find? key).map fun row =>
        if row.state = .processing && row.commandKind ∈ markedKinds then
          row.markIndeterminate
        else row :=
  commands.find?_modify _ _ _ key

inductive RecoveredCommandState where
  | completed
  | safeToRetry
  | indeterminate
  | orphaned
deriving DecidableEq

def classifyAfterUpstreamRestart (commandKind : String)
    (previouslyCompleted : Bool) : RecoveredCommandState :=
  if previouslyCompleted then .completed
  else
    match commandKind with
    | "thread.start" | "turn.start" | "turn.interrupt" | "approval.respond" =>
      .indeterminate
    | _ => .safeToRetry

/-- The two lists of kinds agree: what a restart marks is what it cannot
retry. -/
theorem classifyAfterUpstreamRestart_eq (kind : String) :
    classifyAfterUpstreamRestart kind false =
      if kind ∈ markedKinds then .indeterminate else .safeToRetry := by
  unfold classifyAfterUpstreamRestart
  rw [if_neg Bool.false_ne_true]
  split
  all_goals simp_all [markedKinds]

def reconcileProcessingCommands (commands : CommandTable) : CommandTable :=
  markProcessingIndeterminate commands

end Vellum.Broker

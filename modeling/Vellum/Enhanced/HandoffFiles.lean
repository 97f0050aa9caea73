/-
The files of the handoffs under several bridges and publishers
(`enhanced_runtime/handoff_inject.rs`).  Every call of a process is a step of
its own, and a process may crash between any two of its calls.  A lock belongs
to the process that got it until it is given back or the process is gone; a
file that marks a handoff is created if it is absent, and stays.
-/
import Vellum.Enhanced.HandoffScan
import Vellum.Library.StepRun

namespace Vellum.Enhanced.HandoffInject

structure Files where
  locks : HashMap String Nat := HashMap.empty
  marks : List (String × Mark) := []
  requests : HashMap String Request := HashMap.empty

namespace Files

/-- Whether the files let a call be answered so.  What the directory, the
records, the bindings, the clocks and the sockets answer is up to them. -/
def gives (files : Files) : (op : InboxOp) → InboxAnswer op → Bool
  | .tryLock id, .ok true => !files.locks.contains id
  | .marked id mark, found => found == decide ((id, mark) ∈ files.marks)
  | .writeSent id _ _, .ok fresh =>
    fresh == !decide ((id, Mark.sent) ∈ files.marks)
  | .writeOutcome id outcome _, .ok fresh =>
    fresh == !decide ((id, Mark.outcome outcome) ∈ files.marks)
  | .writeRequest id _, .ok fresh => fresh == !files.requests.contains id
  | .readRequest id, some request => files.requests.get id = some request
  | _, _ => true

/-- A write that fails may have left its file. -/
def created (left : Bool) : Except String Bool → Bool
  | .ok fresh => fresh
  | .error _ => left

def create (files : Files) (id : String) (mark : Mark) (really : Bool) :
    Files :=
  if really then { files with marks := files.marks.insert (id, mark) }
  else files

def unlock (files : Files) (process : Nat) (id : String) : Files :=
  if files.locks.get id = some process then
    { files with locks := files.locks.remove id }
  else files

/-- The files behind a call of a process. -/
def after (files : Files) (process : Nat) (left : Bool) :
    (op : InboxOp) → InboxAnswer op → Files
  | .tryLock id, .ok true =>
    { files with locks := files.locks.insert id process }
  | .unlock id, _ => files.unlock process id
  | .writeSent id _ _, answer => files.create id .sent (created left answer)
  | .writeOutcome id outcome _, answer =>
    files.create id (.outcome outcome) (created left answer)
  | .writeRequest id request, answer =>
    if created left answer && !files.requests.contains id then
      { files with requests := files.requests.insert id request }
    else files
  | .removeRequest id, .ok _ =>
    { files with requests := files.requests.remove id }
  | _, _ => files

/-- The locks of a process that crashed are free. -/
def crash (files : Files) (process : Nat) : Files :=
  { files with locks := files.locks.retain fun _ holder => holder ≠ process }

end Files

/-- What goes over the sockets of a bridge.  What is sent is for a handoff. -/
inductive Traffic where
  | sent (bridge client : Nat) (handoff : String) (value : Json)
  | received (bridge client : Nat) (plane : ExecutionPlane) (value : Json)

/-- A bridge is done with a task when it has its inbox again; a publisher has
no inbox.  What a process sends is for the handoff whose lock it got last. -/
structure Process where
  task : Task (Option Inbox)
  handoff : String := ""

/-- The last message comes first. -/
structure InboxSystem where
  files : Files := {}
  traffic : List Traffic := []
  processes : List Process := []

inductive InboxAction where
  | launch (launch : String)
  | publish (id : String)
  | recover (id : String)
  | forwarded (i client : Nat) (plane : ExecutionPlane) (value : Json)
  | observed (i client : Nat) (plane : ExecutionPlane) (value : Json)
      (bindings : String → Option ThreadRuntimeBinding)
  | response (i client : Nat) (plane : ExecutionPlane) (value : Json)
  | disconnected (i client : Nat) (plane : Option ExecutionPlane)
  | scan (i : Nat) (digest : String)
  | shutdown (i : Nat)
  /-- The next call of a process is answered. -/
  | answer (i : Nat) (answers : (op : InboxOp) → InboxAnswer op) (left : Bool)
  | crash (i : Nat)

def trafficOf (i : Nat) (handoff : String) :
    (op : InboxOp) → InboxAnswer op → List Traffic
  | .send client value, true => [.sent i client handoff value]
  | _, _ => []

def handoffAfter (handoff : String) :
    (op : InboxOp) → InboxAnswer op → String
  | .tryLock id, .ok true => id
  | _, _ => handoff

/-- A task that gives the bridge its inbox back. -/
def serving (task : Task Inbox) : Task (Option Inbox) := do
  let inbox ← task
  pure (some inbox)

namespace InboxSystem

def begin (system : InboxSystem) (task : Task (Option Inbox)) : InboxSystem :=
  { system with processes := system.processes ++ [{ task }] }

/-- A bridge without a task takes one on. -/
def event (system : InboxSystem) (i : Nat)
    (work : Inbox → Task (Option Inbox)) : Option InboxSystem :=
  match system.processes[i]? with
  | some ⟨.done (some inbox), handoff⟩ =>
    some { system with
      processes := system.processes.set i ⟨work inbox, handoff⟩ }
  | _ => none

def answer (system : InboxSystem) (i : Nat)
    (answers : (op : InboxOp) → InboxAnswer op) (left : Bool) :
    Option InboxSystem :=
  match system.processes[i]? with
  | some ⟨.call op next, handoff⟩ =>
    if system.files.gives op (answers op) then
      some
        { files := system.files.after i left op (answers op)
          traffic := trafficOf i handoff op (answers op) ++ system.traffic
          processes := system.processes.set i
            ⟨next (answers op), handoffAfter handoff op (answers op)⟩ }
    else none
  | _ => none

def step (system : InboxSystem) : InboxAction → Option InboxSystem
  | .launch launch => some (system.begin (pure (some { launch })))
  | .publish id =>
    some (system.begin do
      publish id
      pure none)
  | .recover id =>
    some (system.begin do
      recover id
      pure none)
  | .forwarded i client plane value =>
    system.event i fun inbox =>
      pure (some (inbox.forward client plane value))
  | .observed i client plane value bindings =>
    system.event i fun inbox =>
      pure (some (inbox.observe client plane value bindings))
  | .response i client plane value =>
    (system.event i fun inbox => do
      let (inbox, _) ← inbox.response client plane value
      pure (some inbox)).map fun system =>
        { system with
          traffic := .received i client plane value :: system.traffic }
  | .disconnected i client plane =>
    system.event i fun inbox => serving (inbox.disconnected client plane)
  | .scan i digest =>
    system.event i fun inbox => serving (inbox.scan digest)
  | .shutdown i =>
    system.event i fun inbox => do
      let _ ← inbox.shutdown
      pure none
  | .answer i answers left => system.answer i answers left
  | .crash i =>
    if i < system.processes.length then
      some { system with
        files := system.files.crash i
        processes := system.processes.set i { task := .done none } }
    else none

end InboxSystem

/-! What a call does to the locks and the marks. -/

namespace Files

variable {files : Files} {i : Nat} {left : Bool} {op : InboxOp}
  {answer : InboxAnswer op}

/-- The mark that a call may create. -/
def writes : InboxOp → Option (String × Mark)
  | .writeSent id _ _ => some (id, .sent)
  | .writeOutcome id outcome _ => some (id, .outcome outcome)
  | _ => none

theorem mem_create_iff {id : String} {mark : Mark} {really : Bool}
    {found : String × Mark} :
    found ∈ (files.create id mark really).marks ↔
      found ∈ files.marks ∨ really = true ∧ found = (id, mark) := by
  cases really with
  | false => simp [create]
  | true => simp [create, or_comm]

theorem locks_create (id : String) (mark : Mark) (really : Bool) :
    (files.create id mark really).locks = files.locks := by
  rw [create]
  split <;> rfl

theorem marks_unlock (id : String) :
    (files.unlock i id).marks = files.marks := by
  rw [unlock]
  split <;> rfl

theorem mem_marks_after {found : String × Mark}
    (hfound : found ∈ (files.after i left op answer).marks) :
    found ∈ files.marks ∨ writes op = some found := by
  cases op with
  | tryLock id =>
    rcases answer with message | got
    · exact Or.inl hfound
    · cases got <;> exact Or.inl hfound
  | unlock id =>
    rw [after, marks_unlock] at hfound
    exact Or.inl hfound
  | writeSent id launch createdAt =>
    rcases mem_create_iff.mp hfound with hold | ⟨-, rfl⟩
    · exact Or.inl hold
    · exact Or.inr rfl
  | writeOutcome id outcome reason =>
    rcases mem_create_iff.mp hfound with hold | ⟨-, rfl⟩
    · exact Or.inl hold
    · exact Or.inr rfl
  | writeRequest id request =>
    rw [after] at hfound
    split at hfound <;> exact Or.inl hfound
  | removeRequest id => cases answer <;> exact Or.inl hfound
  | _ => exact Or.inl hfound

theorem marks_subset_after :
    files.marks ⊆ (files.after i left op answer).marks := by
  intro found hfound
  cases op with
  | tryLock id =>
    rcases answer with message | got
    · exact hfound
    · cases got <;> exact hfound
  | unlock id =>
    rw [after, marks_unlock]
    exact hfound
  | writeSent id launch createdAt => exact mem_create_iff.mpr (Or.inl hfound)
  | writeOutcome id outcome reason =>
    exact mem_create_iff.mpr (Or.inl hfound)
  | writeRequest id request =>
    rw [after]
    split <;> exact hfound
  | removeRequest id => cases answer <;> exact hfound
  | _ => exact hfound

theorem get_locks_unlock (id other : String) :
    (files.unlock i id).locks.get other =
      if other = id ∧ files.locks.get id = some i then none
      else files.locks.get other := by
  rw [unlock]
  by_cases hheld : files.locks.get id = some i
  · rw [if_pos hheld, HashMap.get_remove]
    simp [hheld]
  · rw [if_neg hheld]
    simp [hheld]

theorem get_locks_after {id : String} (htry : op ≠ .tryLock id)
    (hunlock : op ≠ .unlock id) :
    (files.after i left op answer).locks.get id = files.locks.get id := by
  cases op with
  | tryLock other =>
    have hne : id ≠ other := fun hsame => htry (by rw [hsame])
    rcases answer with message | got
    · rfl
    · cases got with
      | false => rfl
      | true =>
        rw [after, HashMap.get_insert, if_neg hne]
  | unlock other =>
    have hne : id ≠ other := fun hsame => hunlock (by rw [hsame])
    rw [after, get_locks_unlock, if_neg fun hboth => hne hboth.1]
  | writeSent other launch createdAt => rw [after, locks_create]
  | writeOutcome other outcome reason => rw [after, locks_create]
  | writeRequest other request =>
    rw [after]
    split <;> rfl
  | removeRequest other => cases answer <;> rfl
  | _ => rfl

theorem lock_kept_after {id : String} {j : Nat}
    (hgives : files.gives op answer = true) (hne : j ≠ i)
    (hheld : files.locks.get id = some j) :
    (files.after i left op answer).locks.get id = some j := by
  by_cases htry : op = .tryLock id
  · subst htry
    rcases answer with message | got
    · exact hheld
    · cases got with
      | false => exact hheld
      | true =>
        rw [gives, HashMap.contains, hheld] at hgives
        cases hgives
  · by_cases hunlock : op = .unlock id
    · subst hunlock
      rw [after, get_locks_unlock, if_neg]
      · exact hheld
      · rintro ⟨-, hown⟩
        rw [hheld] at hown
        exact hne (Option.some.inj hown)
    · rw [get_locks_after htry hunlock]
      exact hheld

/-- A process keeps a lock until it gives it back. -/
theorem lock_own_after {id : String} (hunlock : op ≠ .unlock id)
    (hheld : files.locks.get id = some i) :
    (files.after i left op answer).locks.get id = some i := by
  by_cases htry : op = .tryLock id
  · subst htry
    rcases answer with message | got
    · exact hheld
    · cases got with
      | false => exact hheld
      | true => exact HashMap.get_insert_self _ _ _
  · rw [get_locks_after htry hunlock]
    exact hheld

theorem lock_kept_crash {id : String} {j : Nat} (hne : j ≠ i)
    (hheld : files.locks.get id = some j) :
    (files.crash i).locks.get id = some j := by
  rw [crash, HashMap.get_retain, hheld]
  simp [hne]

end Files

end Vellum.Enhanced.HandoffInject

/-
Connection epochs of the upstream transport (`app_server/unix_ws.rs`).  Each
broker process counts its connections from one, while the approvals it stores
under those counts outlive the process.  The counter is advanced only after the
new connection can already be written to, so a response may also leave on a
connection whose number has not been taken yet.
-/
import Vellum.Broker.ApprovalResponses

namespace Vellum.Broker

open List Option KeyedTable

namespace ApprovalRegistry

/-- The tokens of the registry with the epochs they were registered under. -/
def epochs (registry : ApprovalRegistry) : List (String × Nat) :=
  registry.table.rows.map fun row => (row.localToken, row.upstreamEpoch)

@[simp]
theorem epochs_update (registry : ApprovalRegistry) (p : ApprovalRow → Bool)
    (state : ApprovalState) (response : Option Json) :
    (registry.update p state response).epochs = registry.epochs := by
  simp only [epochs, update, KeyedTable.modify, List.map_map]
  apply map_congr_left
  intro row _
  by_cases hp : p row <;> simp [hp, ApprovalRow.write]

theorem epochs_register {registry next : ApprovalRegistry} {row : ApprovalRow}
    {hdecoded : requestIdText row.requestId = row.upstreamRequestId}
    (hregister : registry.register row hdecoded = .ok next) :
    next.epochs = registry.epochs ++ [(row.localToken, row.upstreamEpoch)] := by
  unfold register at hregister
  split at hregister
  · cases hregister
  · split at hregister
    · cases hregister
    · rw [Except.ok.injEq] at hregister
      subst hregister
      simp [epochs]

theorem mem_epochs_of_find? {registry : ApprovalRegistry} {token : String}
    {row : ApprovalRow} (hrow : registry.find? token = some row) :
    (token, row.upstreamEpoch) ∈ registry.epochs := by
  obtain ⟨hmem, hkey⟩ := (find?_eq_some_iff _ _ _).mp hrow
  rw [← hkey]
  exact List.mem_map_of_mem hmem

/-- The row an `INSERT` collides with. -/
def blocking (registry : ApprovalRegistry) (row : ApprovalRow) :
    Option ApprovalRow :=
  registry.table.rows.find? fun old =>
    old.localToken = row.localToken || old.upstreamKey = row.upstreamKey

end ApprovalRegistry

namespace ApprovalSystem

/-- A step other than a registration. -/
def Action.isLocal : Action → Bool
  | .register .. => false
  | _ => true

/-- Local steps neither add an approval nor move one to another epoch, and the
tasks they leave answer approvals that are there. -/
theorem step_local {state next : ApprovalSystem} {action : Action}
    (hlocal : action.isLocal) (hstep : state.step action = some next) :
    next.registry.epochs = state.registry.epochs ∧
      next.epoch = state.epoch ∧
      ∀ task ∈ next.tasks.rows,
        (∃ old ∈ state.tasks.rows, old.token = task.token) ∨
        ∃ epoch, (task.token, epoch) ∈ state.registry.epochs := by
  cases action with
  | register => cases hlocal
  | markPresented token =>
    rw [step, some.injEq] at hstep
    subst hstep
    exact ⟨ApprovalRegistry.epochs_update .., rfl,
      fun task htask => Or.inl ⟨task, htask, rfl⟩⟩
  | orphanEpoch epoch =>
    rw [step, some.injEq] at hstep
    subst hstep
    exact ⟨ApprovalRegistry.epochs_update .., rfl,
      fun task htask => Or.inl ⟨task, htask, rfl⟩⟩
  | load id idempotencyKey token decision fault =>
    simp only [step] at hstep
    split at hstep
    · cases hstep
    · rw [some.injEq, loadStep] at hstep
      split at hstep <;> subst hstep
      · exact ⟨rfl, rfl, fun task htask => Or.inl ⟨task, htask, rfl⟩⟩
      · rename_i stored hload
        refine ⟨rfl, rfl, fun task htask => ?_⟩
        rcases (mem_put_iff _ _ _).mp htask with rfl | ⟨hold, -⟩
        · obtain ⟨row, hrow, -, -⟩ := read_of_loadApproval hload
          exact Or.inr ⟨_, ApprovalRegistry.mem_epochs_of_find? hrow⟩
        · exact Or.inl ⟨task, hold, rfl⟩
  | send id answer received =>
    obtain ⟨task, hfind, -, rfl⟩ := step_send hstep
    have hmem := ((state.tasks.find?_eq_some_iff _ _).mp hfind).1
    refine ⟨by rw [sendStep_registry], by
      unfold sendStep
      cases answer <;> cases received <;> rfl, fun other hother => ?_⟩
    cases answer with
    | ok _ =>
      have hput : other ∈ (state.tasks.put
          { task with sent := true }).rows := by
        cases received <;> exact hother
      rcases (mem_put_iff _ _ _).mp hput with rfl | ⟨hold, -⟩
      · exact Or.inl ⟨task, hmem, rfl⟩
      · exact Or.inl ⟨other, hold, rfl⟩
    | error error =>
      have herase : other ∈ (state.tasks.erase task.id).rows := by
        cases received <;> exact hother
      exact Or.inl
        ⟨other, ((mem_erase_iff _ _ _).mp herase).1, rfl⟩
  | resolve id written =>
    obtain ⟨task, -, -, rfl⟩ := step_resolve hstep
    refine ⟨?_, rfl, fun other hother => ?_⟩
    · rw [resolveStep]
      cases written
      · rfl
      · exact ApprovalRegistry.epochs_update ..
    · exact Or.inl ⟨other, ((mem_erase_iff _ _ _).mp hother).1, rfl⟩

end ApprovalSystem

/-- A connection in the outbound slot; it has no epoch until the counter is
advanced for it.  Connections are numbered here over all processes. -/
structure UpstreamConnection where
  number : Nat
  epoch : Option Nat

/-- The reader task of a connection, with the epoch it captured. -/
structure UpstreamReader where
  connection : Nat
  epoch : Nat

/-- `UpstreamMessage::ServerRequest`, on its way to the actor, with the
connection it was read from. -/
structure ServerRequest where
  connection : Nat
  epoch : Nat
  id : JsonRpcId
  method : String
  params : Json
deriving DecidableEq

/-- An approval's response, handed to the writer of a connection. -/
structure SentResponse where
  connection : Nat
  token : String
deriving DecidableEq

/-- A server request that was not registered because of a row already there. -/
structure RefusedRequest where
  request : ServerRequest
  blockedBy : String
deriving DecidableEq

/-- A broker process over its database.  `origin` records the connection the
request of each token arrived on; with the two logs and the connection numbers
it is what an observer sees and the code does not keep. -/
structure EpochBroker where
  approvals : ApprovalSystem
  opened : Nat
  outbound : Option UpstreamConnection
  reader : Option UpstreamReader
  requests : List ServerRequest
  origin : KeyedTable (Prod.fst : String × Nat → String)
  sent : List SentResponse
  refused : List RefusedRequest

namespace EpochBroker

/-- The first process, over an empty database. -/
def fresh : EpochBroker where
  approvals := ApprovalSystem.start .empty 0
  opened := 0
  outbound := none
  reader := none
  requests := []
  origin := .empty
  sent := []
  refused := []

variable (state : EpochBroker) (epoch connection : Nat)

def originOf (token : String) : Option Nat :=
  (state.origin.find? token).map Prod.snd

/-- One atomic step of the transport, of an actor or of the world. -/
inductive Action where
  | restart
  | openConnection
  | takeEpoch
  | receive (id : JsonRpcId) (method : String) (params : Json)
  | lose (request : ServerRequest)
  | ingest (request : ServerRequest) (threadId token : String)
      (createdAt : Nat)
  | endReader
  | clearOutbound
  | markPresented (token : String)
  | orphanEpoch (epoch : Nat)
  | load (task : Nat) (idempotencyKey token : String)
      (decision : ApprovalDecision) (fault : Option StoreError)
  | send (task : Nat) (queued : Bool)
  | resolve (task : Nat) (written : Bool)

/-- The process dies, whatever it was doing, and another one opens the
database; its transport starts with `AtomicU64::new(0)`. -/
def restartStep : EpochBroker :=
  { state with
    approvals := ApprovalSystem.start state.approvals.registry 0
    outbound := none
    reader := none
    requests := [] }

/-- `run_unix_connection` puts the new connection's sender into the slot. -/
def openStep : EpochBroker :=
  { state with
    opened := state.opened + 1
    outbound := some ⟨state.opened, none⟩ }

/-- `epoch.fetch_add(1) + 1`, and the reader that captures it. -/
def takeEpochStep (number : Nat) : EpochBroker :=
  let epoch := state.approvals.epoch + 1
  { state with
    approvals := { state.approvals with epoch := epoch }
    outbound := some ⟨number, some epoch⟩
    reader := some ⟨number, epoch⟩ }

/-- `handle_incoming_text` for a request. -/
def receiveStep (reader : UpstreamReader) (id : JsonRpcId) (method : String)
    (params : Json) : EpochBroker :=
  { state with
    requests := state.requests ++
      [⟨reader.connection, reader.epoch, id, method, params⟩] }

/-- The methods `ingest_server_request` registers; the others are answered
with an error at once. -/
def approvalMethod (method : String) : Bool :=
  method = "item/commandExecution/requestApproval" ||
    method = "item/fileChange/requestApproval"

def requestRow (request : ServerRequest) (threadId token : String)
    (createdAt : Nat) : ApprovalRow :=
  ApprovalRegistry.newRow token request.epoch request.id request.method
    request.params (some threadId) createdAt

/-- `ingest_server_request`. -/
def ingestStep (request : ServerRequest) (threadId token : String)
    (createdAt : Nat) : EpochBroker :=
  let row := requestRow request threadId token createdAt
  let state := { state with requests := state.requests.erase request }
  if approvalMethod request.method then
    match state.approvals.registry.register row
        (ApprovalRegistry.newRow_decoded ..) with
    | .ok registry =>
      { state with
        approvals := { state.approvals with registry := registry }
        origin := state.origin.put (token, request.connection) }
    | .error _ =>
      { state with
        refused := state.refused ++
          ((state.approvals.registry.blocking row).map fun old =>
            ⟨request, old.localToken⟩).toList }
  else state

/-- A step of the registry and the tasks that answer from it. -/
def approve (action : ApprovalSystem.Action) : Option EpochBroker :=
  (state.approvals.step action).map fun approvals =>
    { state with approvals := approvals }

/-- `send_text`: the response is queued for the connection in the slot. -/
def sendStep (id : Nat) (queued : Bool) : Option EpochBroker :=
  match state.outbound, queued with
  | none, _ => state.approve (.send id (.error .notReady) false)
  | some _, false =>
    state.approve
      (.send id (.error (.transport "upstream writer closed")) false)
  | some connection, true =>
    (state.approve (.send id (.ok ()) true)).map fun next =>
      { next with
        sent := next.sent ++ (state.approvals.tasks.find? id).toList.map
          fun task => ⟨connection.number, task.token⟩ }

def step : Action → Option EpochBroker
  | .restart => some state.restartStep
  | .openConnection =>
    if state.outbound.isNone && state.reader.isNone then some state.openStep
    else none
  | .takeEpoch =>
    match state.outbound with
    | some ⟨number, none⟩ => some (state.takeEpochStep number)
    | _ => none
  | .receive id method params =>
    state.reader.map fun reader => state.receiveStep reader id method params
  | .lose request =>
    some { state with requests := state.requests.erase request }
  | .ingest request threadId token createdAt =>
    -- `Ulid::new` gives a token that was never used
    if request ∈ state.requests ∧ state.originOf token = none then
      some (state.ingestStep request threadId token createdAt)
    else none
  | .endReader => some { state with reader := none }
  | .clearOutbound => some { state with outbound := none }
  | .markPresented token => state.approve (.markPresented token)
  | .orphanEpoch epoch => state.approve (.orphanEpoch epoch)
  | .load task idempotencyKey token decision fault =>
    state.approve (.load task idempotencyKey token decision fault)
  | .send task queued => state.sendStep task queued
  | .resolve task written => state.approve (.resolve task written)

/-- Every response went out on the connection its request arrived on, and no
request was refused because of another connection's row. -/
structure Kept (state : EpochBroker) : Prop where
  answered : ∀ response ∈ state.sent,
    state.originOf response.token = some response.connection
  unblocked : ∀ refusal ∈ state.refused,
    state.originOf refusal.blockedBy = some refusal.request.connection

/-- The schedules on which epochs tell connections apart.  A connection takes a
number that no stored approval bears, and a response is queued only for a
connection that has taken the number its approval bears. -/
def Distinct : Action → Prop
  | .takeEpoch =>
    ∀ token, (token, state.approvals.epoch + 1) ∉
      state.approvals.registry.epochs
  | .send id true =>
    ∀ task, state.approvals.tasks.find? id = some task →
      ∀ connection, state.outbound = some connection →
        ∃ epoch, (task.token, epoch) ∈ state.approvals.registry.epochs ∧
          connection.epoch = some epoch
  | _ => True

/-! The books: which connection an epoch number stands for. -/

/-- A stored approval bears the epoch and came from the connection. -/
def Stored : Prop :=
  ∃ token, (token, epoch) ∈ state.approvals.registry.epochs ∧
    state.originOf token = some connection

/-- The process has the epoch in use for the connection. -/
def InUse : Prop :=
  (∃ request ∈ state.requests,
    request.epoch = epoch ∧ request.connection = connection) ∨
  state.reader = some ⟨connection, epoch⟩ ∨
  state.outbound = some ⟨connection, some epoch⟩

def Carries : Prop :=
  state.Stored epoch connection ∨ state.InUse epoch connection

/-- Epochs and connections determine each other, over all processes so far. -/
structure Paired (state : EpochBroker) : Prop where
  single : ∀ epoch first second, state.Carries epoch first →
    state.Carries epoch second → first = second
  inverse : ∀ first second connection, state.Carries first connection →
    state.Carries second connection → first = second
  known : ∀ epoch connection, state.Carries epoch connection →
    connection < state.opened
  counted : ∀ epoch connection, state.InUse epoch connection →
    epoch ≤ state.approvals.epoch
  slot : ∀ connection, state.outbound = some connection →
    connection.number < state.opened ∧ (connection.epoch = none →
      ∀ epoch, ¬ state.Carries epoch connection.number)
  located : ∀ token epoch, (token, epoch) ∈ state.approvals.registry.epochs →
    ∃ connection, state.originOf token = some connection
  read : ∀ task ∈ state.approvals.tasks.rows,
    ∃ epoch, (task.token, epoch) ∈ state.approvals.registry.epochs

theorem paired_fresh : fresh.Paired := by
  have hnone : ∀ epoch connection, ¬ fresh.Carries epoch connection := by
    rintro epoch connection (⟨token, hmem, -⟩ | ⟨_, hmem, -⟩ | hslot | hslot)
    · exact absurd hmem not_mem_nil
    · exact absurd hmem not_mem_nil
    · cases hslot
    · cases hslot
  refine ⟨?_, ?_, ?_, ?_, ?_, ?_, ?_⟩
  · exact fun epoch first _ hfirst => absurd hfirst (hnone epoch first)
  · exact fun first _ connection hfirst =>
      absurd hfirst (hnone first connection)
  · exact fun epoch connection hcarries =>
      absurd hcarries (hnone epoch connection)
  · exact fun epoch connection huse =>
      absurd (Or.inr huse) (hnone epoch connection)
  · rintro _ ⟨⟩
  · exact fun _ _ hmem => absurd hmem not_mem_nil
  · exact fun _ htask => absurd htask not_mem_nil

variable {state next : EpochBroker}

section

variable (hpaired : state.Paired)
include hpaired

/-- A step that puts no new pair into use and leaves the slot or empties it. -/
theorem Paired.of_subset
    (hstored : ∀ epoch connection, next.Stored epoch connection →
      state.Carries epoch connection)
    (huse : ∀ epoch connection, next.InUse epoch connection →
      state.InUse epoch connection ∧
        state.approvals.epoch ≤ next.approvals.epoch)
    (hopened : next.opened = state.opened)
    (hslot : next.outbound = none ∨ next.outbound = state.outbound)
    (hlocated : ∀ token epoch,
      (token, epoch) ∈ next.approvals.registry.epochs →
        ∃ connection, next.originOf token = some connection)
    (hread : ∀ task ∈ next.approvals.tasks.rows,
      ∃ epoch, (task.token, epoch) ∈ next.approvals.registry.epochs) :
    next.Paired := by
  have hcarries : ∀ epoch connection, next.Carries epoch connection →
      state.Carries epoch connection := by
    rintro epoch connection (hold | hold)
    · exact hstored epoch connection hold
    · exact Or.inr (huse epoch connection hold).1
  refine ⟨?_, ?_, ?_, ?_, ?_, hlocated, hread⟩
  · intro epoch first second hfirst hsecond
    exact hpaired.single epoch first second (hcarries _ _ hfirst)
      (hcarries _ _ hsecond)
  · intro first second connection hfirst hsecond
    exact hpaired.inverse first second connection (hcarries _ _ hfirst)
      (hcarries _ _ hsecond)
  · intro epoch connection hnow
    rw [hopened]
    exact hpaired.known epoch connection (hcarries _ _ hnow)
  · intro epoch connection hnow
    obtain ⟨hold, hepoch⟩ := huse epoch connection hnow
    exact Nat.le_trans (hpaired.counted epoch connection hold) hepoch
  · intro connection hnow
    rcases hslot with hnone | hsame
    · rw [hnone] at hnow
      cases hnow
    · rw [hsame] at hnow
      obtain ⟨hbound, huntaken⟩ := hpaired.slot connection hnow
      rw [hopened]
      exact ⟨hbound, fun hepoch epoch hcarried =>
        huntaken hepoch epoch (hcarries _ _ hcarried)⟩

theorem paired_approve {action : ApprovalSystem.Action}
    (hlocal : action.isLocal) (hstep : state.approve action = some next) :
    next.Paired := by
  obtain ⟨approvals, hnext, rfl⟩ := map_eq_some_iff.mp hstep
  obtain ⟨hepochs, hepoch, htasks⟩ :=
    ApprovalSystem.step_local hlocal hnext
  apply hpaired.of_subset
  · rintro epoch connection ⟨token, hmem, horigin⟩
    exact Or.inl ⟨token, hepochs ▸ hmem, horigin⟩
  · exact fun epoch connection huse => ⟨huse, Nat.le_of_eq hepoch.symm⟩
  · rfl
  · exact Or.inr rfl
  · intro token epoch hmem
    exact hpaired.located token epoch (hepochs ▸ hmem)
  · intro task htask
    simp only [hepochs]
    rcases htasks task htask with ⟨old, hold, htoken⟩ | hstored
    · rw [← htoken]
      exact hpaired.read old hold
    · exact hstored

theorem paired_restart : state.restartStep.Paired := by
  apply hpaired.of_subset
  · rintro epoch connection ⟨token, hmem, horigin⟩
    exact Or.inl ⟨token, hmem, horigin⟩
  · -- the new process has nothing in use
    rintro epoch connection (⟨_, hmem, -⟩ | hnone | hnone)
    · exact absurd hmem not_mem_nil
    · cases hnone
    · cases hnone
  · rfl
  · exact Or.inl rfl
  · exact hpaired.located
  · exact fun _ htask => absurd htask not_mem_nil

theorem paired_open (hreader : state.reader = none) :
    state.openStep.Paired := by
  have hcarries : ∀ epoch connection, state.openStep.Carries epoch connection →
      state.Carries epoch connection := by
    rintro epoch connection (hold | hrequest | hnow | hnow)
    · exact Or.inl hold
    · exact Or.inr (Or.inl hrequest)
    · exact absurd (hreader.symm.trans hnow) (by rintro ⟨⟩)
    · exact absurd (some.inj hnow) (by rintro ⟨⟩)
  refine ⟨?_, ?_, ?_, ?_, ?_, hpaired.located, hpaired.read⟩
  · exact fun epoch first second hfirst hsecond => hpaired.single epoch first
      second (hcarries _ _ hfirst) (hcarries _ _ hsecond)
  · exact fun first second connection hfirst hsecond => hpaired.inverse first
      second connection (hcarries _ _ hfirst) (hcarries _ _ hsecond)
  · intro epoch connection hnow
    have hold := hpaired.known epoch connection (hcarries _ _ hnow)
    exact Nat.lt_succ_of_lt hold
  · rintro epoch connection (hrequest | hnow | hnow)
    · exact hpaired.counted epoch connection (Or.inl hrequest)
    · exact absurd (hreader.symm.trans hnow) (by rintro ⟨⟩)
    · exact absurd (some.inj hnow) (by rintro ⟨⟩)
  · intro connection hnow
    have hslot : connection = ⟨state.opened, none⟩ := (some.inj hnow).symm
    subst hslot
    refine ⟨Nat.lt_succ_self _, fun _ epoch hcarried => ?_⟩
    exact Nat.lt_irrefl _ (hpaired.known _ _ (hcarries _ _ hcarried))

/-- The number a connection takes is new to the process by the count, and to
the database by the condition. -/
theorem paired_takeEpoch (hok : state.Distinct .takeEpoch) {number : Nat}
    (hslot : state.outbound = some ⟨number, none⟩) :
    (state.takeEpochStep number).Paired := by
  obtain ⟨hbound, huntaken⟩ := hpaired.slot _ hslot
  have huntaken := huntaken rfl
  have hnew : ∀ connection,
      ¬ state.Carries (state.approvals.epoch + 1) connection := by
    rintro connection (⟨token, hmem, -⟩ | huse)
    · exact hok token hmem
    · exact Nat.not_succ_le_self _ (hpaired.counted _ _ huse)
  have hcarries : ∀ epoch connection,
      (state.takeEpochStep number).Carries epoch connection →
        state.Carries epoch connection ∨
          epoch = state.approvals.epoch + 1 ∧ connection = number := by
    rintro epoch connection (hold | hrequest | hnow | hnow)
    · exact Or.inl (Or.inl hold)
    · exact Or.inl (Or.inr (Or.inl hrequest))
    · obtain ⟨hconnection, hepoch⟩ :=
        UpstreamReader.mk.inj (some.inj hnow)
      exact Or.inr ⟨hepoch.symm, hconnection.symm⟩
    · obtain ⟨hconnection, hepoch⟩ :=
        UpstreamConnection.mk.inj (some.inj hnow)
      exact Or.inr ⟨(some.inj hepoch).symm, hconnection.symm⟩
  refine ⟨?_, ?_, ?_, ?_, ?_, hpaired.located, hpaired.read⟩
  · intro epoch first second hfirst hsecond
    rcases hcarries _ _ hfirst with hfirst | ⟨rfl, rfl⟩ <;>
      rcases hcarries _ _ hsecond with hsecond | ⟨hepoch, hsecond⟩
    · exact hpaired.single epoch first second hfirst hsecond
    · subst hepoch
      exact absurd hfirst (hnew first)
    · exact absurd hsecond (hnew second)
    · exact hsecond.symm
  · intro first second connection hfirst hsecond
    rcases hcarries _ _ hfirst with hfirst | ⟨hepoch, hnumber⟩ <;>
      rcases hcarries _ _ hsecond with hsecond | ⟨hepoch', hnumber'⟩
    · exact hpaired.inverse first second connection hfirst hsecond
    · exact absurd (hnumber' ▸ hfirst) (huntaken first)
    · exact absurd (hnumber ▸ hsecond) (huntaken second)
    · exact hepoch.trans hepoch'.symm
  · intro epoch connection hnow
    rcases hcarries _ _ hnow with hold | ⟨-, rfl⟩
    · exact hpaired.known epoch connection hold
    · exact hbound
  · rintro epoch connection (hrequest | hnow | hnow)
    · have hold := hpaired.counted epoch connection (Or.inl hrequest)
      exact Nat.le_succ_of_le hold
    · obtain ⟨-, rfl⟩ := UpstreamReader.mk.inj (some.inj hnow)
      exact Nat.le_refl _
    · obtain ⟨-, hepoch⟩ := UpstreamConnection.mk.inj (some.inj hnow)
      rw [← some.inj hepoch]
      exact Nat.le_refl _
  · intro connection hnow
    rw [← some.inj hnow]
    exact ⟨hbound, by rintro ⟨⟩⟩

theorem paired_receive {reader : UpstreamReader}
    (hreader : state.reader = some reader) (id : JsonRpcId) (method : String)
    (params : Json) : (state.receiveStep reader id method params).Paired := by
  apply hpaired.of_subset
  · exact fun epoch connection hold => Or.inl hold
  · rintro epoch connection (⟨request, hmem, hepoch, hconnection⟩ | hold)
    · refine ⟨?_, Nat.le_refl _⟩
      rcases mem_append.mp hmem with hold | hnew
      · exact Or.inl ⟨request, hold, hepoch, hconnection⟩
      · rw [mem_singleton.mp hnew] at hepoch hconnection
        subst hepoch hconnection
        exact Or.inr (Or.inl hreader)
    · exact ⟨Or.inr hold, Nat.le_refl _⟩
  · rfl
  · exact Or.inr rfl
  · exact hpaired.located
  · exact hpaired.read

/-- Requests and connections that go away take nothing into use. -/
theorem paired_drop {outbound : Option UpstreamConnection}
    {reader : Option UpstreamReader} {requests : List ServerRequest}
    {refused : List RefusedRequest}
    (houtbound : outbound = none ∨ outbound = state.outbound)
    (hreader : reader = none ∨ reader = state.reader)
    (hrequests : ∀ request ∈ requests, request ∈ state.requests) :
    { state with
      outbound := outbound
      reader := reader
      requests := requests
      refused := refused }.Paired := by
  apply hpaired.of_subset
  · exact fun epoch connection hold => Or.inl hold
  · rintro epoch connection (⟨request, hmem, hsame⟩ | hnow | hnow)
    · exact ⟨Or.inl ⟨request, hrequests request hmem, hsame⟩, Nat.le_refl _⟩
    · rcases hreader with rfl | rfl
      · cases hnow
      · exact ⟨Or.inr (Or.inl hnow), Nat.le_refl _⟩
    · rcases houtbound with rfl | rfl
      · cases hnow
      · exact ⟨Or.inr (Or.inr hnow), Nat.le_refl _⟩
  · rfl
  · exact houtbound
  · exact hpaired.located
  · exact hpaired.read

end

/-- The state after an approval's request is registered. -/
def registered (state : EpochBroker) (request : ServerRequest) (token : String)
    (registry : ApprovalRegistry) : EpochBroker :=
  { state with
    approvals := { state.approvals with registry := registry }
    requests := state.requests.erase request
    origin := state.origin.put (token, request.connection) }

/-- What `ingest_server_request` can do: drop the request, with or without a
row in its way, or register it. -/
theorem ingest_cases (state : EpochBroker) (request : ServerRequest)
    (threadId token : String) (createdAt : Nat) :
    (∃ refused, state.ingestStep request threadId token createdAt =
        { state with
          requests := state.requests.erase request
          refused := state.refused ++ refused } ∧
      ∀ refusal ∈ refused, refusal.request = request ∧
        ∃ old ∈ state.approvals.registry.table.rows,
          old.localToken = refusal.blockedBy ∧
            (old.localToken = token ∨ old.upstreamEpoch = request.epoch)) ∨
    ∃ registry, registry.epochs = state.approvals.registry.epochs ++
        [(token, request.epoch)] ∧
      state.ingestStep request threadId token createdAt =
        state.registered request token registry := by
  unfold ingestStep
  simp only
  split
  · split
    · rename_i registry hregister
      exact Or.inr
        ⟨registry, ApprovalRegistry.epochs_register hregister, rfl⟩
    · refine Or.inl ⟨_, rfl, ?_⟩
      intro refusal hmem
      obtain ⟨old, hfind, rfl⟩ := map_eq_some_iff.mp
        (mem_toList.mp hmem)
      refine ⟨rfl, old, mem_of_find?_eq_some hfind, rfl, ?_⟩
      have hsame := find?_some hfind
      simp only [Bool.or_eq_true, decide_eq_true_eq] at hsame
      exact hsame.imp_right fun hkey => (Prod.mk.inj hkey).1
  · exact Or.inl ⟨[], by rw [append_nil], by rintro _ ⟨⟩⟩

theorem originOf_registered (state : EpochBroker) (request : ServerRequest)
    (token : String) (registry : ApprovalRegistry) (other : String) :
    (state.registered request token registry).originOf other =
      if other = token then some request.connection
      else state.originOf other := by
  rw [originOf, registered, find?_put]
  split <;> rfl

theorem paired_ingest (hpaired : state.Paired) {request : ServerRequest}
    (hmem : request ∈ state.requests) {token : String}
    (hunused : state.originOf token = none) (threadId : String)
    (createdAt : Nat) :
    (state.ingestStep request threadId token createdAt).Paired := by
  obtain ⟨refused, hstep, -⟩ | ⟨registry, hepochs, hstep⟩ :=
    ingest_cases state request threadId token createdAt <;> rw [hstep]
  · exact paired_drop hpaired (Or.inr rfl) (Or.inr rfl)
      fun _ hleft => mem_of_mem_erase hleft
  · have hnext : ∀ other epoch, (other, epoch) ∈ registry.epochs →
        (other, epoch) ∈ state.approvals.registry.epochs ∧ other ≠ token ∨
          other = token ∧ epoch = request.epoch := by
      intro other epoch hother
      rw [hepochs] at hother
      rcases mem_append.mp hother with hold | hnew
      · refine Or.inl ⟨hold, fun hsame => ?_⟩
        obtain ⟨connection, horigin⟩ := hpaired.located other epoch hold
        rw [hsame, hunused] at horigin
        cases horigin
      · exact Or.inr (Prod.mk.inj (mem_singleton.mp hnew))
    apply hpaired.of_subset
    · rintro epoch connection ⟨other, hother, horigin⟩
      rw [originOf_registered] at horigin
      rcases hnext other epoch hother with ⟨hold, hne⟩ | ⟨hsame, rfl⟩
      · rw [if_neg hne] at horigin
        exact Or.inl ⟨other, hold, horigin⟩
      · rw [if_pos hsame, some.injEq] at horigin
        exact Or.inr (Or.inl ⟨request, hmem, rfl, horigin⟩)
    · rintro epoch connection (⟨other, hother, hsame⟩ | hnow)
      · exact ⟨Or.inl ⟨other, mem_of_mem_erase hother, hsame⟩,
          Nat.le_refl _⟩
      · exact ⟨Or.inr hnow, Nat.le_refl _⟩
    · rfl
    · exact Or.inr rfl
    · intro other epoch hother
      rw [originOf_registered]
      rcases hnext other epoch hother with ⟨hold, hne⟩ | ⟨hsame, -⟩
      · rw [if_neg hne]
        exact hpaired.located other epoch hold
      · exact ⟨_, if_pos hsame⟩
    · intro task htask
      obtain ⟨epoch, hread⟩ := hpaired.read task htask
      exact ⟨epoch, hepochs ▸ mem_append_left _ hread⟩

/-- A refused request met a row of its own connection: within one epoch the
upstream has used a request id twice. -/
theorem kept_ingest (hpaired : state.Paired) (hkept : state.Kept)
    {request : ServerRequest} (hmem : request ∈ state.requests) {token : String}
    (hunused : state.originOf token = none) (threadId : String)
    (createdAt : Nat) :
    (state.ingestStep request threadId token createdAt).Kept := by
  obtain ⟨refused, hstep, hblocked⟩ | ⟨registry, -, hstep⟩ :=
    ingest_cases state request threadId token createdAt <;> rw [hstep]
  · refine ⟨hkept.answered, fun refusal hrefusal => ?_⟩
    rcases mem_append.mp hrefusal with hold | hnew
    · exact hkept.unblocked refusal hold
    · obtain ⟨hrequest, old, hold, htoken, hsame⟩ := hblocked refusal hnew
      have hrow : (old.localToken, old.upstreamEpoch) ∈
          state.approvals.registry.epochs := List.mem_map_of_mem hold
      obtain ⟨connection, horigin⟩ := hpaired.located _ _ hrow
      rcases hsame with hfresh | hepoch
      · rw [hfresh, hunused] at horigin
        cases horigin
      · have hone := hpaired.single request.epoch connection
          request.connection (Or.inl ⟨old.localToken, hepoch ▸ hrow, horigin⟩)
          (Or.inr (Or.inl ⟨request, hmem, rfl, rfl⟩))
        show state.originOf refusal.blockedBy = some refusal.request.connection
        rw [← htoken, horigin, hone, hrequest]
  · have hkeep : ∀ other connection,
        state.originOf other = some connection →
          (state.registered request token registry).originOf other =
            some connection := by
      intro other connection horigin
      rw [originOf_registered, if_neg, horigin]
      rintro rfl
      rw [hunused] at horigin
      cases horigin
    exact ⟨fun response hresponse => hkeep _ _ (hkept.answered response hresponse),
      fun refusal hrefusal => hkeep _ _ (hkept.unblocked refusal hrefusal)⟩

/-- Queueing a response keeps the books, and it goes where the approval came
from exactly if the connection in the slot has taken the approval's epoch. -/
theorem send_queued (hpaired : state.Paired) (hkept : state.Kept) {id : Nat}
    (hstep : state.step (.send id true) = some next) :
    next.Paired ∧ (next.Kept ↔ state.Distinct (.send id true)) := by
  simp only [step, sendStep] at hstep
  cases hslot : state.outbound with
  | none =>
    rw [hslot] at hstep
    refine ⟨paired_approve hpaired rfl hstep, ?_⟩
    obtain ⟨approvals, -, rfl⟩ := map_eq_some_iff.mp hstep
    refine iff_of_true ⟨hkept.answered, hkept.unblocked⟩ ?_
    intro task _ connection hnow
    rw [hslot] at hnow
    cases hnow
  | some connection =>
    rw [hslot] at hstep
    obtain ⟨middle, happrove, rfl⟩ := map_eq_some_iff.mp hstep
    have hmiddle := paired_approve hpaired rfl happrove
    obtain ⟨approvals, hsend, rfl⟩ := map_eq_some_iff.mp happrove
    obtain ⟨task, hfind, -, -⟩ := ApprovalSystem.step_send hsend
    have htask := ((find?_eq_some_iff _ _ _).mp hfind).1
    obtain ⟨epoch, hrow⟩ := hpaired.read task htask
    obtain ⟨origin, horigin⟩ := hpaired.located _ _ hrow
    have hcarried : state.Carries epoch origin :=
      Or.inl ⟨task.token, hrow, horigin⟩
    refine ⟨⟨hmiddle.single, hmiddle.inverse, hmiddle.known, hmiddle.counted,
      hmiddle.slot, hmiddle.located, hmiddle.read⟩, ?_⟩
    simp only [hfind, toList_some, map_cons, map_nil]
    constructor
    · intro hnext found hfound now hnow
      rw [hfind, some.injEq] at hfound
      rw [hslot, some.injEq] at hnow
      subst hfound hnow
      refine ⟨epoch, hrow, ?_⟩
      have hsent : state.originOf task.token = some connection.number :=
        hnext.answered ⟨connection.number, task.token⟩
          (mem_append_right _ (mem_singleton_self _))
      have hnumber : origin = connection.number :=
        some.inj (horigin.symm.trans hsent)
      subst hnumber
      cases htaken : connection.epoch with
      | none =>
        exact absurd hcarried
          ((hpaired.slot connection hslot).2 htaken epoch)
      | some taken =>
        have hnow : state.Carries taken connection.number :=
          Or.inr (Or.inr (Or.inr (by rw [hslot, ← htaken])))
        rw [hpaired.inverse taken epoch connection.number hnow hcarried]
    · intro hok
      refine ⟨fun response hresponse => ?_, hkept.unblocked⟩
      rcases mem_append.mp hresponse with hold | hnew
      · exact hkept.answered response hold
      · rw [mem_singleton.mp hnew]
        obtain ⟨taken, hstored, htaken⟩ := hok task hfind connection hslot
        obtain ⟨source, hsource⟩ := hpaired.located _ _ hstored
        have hnow : state.Carries taken connection.number :=
          Or.inr (Or.inr (Or.inr (by rw [hslot, ← htaken])))
        have hone := hpaired.single taken source connection.number
          (Or.inl ⟨task.token, hstored, hsource⟩) hnow
        exact hsource.trans (congrArg some hone)

theorem kept_approve {action : ApprovalSystem.Action} (hkept : state.Kept)
    (hstep : state.approve action = some next) : next.Kept := by
  obtain ⟨approvals, -, rfl⟩ := map_eq_some_iff.mp hstep
  exact ⟨hkept.answered, hkept.unblocked⟩

theorem step_sound {action : Action} (hsound : state.Paired ∧ state.Kept)
    (hok : state.Distinct action) (hstep : state.step action = some next) :
    next.Paired ∧ next.Kept := by
  obtain ⟨hpaired, hkept⟩ := hsound
  have hsame : state.Kept := ⟨hkept.answered, hkept.unblocked⟩
  have hlocal : ∀ {action : ApprovalSystem.Action}, action.isLocal →
      state.approve action = some next → next.Paired ∧ next.Kept :=
    fun hlocal hstep =>
      ⟨paired_approve hpaired hlocal hstep, kept_approve hkept hstep⟩
  cases action with
  | restart =>
    rw [step, some.injEq] at hstep
    subst hstep
    exact ⟨paired_restart hpaired, hkept.answered, hkept.unblocked⟩
  | openConnection =>
    simp only [step, Bool.and_eq_true, isNone_iff_eq_none] at hstep
    split at hstep
    · rename_i hfree
      rw [some.injEq] at hstep
      subst hstep
      exact ⟨paired_open hpaired hfree.2, hkept.answered, hkept.unblocked⟩
    · cases hstep
  | takeEpoch =>
    simp only [step] at hstep
    split at hstep
    · rename_i number hslot
      rw [some.injEq] at hstep
      subst hstep
      exact ⟨paired_takeEpoch hpaired hok hslot, hkept.answered,
        hkept.unblocked⟩
    · cases hstep
  | receive id method params =>
    obtain ⟨reader, hreader, rfl⟩ := map_eq_some_iff.mp hstep
    exact ⟨paired_receive hpaired hreader id method params, hkept.answered,
      hkept.unblocked⟩
  | lose request =>
    rw [step, some.injEq] at hstep
    subst hstep
    exact ⟨paired_drop hpaired (Or.inr rfl) (Or.inr rfl)
      (fun _ hleft => mem_of_mem_erase hleft), hkept.answered,
      hkept.unblocked⟩
  | ingest request threadId token createdAt =>
    simp only [step] at hstep
    split at hstep
    · rename_i hready
      rw [some.injEq] at hstep
      subst hstep
      exact ⟨paired_ingest hpaired hready.1 hready.2 threadId createdAt,
        kept_ingest hpaired hkept hready.1 hready.2 threadId createdAt⟩
    · cases hstep
  | endReader =>
    rw [step, some.injEq] at hstep
    subst hstep
    exact ⟨paired_drop hpaired (Or.inr rfl) (Or.inl rfl) fun _ hmem => hmem,
      hkept.answered, hkept.unblocked⟩
  | clearOutbound =>
    rw [step, some.injEq] at hstep
    subst hstep
    exact ⟨paired_drop hpaired (Or.inl rfl) (Or.inr rfl) fun _ hmem => hmem,
      hkept.answered, hkept.unblocked⟩
  | markPresented token => exact hlocal rfl hstep
  | orphanEpoch epoch => exact hlocal rfl hstep
  | load task idempotencyKey token decision fault => exact hlocal rfl hstep
  | resolve task written => exact hlocal rfl hstep
  | send task queued =>
    cases queued with
    | true =>
      obtain ⟨hnext, hiff⟩ := send_queued hpaired hkept hstep
      exact ⟨hnext, hiff.mpr hok⟩
    | false =>
      simp only [step, sendStep] at hstep
      split at hstep
      · exact hlocal rfl hstep
      · exact hlocal rfl hstep
      · rename_i hqueued
        cases hqueued

theorem sound_run {actions : List Action} {finish : EpochBroker}
    (run : GuardedRun step Distinct fresh actions finish) :
    finish.Paired ∧ finish.Kept :=
  run.invariant ⟨paired_fresh, by rintro _ ⟨⟩, by rintro _ ⟨⟩⟩
    fun _ _ _ hsound hok hstep => step_sound hsound hok hstep

/-- Over any number of restarts and reconnects in which epochs tell connections
apart, every response goes out on the connection its approval arrived on, and
no request is refused because of a row of another connection. -/
theorem epochs_tell_connections_apart {actions : List Action}
    {finish : EpochBroker}
    (run : GuardedRun step Distinct fresh actions finish) : finish.Kept :=
  (sound_run run).2

/-- Whether the step meets the condition, decided. -/
def distinctCheck (state : EpochBroker) : Action → Bool
  | .takeEpoch =>
    state.approvals.registry.epochs.all fun named =>
      named.2 ≠ state.approvals.epoch + 1
  | .send id true =>
    (state.approvals.tasks.find? id).all fun task =>
      state.outbound.all fun connection =>
        state.approvals.registry.epochs.any fun named =>
          named.1 = task.token && connection.epoch = some named.2
  | _ => true

theorem distinct_of_check (state : EpochBroker) (action : Action)
    (hcheck : state.distinctCheck action = true) : state.Distinct action := by
  cases action with
  | takeEpoch =>
    intro token hmem
    have hnamed := List.all_eq_true.mp hcheck _ hmem
    simp at hnamed
  | send id queued =>
    cases queued with
    | false => trivial
    | true =>
      intro task hfind connection hslot
      simp only [distinctCheck, hfind, hslot, all_some,
        List.any_eq_true, Bool.and_eq_true, decide_eq_true_eq] at hcheck
      obtain ⟨⟨token, epoch⟩, hmem, rfl, hepoch⟩ := hcheck
      exact ⟨epoch, hmem, hepoch⟩
  | restart | openConnection | receive | lose | ingest | endReader
  | clearOutbound | markPresented | orphanEpoch | load | resolve => trivial

namespace TwoConnections

/-- The request the upstream numbers one. -/
def requestOne (connection epoch : Nat) : ServerRequest :=
  ⟨connection, epoch, .number 1, "item/fileChange/requestApproval", .obj []⟩

def arrive (connection epoch : Nat) (token : String) : List Action :=
  [.openConnection, .takeEpoch,
    .receive (.number 1) "item/fileChange/requestApproval" (.obj []),
    .ingest (requestOne connection epoch) "thread-1" token 0]

def accept (task : Nat) (token : String) : List Action :=
  [.load task "key-1" token .accept none, .send task true]

/-- One process, one reconnect: the same request id is registered again under
the second epoch, and each approval is answered where it came from. -/
def reconnected : List Action :=
  arrive 0 1 "approval_1" ++ accept 1 "approval_1" ++
    [.resolve 1 true, .endReader, .clearOutbound] ++
    arrive 1 2 "approval_2" ++ accept 2 "approval_2"

theorem reconnect_keeps_connections_apart :
    ∃ finish, GuardedRun step Distinct fresh reconnected finish ∧
      finish.Kept ∧
      finish.sent = [⟨0, "approval_1"⟩, ⟨1, "approval_2"⟩] := by
  have hlogs : (runGuarded step distinctCheck fresh reconnected).map
      EpochBroker.sent = some [⟨0, "approval_1"⟩, ⟨1, "approval_2"⟩] := by
    decide
  obtain ⟨finish, hrun, hsent⟩ := map_eq_some_iff.mp hlogs
  have run := guardedRun_of_runGuarded distinct_of_check hrun
  exact ⟨finish, run, epochs_tell_connections_apart run, hsent⟩

/-- What an observer sees of a run: the logs, and where the first approval came
from. -/
def observe (actions : List Action) :
    Option (List SentResponse × List RefusedRequest × Option Nat) :=
  (runActions step fresh actions).map fun state =>
    (state.sent, state.refused, state.originOf "approval_1")

/-- The process restarts before the answer. -/
def answeredAfterRestart : List Action :=
  arrive 0 1 "approval_1" ++ [.restart, .openConnection, .takeEpoch] ++
    accept 1 "approval_1"

def requestedAfterRestart : List Action :=
  arrive 0 1 "approval_1" ++ [.restart] ++ arrive 1 1 "approval_2"

def answeredBeforeEpoch : List Action :=
  arrive 0 1 "approval_1" ++ [.endReader, .clearOutbound, .openConnection] ++
    accept 1 "approval_1"

theorem not_kept_of_observe {actions : List Action}
    {sent : List SentResponse} {refused : List RefusedRequest}
    {origin : Option Nat}
    (hobserve : observe actions = some (sent, refused, origin))
    (hwrong : (∃ response ∈ sent, response.token = "approval_1" ∧
        origin ≠ some response.connection) ∨
      ∃ refusal ∈ refused, refusal.blockedBy = "approval_1" ∧
        origin ≠ some refusal.request.connection) :
    ∃ finish, runActions step fresh actions = some finish ∧
      ¬ finish.Kept := by
  obtain ⟨finish, hrun, hlogs⟩ := map_eq_some_iff.mp hobserve
  obtain ⟨rfl, hrest⟩ := Prod.mk.inj hlogs
  obtain ⟨rfl, rfl⟩ := Prod.mk.inj hrest
  refine ⟨finish, hrun, fun hkept => ?_⟩
  rcases hwrong with ⟨response, hmem, htoken, hne⟩ | ⟨refusal, hmem, htoken, hne⟩
  · exact hne (htoken ▸ hkept.answered response hmem)
  · exact hne (htoken ▸ hkept.unblocked refusal hmem)

/-- After a restart the first connection is number one again: an approval of
the earlier process is answered on it, and a request of it is refused because
of that approval.  Without a restart, a response can leave on a connection that
has not taken its number yet. -/
theorem epoch_one_is_taken_twice :
    (∃ finish, runActions step fresh answeredAfterRestart = some finish ∧
      ¬ finish.Kept) ∧
    (∃ finish, runActions step fresh requestedAfterRestart = some finish ∧
      ¬ finish.Kept) ∧
    ∃ finish, runActions step fresh answeredBeforeEpoch = some finish ∧
      ¬ finish.Kept := by
  have hrestart : observe answeredAfterRestart =
      some ([⟨1, "approval_1"⟩], [], some 0) := by decide
  have hrequest : observe requestedAfterRestart =
      some ([], [⟨requestOne 1 1, "approval_1"⟩], some 0) := by decide
  have hbefore : observe answeredBeforeEpoch =
      some ([⟨1, "approval_1"⟩], [], some 0) := by decide
  refine ⟨not_kept_of_observe hrestart ?_, not_kept_of_observe hrequest ?_,
    not_kept_of_observe hbefore ?_⟩
  · exact Or.inl ⟨_, mem_singleton_self _, rfl, by decide⟩
  · exact Or.inr ⟨_, mem_singleton_self _, rfl, by decide⟩
  · exact Or.inl ⟨_, mem_singleton_self _, rfl, by decide⟩

end TwoConnections

end EpochBroker

end Vellum.Broker

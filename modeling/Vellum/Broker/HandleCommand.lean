/-
What a command does once it reaches its handler: the checks before the record
is read, the answer a stored record gives, the claim that is written before
anything is sent, the execution, and what is stored of the outcome.  A
`thread.start` is handled by the coordinator on the client's connection, every
other command by the actor of a thread.
-/
import Vellum.Broker.CommandStore
import Vellum.Broker.ApprovalResponses
import Vellum.Broker.ThreadActor

namespace Vellum.Broker

/-- `char::is_whitespace`: the Unicode property `White_Space`. -/
def isWhitespace (c : Char) : Bool :=
  let code := c.toNat
  (9 ≤ code && code ≤ 13) || (0x2000 ≤ code && code ≤ 0x200A) ||
    code ∈ [0x20, 0x85, 0xA0, 0x1680, 0x2028, 0x2029, 0x202F, 0x205F, 0x3000]

/-- `text.trim().is_empty()`. -/
def isBlank (text : String) : Bool := text.toList.all isWhitespace

/-- What is sent to the upstream on behalf of a command. -/
inductive UpstreamCall where
  | call (method : String) (params : Json)
  | respond (requestId : JsonRpcId) (response : Json)
deriving DecidableEq

/-- What the rest of the broker and the upstream say while a command runs: the
writer lease of the thread, the answer to the call, the looked-up approval and
the current epoch, and the lease manager's answers (leases as their JSON). -/
structure CommandOutside where
  lease : Option WriterLeaseView
  answer : Except AppServerError Json
  approval : Except StoreError (Option StoredApproval)
  epoch : Nat
  acquire : Except StoreError (Except Json Json)
  released : Bool
deriving DecidableEq

/-- The answer to a call that is safe to repeat. -/
def plainAnswer (idempotencyKey : String) :
    Except AppServerError Json → ThreadCommandResult
  | .ok value => accepted idempotencyKey value
  | .error error =>
    failed idempotencyKey (.new .upstreamUnavailable error.toString true)

/-- The answer to a call with a side effect. -/
def effectAnswer (idempotencyKey : String) :
    Except AppServerError Json → ThreadCommandResult
  | .ok value => accepted idempotencyKey value
  | .error error => upstreamFailure idempotencyKey error

/-- Set a field when there is a value for it. -/
def optionalField (name : String) (value : Option String) :
    List (String × Json) :=
  (value.map fun text => (name, Json.str text)).toList

/-- The dispatch of `handle_command`: the result, and the call that was
made. -/
def dispatch (threadId : String) (request : ThreadCommandRequest)
    (outside : CommandOutside) : ThreadCommandResult × Option UpstreamCall :=
  let key := request.idempotencyKey
  match request.command with
  | .threadStart .. =>
    (failed key (.new .internalError
      "thread.start must be handled by broker coordinator" false), none)
  | .threadResume target =>
    if target ≠ threadId then
      (failed key (.new .threadNotFound
        "thread.resume target does not match actor thread" false), none)
    else
      (plainAnswer key outside.answer,
        some (.call "thread/resume" (.obj [("threadId", .str target)])))
  | .turnStart input settings =>
    let params : Json := .obj ([("threadId", .str threadId),
        ("input", .arr (input.map UserInput.toJson))] ++
      optionalField "model" settings.model ++
      optionalField "approvalPolicy" settings.approvalPolicy)
    (effectAnswer key outside.answer, some (.call "turn/start" params))
  | .turnSteer expectedTurnId clientUserMessageId input =>
    (plainAnswer key outside.answer,
      some (.call "turn/steer" (.obj [("threadId", .str threadId),
        ("expectedTurnId", .str expectedTurnId),
        ("clientUserMessageId", .str clientUserMessageId),
        ("input", .arr (input.map UserInput.toJson))])))
  | .turnInterrupt turnId =>
    (effectAnswer key outside.answer,
      some (.call "turn/interrupt"
        (.obj [("threadId", .str threadId), ("turnId", .str turnId)])))
  | .approvalRespond token decision =>
    match loadApproval outside.approval outside.epoch key with
    | .error result => (result, none)
    | .ok stored =>
      let call := some
        (.respond stored.upstreamRequestId (approvalResponse decision))
      match outside.answer with
      | .ok _ => (approvalAnswered key token, call)
      | .error error => (upstreamFailure key error, call)
  | .writerAcquire =>
    match outside.acquire with
    | .ok (.ok lease) => (accepted key lease, none)
    | .ok (.error holder) =>
      (failed key ⟨.writerLeaseConflict,
        "writer lease held by another device", true, holder⟩, none)
    | .error error =>
      (failed key (.new .internalError error.text true), none)
  | .writerRelease _ =>
    (accepted key (.obj [("released", .bool outside.released)]), none)
  | .threadArchive =>
    (plainAnswer key outside.answer,
      some (.call "thread/archive" (.obj [("threadId", .str threadId)])))

/-- A result that says how a command ended: it is not "still processing", and
it is no refusal of the key. -/
def Conclusive (result : ThreadCommandResult) : Prop :=
  result.status ≠ .processing ∧
    ∀ error, result.error = some error → error.code ≠ .commandConflict

section

variable (key : String)

theorem conclusive_accepted (value : Json) :
    Conclusive (accepted key value) := by
  simp [Conclusive, accepted]

theorem conclusive_completed (value : Json) :
    Conclusive (completed key value) := by
  simp [Conclusive, completed]

theorem conclusive_failed {error : RemoteError}
    (hcode : error.code ≠ .commandConflict) :
    Conclusive (failed key error) := by
  simpa [Conclusive, failed] using hcode

theorem conclusive_indeterminate : Conclusive (indeterminate key) := by
  simp [Conclusive, indeterminate, RemoteError.new]

theorem classifyUpstreamCommandError_code (error : AppServerError)
    (sideEffectful : Bool) :
    (classifyUpstreamCommandError error sideEffectful).2.code =
      .upstreamUnavailable := by
  cases error <;> cases sideEffectful <;> rfl

theorem conclusive_upstreamFailure (error : AppServerError) :
    Conclusive (upstreamFailure key error) := by
  have hcode := classifyUpstreamCommandError_code error true
  unfold upstreamFailure
  split
  · exact conclusive_indeterminate key
  · rename_i remoteError _ hclassify
    simp only [hclassify] at hcode
    exact conclusive_failed key (by simp [hcode])

theorem conclusive_plainAnswer (answer : Except AppServerError Json) :
    Conclusive (plainAnswer key answer) := by
  cases answer with
  | ok value => exact conclusive_accepted key value
  | error error => exact conclusive_failed key (by simp [RemoteError.new])

theorem conclusive_effectAnswer (answer : Except AppServerError Json) :
    Conclusive (effectAnswer key answer) := by
  cases answer with
  | ok value => exact conclusive_accepted key value
  | error error => exact conclusive_upstreamFailure key error

end

theorem conclusive_loadApproval
    {lookup : Except StoreError (Option StoredApproval)} {epoch : Nat}
    {key : String} {result : ThreadCommandResult}
    (hload : loadApproval lookup epoch key = .error result) :
    Conclusive result := by
  unfold loadApproval at hload
  split at hload
  · rw [← Except.error.inj hload]
    exact conclusive_failed key (by simp [RemoteError.new])
  · rw [← Except.error.inj hload]
    exact conclusive_failed key (by simp [RemoteError.new])
  · split at hload
    · rw [← Except.error.inj hload]
      exact conclusive_failed key (by simp [RemoteError.new])
    · cases hload

theorem conclusive_dispatch (threadId : String)
    (request : ThreadCommandRequest) (outside : CommandOutside) :
    Conclusive (dispatch threadId request outside).1 := by
  unfold dispatch
  cases request.command with
  | threadStart => exact conclusive_failed _ (by simp [RemoteError.new])
  | threadResume target =>
    simp only
    split
    · exact conclusive_failed _ (by simp [RemoteError.new])
    · exact conclusive_plainAnswer _ _
  | turnStart => exact conclusive_effectAnswer _ _
  | turnSteer => exact conclusive_plainAnswer _ _
  | turnInterrupt => exact conclusive_effectAnswer _ _
  | approvalRespond token decision =>
    simp only
    split
    · rename_i result hload
      exact conclusive_loadApproval hload
    · split
      · exact conclusive_completed _ _
      · exact conclusive_upstreamFailure _ _
  | writerAcquire =>
    simp only
    split
    · exact conclusive_accepted _ _
    · exact conclusive_failed _ (by simp)
    · exact conclusive_failed _ (by simp [RemoteError.new])
  | writerRelease => exact conclusive_accepted _ _
  | threadArchive => exact conclusive_plainAnswer _ _

/-- Whether the device may write: it holds the lease, under the expected id
when it names one. -/
def writerAllowed (expected : Option String) (lease : Option WriterLeaseView)
    (deviceId : String) : Bool :=
  match expected, lease with
  | some expected, some current =>
    expected = current.leaseId && current.holderDeviceId = deviceId
  | none, some current => current.holderDeviceId = deviceId
  | _, none => false

/-- An executed command: its result, the call it made, and what is stored. -/
structure Executed where
  result : ThreadCommandResult
  call : Option UpstreamCall
  threadId : Option String
  state : CommandState
  storedResult : Option Json
  storedError : Option RemoteError

/-- Execution on an actor.  A refused writer is stored without a result. -/
def executeCommand (threadId deviceId : String)
    (request : ThreadCommandRequest) (outside : CommandOutside) : Executed :=
  if requiresWriter request.command && !writerAllowed
      request.expectedWriterLeaseId outside.lease deviceId then
    let result := leaseRequired request.idempotencyKey
    ⟨result, none, some threadId, .failed, none, result.error⟩
  else
    let (result, call) := dispatch threadId request outside
    ⟨result, call, some threadId, .ofStatus result.status, some result.result,
      result.error⟩

def parseCreatedThreadId (value : Json) : Option String :=
  (extractThreadId value).or ((value.get "result").bind extractThreadId)

/-- Execution of `thread.start` on the coordinator. -/
def startThread (idempotencyKey cwd : String)
    (model approvalPolicy : Option String)
    (answer : Except AppServerError Json) : Executed :=
  let call := some (.call "thread/start" (.obj ([("cwd", .str cwd)] ++
    optionalField "model" model ++
    optionalField "approvalPolicy" approvalPolicy)))
  match answer with
  | .ok value =>
    match parseCreatedThreadId value with
    | none =>
      let error := RemoteError.new .upstreamUnavailable
        "thread/start response missing thread.id" true
      ⟨failed idempotencyKey error, call, none, .failed, none, some error⟩
    | some threadId =>
      let result : Json := .obj [("threadId", .str threadId),
        ("thread", .obj [("id", .str threadId)]), ("upstream", value)]
      ⟨completed idempotencyKey result, call, some threadId, .completed,
        some result, none⟩
  | .error error =>
    match classifyUpstreamCommandError error true with
    | (.indeterminate, remoteError) =>
      ⟨indeterminate idempotencyKey, call, none, .indeterminate, none,
        some remoteError⟩
    | (_, remoteError) =>
      ⟨failed idempotencyKey remoteError, call, none, .failed, none,
        some remoteError⟩

/-- One arrival of a command at its handler. -/
inductive Attempt where
  | threadStart (deviceId idempotencyKey cwd : String)
      (model approvalPolicy : Option String)
  | actorCommand (threadId deviceId : String) (request : ThreadCommandRequest)
deriving DecidableEq

namespace Attempt

def key : Attempt → String
  | .threadStart _ idempotencyKey .. => idempotencyKey
  | .actorCommand _ _ request => request.idempotencyKey

def deviceId : Attempt → String
  | .threadStart deviceId .. => deviceId
  | .actorCommand _ deviceId _ => deviceId

def command : Attempt → ThreadCommand
  | .threadStart _ _ cwd model approvalPolicy =>
    .threadStart cwd model approvalPolicy
  | .actorCommand _ _ request => request.command

variable (digest : Json → String) (attempt : Attempt)

def kind : String := commandKind attempt.command

/-- The payload that is hashed. -/
def commandJson : Json := attempt.command.toJson

/-- The answer given before the record is looked at, if any.  `workspace` is
what `validate_workspace_cwd` finds wrong. -/
def refusal (workspace : Option RemoteError) :
    Attempt → Option ThreadCommandResult
  | .threadStart _ idempotencyKey .. =>
    workspace.map (failed idempotencyKey)
  | .actorCommand _ _ request =>
    if isBlank request.idempotencyKey then
      some (failed request.idempotencyKey
        (.new .commandConflict "idempotencyKey is required" false))
    else none

/-- The answer to a command whose record is still in progress. -/
def stillProcessing : Attempt → ThreadCommandResult
  | .threadStart _ idempotencyKey .. =>
    failed idempotencyKey (.new .commandConflict
      "thread.start with this idempotency key is already processing" true)
  | .actorCommand _ _ request => processing request.idempotencyKey

/-- The error for a key whose record belongs to another command. -/
def identityConflict : ThreadCommandResult :=
  failed attempt.key (.new .commandConflict
    "idempotency key reused with different command identity" false)

/-- The answer a stored record gives, `none` where the handler goes on as if
there were no record.  The digest is of the serialized command. -/
def replay (row : CommandRow) (attempt : Attempt) :
    Option ThreadCommandResult :=
  let sha := digest attempt.commandJson
  let otherSha := row.commandSha256.any (· ≠ sha)
  match attempt with
  | .threadStart deviceId key .. =>
    if row.deviceId ≠ deviceId then
      some (failed key (.new .unauthenticated
        "idempotency key owned by another device" false))
    else if row.commandKind ≠ "thread.start" then
      some (failed key (.new .commandConflict
        "idempotency key reused for a different command kind" false))
    else if otherSha then
      some (failed key (.new .commandConflict
        "idempotency key reused with different command payload" false))
    else
      match row.state with
      | .completed => some (completed key (row.result.getD .null))
      | .failed =>
        some (failed key (row.error.getD (.new .internalError
          "previous thread.start failed" true)))
      | .processing => some attempt.stillProcessing
      | .indeterminate => some (indeterminate key)
      | .other _ => none
  | .actorCommand _ deviceId request =>
    let key := request.idempotencyKey
    if row.deviceId ≠ deviceId ∨ row.commandKind ≠ attempt.kind ∨ otherSha then
      some attempt.identityConflict
    else
      match row.state with
      | .processing => some attempt.stillProcessing
      | .completed => some (completed key (row.result.getD .null))
      | .failed => some ⟨key, .failed, .null, row.error⟩
      | .indeterminate => some (indeterminate key)
      | .other text =>
        some (failed key (.new .commandConflict
          ("unsupported stored command state: " ++ text) false))

/-- The row written before anything is sent. -/
def claimRow : CommandRow where
  idempotencyKey := attempt.key
  deviceId := attempt.deviceId
  threadId := match attempt with
    | .threadStart .. => none
    | .actorCommand threadId _ request => request.threadId.or (some threadId)
  commandKind := attempt.kind
  command := attempt.commandJson
  state := .processing
  result := none
  error := none
  commandSha256 := some (digest attempt.commandJson)

/-- The answer when the claim cannot be written. -/
def unclaimed (error : StoreError) (attempt : Attempt) : ThreadCommandResult :=
  failed attempt.key (.new .internalError
    ("failed to persist command intent: " ++ error.text) true)

def execute (outside : CommandOutside) : Attempt → Executed
  | .threadStart _ idempotencyKey cwd model approvalPolicy =>
    startThread idempotencyKey cwd model approvalPolicy outside.answer
  | .actorCommand threadId deviceId request =>
    executeCommand threadId deviceId request outside

/-- What execution leaves to be stored: one of the three final states, and no
refusal of the key as the error. -/
theorem execute_settles (outside : CommandOutside) (attempt : Attempt) :
    (attempt.execute outside).state ∈
        [CommandState.completed, .failed, .indeterminate] ∧
      ∀ error, (attempt.execute outside).storedError = some error →
        error.code ≠ .commandConflict := by
  cases attempt with
  | threadStart deviceId key cwd model approvalPolicy =>
    simp only [execute, startThread]
    split
    · split
      · simp [RemoteError.new]
      · simp
    · rename_i error _
      have hcode := classifyUpstreamCommandError_code error true
      split
      · rename_i hclassify
        simp_all
      · rename_i hclassify
        simp_all
  | actorCommand threadId deviceId request =>
    simp only [execute, executeCommand]
    split
    · simp [leaseRequired, failed, RemoteError.new]
    · have hresult := conclusive_dispatch threadId request outside
      refine ⟨?_, hresult.2⟩
      cases hstatus : (dispatch threadId request outside).1.status with
      | processing => exact absurd hstatus hresult.1
      | accepted | completed | failed | indeterminate =>
        simp [CommandState.ofStatus]

/-- The row written when the command is done. -/
def settledRow (executed : Executed) (attempt : Attempt) : CommandRow :=
  { attempt.claimRow digest with
    threadId := executed.threadId
    state := executed.state
    result := executed.storedResult
    error := executed.storedError }

variable (digest : Json → String) (attempt : Attempt)

/-- A record in a known state always answers. -/
theorem replay_isSome (row : CommandRow)
    (hstate : ∀ text, row.state ≠ .other text) (attempt : Attempt) :
    (attempt.replay digest row).isSome := by
  cases attempt with
  | threadStart deviceId key cwd model approvalPolicy =>
    simp only [replay]
    split
    · rfl
    · split
      · rfl
      · split
        · rfl
        · cases hrow : row.state with
          | other text => exact absurd hrow (hstate text)
          | processing | completed | failed | indeterminate => rfl
  | actorCommand threadId deviceId request =>
    simp only [replay]
    split
    · rfl
    · cases hrow : row.state with
      | other text => exact absurd hrow (hstate text)
      | processing | completed | failed | indeterminate => rfl

theorem wellformed_claimRow : (attempt.claimRow digest).Wellformed := by
  simp [CommandRow.Wellformed, claimRow]

theorem wellformed_settledRow (outside : CommandOutside) :
    (attempt.settledRow digest (attempt.execute outside)).Wellformed ∧
      (attempt.settledRow digest (attempt.execute outside)).state ≠
        .processing := by
  obtain ⟨hstate, herror⟩ := attempt.execute_settles outside
  refine ⟨⟨?_, herror⟩, ?_⟩
  · intro text hother
    rw [show (attempt.execute outside).state = .other text from hother]
      at hstate
    simp at hstate
  · intro hprocessing
    rw [show (attempt.execute outside).state = .processing from hprocessing]
      at hstate
    simp at hstate

end Attempt

end Vellum.Broker

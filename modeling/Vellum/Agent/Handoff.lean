/-
Handoffs of a thread to a remote host (`vellum-remote-agent/src/handoff.rs`).
The agent prepares a worktree and has the daemon there start a thread and one
turn.  What it is about to do is recorded before each call that must not be
repeated; a later start or poll looks at what the daemon has and goes on from
the record.
-/
import Vellum.Library.HashMap
import Vellum.Library.Json
import Vellum.Library.Program
import Vellum.Library.Text
import Vellum.Library.Utf8Slice

namespace Vellum.Agent

/-- What handoffs use of other crates: the digest of a request, and the parser
of JSON. -/
structure HandoffCrates where
  requestFingerprint : Json → String
  parseJson : String → Option Json

structure StartRequest where
  operationId : String
  repoId : String
  snapshotCommit : String
  sourceThreadId : String
  brief : String
  model : String
  modelProvider : String
  effort : String
  prepareOnly : Bool := false

structure ResultRequest where
  handoffId : String
  capture : Bool := false
  operationId : Option String := none

structure FileStat where
  path : String
  added : Option UInt64
  deleted : Option UInt64

structure Capture where
  excludedCacheFiles : Nat := 0
  resultRef : String
  commit : String
  snapshotCommit : String
  isPartial : Bool
  diffstat : List FileStat

inductive Phase where
  | prepared
  | worktreeReady
  | threadStarting
  | threadAdopted
  | threadReady
  | turnStarting
  | running
deriving DecidableEq

structure Record where
  request : StartRequest
  fingerprint : String
  phase : Phase
  threadId : Option String
  turnId : Option String
  captures : HashMap String Capture
  captureIntents : HashMap String Bool

structure HandoffStatus where
  providerError : Option Json := none
  handoffId : String
  sourceThreadId : String
  state : String
  phase : Phase
  repoPath : String
  worktree : String
  snapshotRef : String
  threadId : Option String
  turnId : Option String
  turnStatus : Option String
  plan : List String
  recentOutput : String
  summary : String
  capture : Option Capture

structure Layout where
  root : String
  repo : String
  worktree : String
  snapshotRef : String
  objectFormat : String

/-- `Path::join` with a relative path. -/
def joinPath (base name : String) : String :=
  if base.toList.getLast? = some '/' then base ++ name else base ++ "/" ++ name

def Layout.new (pathsRoot : String) (request : StartRequest) : Layout :=
  let root := joinPath pathsRoot "handoffs"
  { root
    repo := joinPath (joinPath root "repos") (request.repoId ++ ".git")
    worktree := joinPath (joinPath root "work") request.operationId
    snapshotRef := "refs/vellum-handoff/" ++ request.operationId
    objectFormat :=
      if request.snapshotCommit.utf8ByteSize = 64 then "sha256" else "sha1" }

def pinnedNotMaterialized : String := "not materialized"

variable (crates : HandoffCrates) (record : Record)

def notMaterialized (error : String) : Bool :=
  let front := "HandoffDaemonRpcError: thread/read: ".toList
  if front.isPrefixOf error.toList then
    match crates.parseJson (String.ofList (error.toList.drop front.length)) with
    | some body =>
      (body.get "code").bind Json.asI64 = some (-32600) &&
        match (body.get "message").bind Json.asStr with
        | some message =>
          containsBlock pinnedNotMaterialized.toList message.toList
        | none => false
    | none => false
  else false

def validId (value : String) : Bool :=
  value ≠ "" && value.utf8ByteSize ≤ 96 &&
    value.toList.all fun c => c.isAlphanum || c = '-' || c = '_'

def isHexDigit (c : Char) : Bool :=
  c.isDigit || ('a' ≤ c && c ≤ 'f') || ('A' ≤ c && c ≤ 'F')

def validCommit (value : String) : Bool :=
  (value.utf8ByteSize = 40 || value.utf8ByteSize = 64) &&
    value.toList.all isHexDigit

/-- `char::is_control`. -/
def isControl (c : Char) : Bool :=
  c.toNat < 0x20 || (0x7f ≤ c.toNat && c.toNat < 0xa0)

def validate (request : StartRequest) : Except String Unit :=
  if !validId request.operationId || !validId request.repoId ||
      !validCommit request.snapshotCommit ||
      request.sourceThreadId = "" || request.sourceThreadId.utf8ByteSize > 256 ||
      Text.isBlank request.brief.toList ||
      request.brief.utf8ByteSize > 128 * 1024 ||
      [request.model, request.modelProvider].any (fun v =>
        v = "" || v.utf8ByteSize > 256 || v.toList.any isControl) ||
      request.effort ∉ ["none", "minimal", "low", "medium", "high", "xhigh",
        "max", "ultra"] then
    .error "HandoffRequestInvalid"
  else .ok ()

/-- What a handoff asks of the host and of its client. -/
inductive HandoffOp where
  | preflight
  | acquireLock
  | releaseLock
  | recordExists (id : String)
  | readRecord (id : String)
  | writeRecord (record : Record)
  | prepareRepo (layout : Layout)
  | prepareWorktree (layout : Layout) (snapshot : String)
  | rpc (method : String) (params : Json)
  | capture (layout : Layout) (snapshot resultRef : String) (isPartial : Bool)

@[reducible]
def HandoffAnswer : HandoffOp → Type
  | .releaseLock => Unit
  | .recordExists _ => Except String Bool
  | .readRecord _ => Except String Record
  | .rpc _ _ => Except String Json
  | .capture _ _ _ _ => Except String Capture
  | _ => Except String Unit

/-- A part of a handoff; it gives up at the first error. -/
abbrev Attempt := Program.Fallible HandoffOp HandoffAnswer

def ask (op : HandoffOp) : Program HandoffOp HandoffAnswer (HandoffAnswer op) :=
  Program.perform op

/-- The `?` of a result that is at hand. -/
def ofExcept (result : Except String α) : Attempt α :=
  ExceptT.mk (.done result)

def preflight : Attempt Unit := ExceptT.mk (ask .preflight)

def acquireLock : Attempt Unit := ExceptT.mk (ask .acquireLock)

def recordExists (id : String) : Attempt Bool :=
  ExceptT.mk (ask (.recordExists id))

def readRecord (id : String) : Attempt Record :=
  ExceptT.mk (ask (.readRecord id))

def save : Attempt Unit :=
  ExceptT.mk (ask (.writeRecord record))

def prepareRepo (layout : Layout) : Attempt Unit :=
  ExceptT.mk (ask (.prepareRepo layout))

def prepareWorktree (layout : Layout) (snapshot : String) : Attempt Unit :=
  ExceptT.mk (ask (.prepareWorktree layout snapshot))

def rpc (method : String) (params : Json) : Attempt Json :=
  ExceptT.mk (ask (.rpc method params))

variable (layout : Layout) (explicitStart : Bool)

def takeCapture (snapshot resultRef : String) (isPartial : Bool) :
    Attempt Capture :=
  ExceptT.mk (ask (.capture layout snapshot resultRef isPartial))

/-- The lock is given back wherever the body returns. -/
def whileLocked (body : Attempt α) : Attempt α := do
  acquireLock
  ExceptT.mk (body.run.bind fun result =>
    .call .releaseLock fun _ => .done result)

def load (id : String) : Attempt Record := do
  if !validId id then
    throw "HandoffRequestInvalid: invalid handoff id"
  else
    let record ← readRecord id
    ofExcept (validate record.request)
    if record.request.operationId ≠ id then
      throw "HandoffRecordIdentityMismatch"
    else pure record

def Phase.state : Phase → String
  | prepared | worktreeReady | threadReady => "prepared"
  | threadStarting | threadAdopted | turnStarting => "indeterminate"
  | running => "running"

def status : HandoffStatus where
  handoffId := record.request.operationId
  sourceThreadId := record.request.sourceThreadId
  state := record.phase.state
  phase := record.phase
  repoPath := layout.repo
  worktree := layout.worktree
  snapshotRef := layout.snapshotRef
  threadId := record.threadId
  turnId := record.turnId
  turnStatus := none
  plan := []
  recentOutput := ""
  summary := ""
  capture := none

/-- The fields of the request as JSON. -/
def StartRequest.toJson (request : StartRequest) : Json :=
  .obj [("operationId", .str request.operationId),
    ("repoId", .str request.repoId),
    ("snapshotCommit", .str request.snapshotCommit),
    ("sourceThreadId", .str request.sourceThreadId),
    ("brief", .str request.brief), ("model", .str request.model),
    ("modelProvider", .str request.modelProvider),
    ("effort", .str request.effort),
    ("prepareOnly", .bool request.prepareOnly)]

def strAt (path : List String) (value : Json) : Option String :=
  (value.pointer path).bind Json.asStr

def boolAt (path : List String) (value : Json) : Option Bool :=
  (value.pointer path).bind Json.asBool

/-- A string field that holds a valid id. -/
def idAt (path : List String) (value : Json) : Option String :=
  (strAt path value).filter validId

def qualifyConfiguration (response : Json) : Except String Unit :=
  let outside :=
    match (response.pointer ["sandbox", "writableRoots"]).bind Json.asArr with
    | some roots => roots.any fun path => path.asStr ≠ some layout.worktree
    | none => true
  if strAt ["model"] response ≠ some record.request.model ||
      strAt ["modelProvider"] response ≠ some record.request.modelProvider ||
      strAt ["cwd"] response ≠ some layout.worktree ||
      strAt ["sandbox", "type"] response ≠ some "workspaceWrite" ||
      strAt ["approvalPolicy"] response ≠ some "never" ||
      strAt ["reasoningEffort"] response ≠ some record.request.effort ||
      boolAt ["sandbox", "excludeTmpdirEnvVar"] response ≠ some true ||
      boolAt ["sandbox", "excludeSlashTmp"] response ≠ some true ||
      boolAt ["sandbox", "networkAccess"] response ≠ some false ||
      outside then
    .error "HandoffConfigurationMismatch: daemon did not preserve model, cwd or workspace-write policy"
  else .ok ()

def listParams (cursor : Json) : Json :=
  .obj [("cwd", .str layout.worktree), ("cursor", cursor),
    ("limit", .nat 100), ("modelProviders", .arr []),
    ("useStateDbOnly", .bool true),
    ("sourceKinds", .arr (["cli", "vscode", "exec", "appServer", "subAgent",
      "subAgentReview", "subAgentCompact", "subAgentThreadSpawn",
      "subAgentOther", "unknown"].map Json.str))]

/-- The ids of the threads of a page that run in the worktree. -/
def collectCandidates (layout : Layout) :
    List Json → List String → Except String (List String)
  | [], candidates => .ok candidates
  | thread :: rest, candidates =>
    if strAt ["cwd"] thread = some layout.worktree then
      match idAt ["id"] thread with
      | some id => collectCandidates layout rest (candidates.insert id)
      | none => .error "HandoffResponseInvalid: thread/list invalid id"
    else collectCandidates layout rest candidates

/-- What a complete list of candidates says about a thread that was being
started. -/
def adoptCandidate (candidates : List String) : Attempt Record :=
  match candidates.head? with
  | some id =>
    if record.threadId.all (· = id) then do
      let record :=
        { record with threadId := some id, phase := .threadAdopted }
      save record
      pure record
    else pure record
  | none =>
    if explicitStart && record.threadId.isNone then do
      let record := { record with phase := .worktreeReady }
      save record
      pure record
    else pure record

/-- The pages of `thread/list`, at most as many as there is fuel. -/
def listPages (record : Record) (layout : Layout) (explicitStart : Bool) :
    Nat → Json → List String → Attempt Record
  | 0, _, _ => pure record
  | fuel + 1, cursor, candidates => do
      let page ← rpc "thread/list" (listParams layout cursor)
      match (page.get "data").bind Json.asArr with
      | none => throw "HandoffResponseInvalid: thread/list missing data"
      | some threads =>
        let candidates ←
          ofExcept (collectCandidates layout threads candidates)
        if candidates.length > 1 then pure record
        else
          match page.get "nextCursor" with
          | some .null => adoptCandidate record explicitStart candidates
          | some (.str next) =>
            if cursor.asStr ≠ some next then
              listPages record layout explicitStart fuel (.str next)
                candidates
            else throw "HandoffResponseInvalid: thread/list invalid cursor"
          | _ => throw "HandoffResponseInvalid: thread/list invalid cursor"

def readParams : Json :=
  .obj [("threadId", Json.ofOption record.threadId),
    ("includeTurns", .bool true)]

/-- What the daemon's thread says about a turn that was being started. -/
def observeTurn (response : Json) : Attempt Record :=
  match response.get "thread" with
  | none => throw "HandoffResponseInvalid: thread missing"
  | some thread =>
    if strAt ["id"] thread ≠ record.threadId ||
        strAt ["cwd"] thread ≠ some layout.worktree then
      throw "HandoffStartIndeterminate: observed thread identity/cwd changed"
    else
      match (thread.get "turns").bind Json.asArr with
      | none => throw "HandoffResponseInvalid: turns missing"
      | some [turn] =>
        match idAt ["id"] turn with
        | none => throw "HandoffResponseInvalid: turn id missing"
        | some id => do
            let record := { record with turnId := some id, phase := .running }
            save record
            pure record
      | some _ => pure record

/-- What `thread/read` answers about a turn that was being started. -/
def answerTurn : Except String Json → Attempt Record
  | .ok response => observeTurn record layout response
  | .error error =>
    if notMaterialized crates error then
      if explicitStart then do
        let record := { record with phase := .threadReady }
        save record
        pure record
      else pure record
    else throw error

/-- The source's `reconcile`: only looks at the daemon; nothing is started
here. -/
def reconcile : Attempt Record :=
  match record.phase with
  | .threadStarting => listPages record layout explicitStart 2 .null []
  | .turnStarting =>
    ExceptT.mk ((rpc "thread/read" (readParams record)).run.bind fun answer =>
      (answerTurn crates record layout explicitStart answer).run)
  | _ => pure record

/-! The steps of a start, from the phase the record is in. -/

/-- The record of the handoff: a new one, or the one of an earlier start of
the same request. -/
def openRecord (request : StartRequest) : Attempt Record := do
  let fingerprint := crates.requestFingerprint request.toJson
  if !validId request.operationId then
    throw "HandoffRequestInvalid: invalid handoff id"
  else
    if ← recordExists request.operationId then
      let record ← load request.operationId
      if record.fingerprint ≠ fingerprint then
        throw "OperationConflict: handoff request changed"
      else pure record
    else
      let record : Record :=
        { request, fingerprint, phase := .prepared, threadId := none
          turnId := none, captures := .empty, captureIntents := .empty }
      save record
      pure record

def Phase.isStarting (phase : Phase) : Bool :=
  phase = .threadStarting || phase = .turnStarting

/-- A request that only prepares does not look at the daemon. -/
def reconcileUnless (prepareOnly : Bool) : Attempt Record :=
  if prepareOnly then pure record else reconcile crates record layout true

def settleStarting (prepareOnly : Bool) : Attempt Record :=
  if record.phase.isStarting then do
    let record ← reconcileUnless crates record layout prepareOnly
    if record.phase.isStarting then
      throw "HandoffStartIndeterminate: daemon evidence does not authorize replay"
    else pure record
  else pure record

def readyWorktree : Attempt Record :=
  match record.phase with
  | .prepared => do
      prepareWorktree layout record.request.snapshotCommit
      let record := { record with phase := .worktreeReady }
      save record
      pure record
  | .worktreeReady | .threadReady | .threadAdopted => do
      prepareWorktree layout record.request.snapshotCommit
      pure record
  | _ => pure record

def resumeAdopted : Attempt Record :=
  if record.phase = .threadAdopted then do
    let response ← rpc "thread/resume"
      (.obj [("threadId", Json.ofOption record.threadId)])
    if strAt ["thread", "id"] response ≠ record.threadId ||
        strAt ["cwd"] response ≠ some layout.worktree ||
        strAt ["thread", "cwd"] response ≠ some layout.worktree then
      throw "HandoffStartIndeterminate: resumed thread identity/cwd changed"
    else
      ofExcept (qualifyConfiguration record layout response)
      if (response.pointer ["thread", "turns"]).bind Json.asArr ≠ some [] then
        throw "HandoffStartIndeterminate: adopted thread already contains turns"
      else
        let record := { record with phase := .threadReady }
        save record
        pure record
  else pure record

def threadStartParams : Json :=
  .obj [("cwd", .str layout.worktree),
    ("runtimeWorkspaceRoots", .arr [.str layout.worktree]),
    ("model", .str record.request.model),
    ("modelProvider", .str record.request.modelProvider),
    ("allowProviderModelFallback", .bool false),
    ("approvalPolicy", .str "never"), ("sandbox", .str "workspace-write"),
    ("ephemeral", .bool false), ("serviceName", .str "vellum-remote-handoff"),
    ("config", .obj [("model_reasoning_effort", .str record.request.effort),
      ("sandbox_workspace_write.network_access", .bool false),
      ("sandbox_workspace_write.exclude_tmpdir_env_var", .bool true),
      ("sandbox_workspace_write.exclude_slash_tmp", .bool true)])]

def startThread : Attempt Record :=
  if record.phase = .worktreeReady then do
    let record := { record with phase := .threadStarting }
    save record
    let response ← rpc "thread/start" (threadStartParams record layout)
    match idAt ["thread", "id"] response with
    | none => throw "HandoffResponseInvalid: thread id missing"
    | some id =>
      let record := { record with threadId := some id }
      save record
      ofExcept (qualifyConfiguration record layout response)
      let record := { record with phase := .threadReady }
      save record
      pure record
  else pure record

def turnStartParams : Json :=
  .obj [("threadId", Json.ofOption record.threadId),
    ("clientUserMessageId", .str record.request.operationId),
    ("cwd", .str layout.worktree), ("model", .str record.request.model),
    ("effort", .str record.request.effort),
    ("approvalPolicy", .str "never"),
    ("sandboxPolicy", .obj [("type", .str "workspaceWrite"),
      ("writableRoots", .arr [.str layout.worktree]),
      ("networkAccess", .bool false), ("excludeTmpdirEnvVar", .bool true),
      ("excludeSlashTmp", .bool true)]),
    ("input", .arr [.obj [("type", .str "text"),
      ("text", .str ("Do not commit or create branches; Vellum captures worktree changes.\n\n"
        ++ record.request.brief)),
      ("text_elements", .arr [])]])]

def startTurn : Attempt Record :=
  if record.phase = .threadReady then do
    let record := { record with phase := .turnStarting }
    save record
    let response ← rpc "turn/start" (turnStartParams record layout)
    match idAt ["turn", "id"] response with
    | none => throw "HandoffResponseInvalid: turn id missing"
    | some id =>
      let record := { record with turnId := some id, phase := .running }
      save record
      pure record
  else pure record

/-- A start once the lock is held. -/
def startLocked (pathsRoot : String) (request : StartRequest) :
    Attempt HandoffStatus := do
  preflight
  let prepareOnly := request.prepareOnly
  let request := { request with prepareOnly := false }
  let layout := Layout.new pathsRoot request
  let record ← openRecord crates request
  let record ← settleStarting crates record layout prepareOnly
  if record.phase = .running then pure (status record layout)
  else
    prepareRepo layout
    if prepareOnly then pure (status record layout)
    else
      let record ← readyWorktree record layout
      let record ← resumeAdopted record layout
      let record ← startThread record layout
      let record ← startTurn record layout
      pure (status record layout)

def startWith (pathsRoot : String) (request : StartRequest) :
    Attempt HandoffStatus := do
  ofExcept (validate request)
  if pathsRoot.toList.head? ≠ some '/' then
    throw "HandoffPathUnsafe: state root must be absolute"
  else
    preflight
    whileLocked (startLocked crates pathsRoot request)

/-! The result of a handoff. -/

/-- The end of a text, at most as many bytes as the limit. -/
def tail (limit : Nat) : List Char → List Char
  | [] => []
  | c :: rest =>
    if Utf8Slice.byteLen (c :: rest) ≤ limit then c :: rest else tail limit rest

/-- `text.lines().next().unwrap_or_default()`. -/
def firstLine (text : List Char) : List Char :=
  let line := text.takeWhile (· ≠ '\n')
  if line.length < text.length && line.getLast? = some '\r' then line.dropLast
  else line

def providerError (error : Json) : Json :=
  let info := (error.get "codexErrorInfo").getD .null
  let details := (info.asObj.getD []).findSome? fun detail =>
    detail.2.get "httpStatusCode"
  let status := ((info.get "httpStatusCode").orElse fun _ =>
    details.orElse fun _ => error.get "httpStatusCode").getD .null
  let message := ((error.get "message").bind Json.asStr).getD
    "Provider request failed"
  .obj [("provider", .str record.request.modelProvider),
    ("route", .str record.request.model), ("status", status),
    ("message", .str (String.ofList
      ((firstLine message.toList).take 512)))]

/-- What an item of the turn adds to the status. -/
def readItem (result : HandoffStatus) (item : Json) : HandoffStatus :=
  let textOf := fun name limit => String.ofList
    (tail limit (((item.get name).bind Json.asStr).getD "").toList)
  match strAt ["type"] item with
  | some "plan" =>
    if result.plan.length < 32 then
      { result with plan := result.plan ++ [textOf "text" 4096] }
    else result
  | some "commandExecution" =>
    { result with recentOutput := textOf "aggregatedOutput" (16 * 1024) }
  | some "agentMessage" => { result with summary := textOf "text" 8192 }
  | _ => result

/-- What the turn of the handoff says. -/
def readTurn (result : HandoffStatus) (turn : Json) (turnStatus : String) :
    HandoffStatus :=
  let result := { result with turnStatus := some turnStatus }
  let result :=
    if turnStatus = "failed" then
      match (turn.get "error").filter fun error => !error.isNull with
      | some error =>
        { result with providerError := some (providerError record error) }
      | none => result
    else result
  let result :=
    { result with
      state := if turnStatus = "inProgress" then "running" else turnStatus }
  (((turn.get "items").bind Json.asArr).getD []).foldl readItem result

/-- Something in the thread may still be editing. -/
def isActive (thread : Json) : Bool :=
  (match strAt ["status", "type"] thread with
    | some "idle" | some "notLoaded" | some "systemError" => false
    | _ => true) ||
  ((((thread.get "turns").bind Json.asArr).getD []).any fun turn =>
    strAt ["status"] turn = some "inProgress")

def captureResult (handoffId operation : String) (thread : Json)
    (turnStatus : String) (result : HandoffStatus) : Attempt HandoffStatus := do
  let resultRef :=
    "refs/vellum-handoff-results/" ++ handoffId ++ "/" ++ operation
  let intent := (record.captureIntents.get operation).getD
    (isActive thread || turnStatus ≠ "completed")
  let record :=
    { record with
      captureIntents := record.captureIntents.insert operation intent }
  save record
  let capture ←
    takeCapture layout record.request.snapshotCommit resultRef intent
  let record :=
    { record with captures := record.captures.insert operation capture }
  save record
  pure { result with capture := some capture }

def observeResult (request : ResultRequest) (result : HandoffStatus)
    (response : Json) : Attempt HandoffStatus :=
  match response.get "thread" with
  | none => throw "HandoffResponseInvalid: thread/read missing thread"
  | some thread =>
    if strAt ["id"] thread ≠ record.threadId ||
        strAt ["cwd"] thread ≠ some layout.worktree then
      throw "HandoffResponseInvalid: remote thread identity/cwd changed"
    else
      match ((thread.get "turns").bind Json.asArr).bind fun turns =>
          turns.find? fun turn => strAt ["id"] turn = record.turnId with
      | none =>
        throw "incompleteObservation: handoff turn is not observable"
      | some turn =>
        match (strAt ["status"] turn).filter fun status => status ∈
            ["inProgress", "completed", "interrupted", "failed"] with
        | none =>
          throw "incompleteObservation: unknown handoff turn status"
        | some turnStatus =>
          let result := readTurn record result turn turnStatus
          if request.capture then
            match request.operationId with
            | none => throw "HandoffRequestInvalid"
            | some operation =>
              captureResult record layout request.handoffId operation
                thread turnStatus result
          else pure result

/-- The capture that an earlier poll has taken for the operation. -/
def earlierCapture (request : ResultRequest) : Option Capture :=
  if request.capture then record.captures.get (request.operationId.getD "")
  else none

/-- A poll once it holds the lock, or has found that it needs none. -/
def resultLoaded (pathsRoot : String) (request : ResultRequest) :
    Attempt HandoffStatus := do
  let record ← load request.handoffId
  let layout := Layout.new pathsRoot record.request
  let record ← reconcile crates record layout false
  let result := status record layout
  match earlierCapture record request with
  | some capture =>
    pure { result with
      capture := some capture
      state := if capture.isPartial then "capturedProgress" else "completed"
      turnStatus := if capture.isPartial then none else some "completed" }
  | none =>
    if record.phase ≠ .running then pure result
    else
      let response ← rpc "thread/read" (readParams record)
      observeResult record layout request result response

def resultWith (pathsRoot : String) (request : ResultRequest) :
    Attempt HandoffStatus := do
  if !validId request.handoffId then
    throw "HandoffRequestInvalid: invalid handoff id"
  else if request.capture && !(request.operationId.any validId) then
    throw "HandoffRequestInvalid: capture requires an operation id"
  else
    let initial ← load request.handoffId
    if request.capture || initial.phase.isStarting then
      whileLocked (resultLoaded crates pathsRoot request)
    else resultLoaded crates pathsRoot request

end Vellum.Agent

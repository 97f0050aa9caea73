/-
The shared wire types of the remote protocol, and the errors of the upstream
app-server transport.  Field names are the source's in camel case; the JSON
form of a command is written out because the broker hashes it.
-/
import Vellum.Library.Json

namespace Vellum.Broker

inductive ThreadRuntimeStatus where
  | unknown
  | storedNotLoaded
  | loading
  | idle
  | running
  | waitingForApproval
  | interrupted
  | completed
  | failed
  | orphaned
  | indeterminate
deriving DecidableEq, Inhabited

inductive ApprovalDecision where
  | accept
  | decline
deriving DecidableEq

def ApprovalDecision.toJson : ApprovalDecision → Json
  | .accept => .str "accept"
  | .decline => .str "decline"

inductive ApprovalState where
  | pending
  | presented
  | accepted
  | declined
  | cancelled
  | resolved
  | orphaned
  | expired
deriving DecidableEq

inductive SubscriptionMode where
  | writer
  | observer

inductive RemoteErrorCode where
  | unsupportedProtocol
  | unauthenticated
  | deviceRevoked
  | writerLeaseRequired
  | writerLeaseConflict
  | threadNotFound
  | threadNotLoaded
  | upstreamUnavailable
  | upstreamIncompatible
  | upstreamOverloaded
  | staleUpstreamEpoch
  | approvalOrphaned
  | commandConflict
  | replayGap
  | snapshotRequired
  | invalidWorkspace
  | internalError
deriving DecidableEq

structure RemoteError where
  code : RemoteErrorCode
  message : String
  retryable : Bool
  details : Json
deriving DecidableEq

/-- `RemoteError::new`: an error without details. -/
def RemoteError.new (code : RemoteErrorCode) (message : String)
    (retryable : Bool) : RemoteError :=
  ⟨code, message, retryable, .null⟩

/-- One piece of user input; `extra` holds the flattened remaining fields. -/
structure UserInput where
  kind : String
  text : Option String
  extra : List (String × Json)
deriving DecidableEq

def UserInput.toJson (input : UserInput) : Json :=
  .obj ([("type", .str input.kind), ("text", Json.ofOption input.text)] ++
    input.extra)

structure TurnSettings where
  model : Option String
  approvalPolicy : Option String
  extra : Json
deriving DecidableEq

def TurnSettings.toJson (settings : TurnSettings) : Json :=
  .obj [("model", Json.ofOption settings.model),
    ("approvalPolicy", Json.ofOption settings.approvalPolicy),
    ("extra", settings.extra)]

inductive ThreadCommand where
  | threadStart (cwd : String) (model approvalPolicy : Option String)
  | threadResume (threadId : String)
  | turnStart (input : List UserInput) (settings : TurnSettings)
  | turnSteer (expectedTurnId clientUserMessageId : String)
      (input : List UserInput)
  | turnInterrupt (turnId : String)
  | approvalRespond (approvalToken : String) (decision : ApprovalDecision)
  | threadArchive
  | writerAcquire
  | writerRelease (leaseId : String)
deriving DecidableEq

/-- `serde_json::to_value` of a command: the `kind` tag first, then the fields
under their snake-case names (the enum renames its variants only). -/
def ThreadCommand.toJson : ThreadCommand → Json
  | .threadStart cwd model approvalPolicy =>
    .obj [("kind", .str "thread.start"), ("cwd", .str cwd),
      ("model", Json.ofOption model),
      ("approval_policy", Json.ofOption approvalPolicy)]
  | .threadResume threadId =>
    .obj [("kind", .str "thread.resume"), ("thread_id", .str threadId)]
  | .turnStart input settings =>
    .obj [("kind", .str "turn.start"),
      ("input", .arr (input.map UserInput.toJson)),
      ("settings", settings.toJson)]
  | .turnSteer expectedTurnId clientUserMessageId input =>
    .obj [("kind", .str "turn.steer"),
      ("expected_turn_id", .str expectedTurnId),
      ("client_user_message_id", .str clientUserMessageId),
      ("input", .arr (input.map UserInput.toJson))]
  | .turnInterrupt turnId =>
    .obj [("kind", .str "turn.interrupt"), ("turn_id", .str turnId)]
  | .approvalRespond approvalToken decision =>
    .obj [("kind", .str "approval.respond"),
      ("approval_token", .str approvalToken),
      ("decision", decision.toJson)]
  | .threadArchive => .obj [("kind", .str "thread.archive")]
  | .writerAcquire => .obj [("kind", .str "writer.acquire")]
  | .writerRelease leaseId =>
    .obj [("kind", .str "writer.release"), ("lease_id", .str leaseId)]

structure ThreadCommandRequest where
  idempotencyKey : String
  threadId : Option String
  expectedWriterLeaseId : Option String
  command : ThreadCommand
deriving DecidableEq

inductive CommandStatus where
  | accepted
  | processing
  | completed
  | failed
  | indeterminate
deriving DecidableEq

structure ThreadCommandResult where
  idempotencyKey : String
  status : CommandStatus
  result : Json
  error : Option RemoteError
deriving DecidableEq

/-- A thread event as the client sees it; `seq` is the per-thread cursor. -/
structure ThreadEvent where
  seq : Nat
  threadId : String
  upstreamEpoch : Nat
  method : String
  occurredAt : Nat
  turnId : Option String
  itemId : Option String
  data : Json
deriving DecidableEq

structure WriterLeaseView where
  leaseId : String
  holderDeviceId : String
  expiresAt : Int
  generation : Nat
deriving DecidableEq

structure ActiveTurnView where
  turnId : String
  state : ThreadRuntimeStatus
  startedAt : Option Nat
deriving DecidableEq

structure PendingApproval where
  approvalToken : String
  threadId : Option String
  turnId : Option String
  itemId : Option String
  method : String
  state : ApprovalState
  createdAt : Nat
  request : Json
deriving DecidableEq

/-- An item of a snapshot: the JSON of a thread event, or a value an older
broker version stored. -/
inductive SnapshotItem where
  | event (event : ThreadEvent)
  | legacy (value : Json)
deriving DecidableEq

structure ThreadSnapshot where
  threadId : String
  snapshotSeq : Nat
  status : ThreadRuntimeStatus
  loaded : Bool
  activeTurn : Option ActiveTurnView
  pendingApprovals : List PendingApproval
  items : List SnapshotItem
  usage : Option Json
  writerLease : Option WriterLeaseView
deriving DecidableEq

structure ResumeHint where
  threadId : String
  lastAckSeq : Nat

structure ThreadSubscribe where
  threadId : String
  lastAckSeq : Nat
  mode : SubscriptionMode

/-- A JSON-RPC request id; a number is a signed 64-bit integer. -/
inductive JsonRpcId where
  | number (value : Int)
  | string (value : String)
deriving DecidableEq

def JsonRpcId.toValue : JsonRpcId → Json
  | .number value => .num (.int value)
  | .string value => .str value

def JsonRpcId.fromValue : Json → Option JsonRpcId
  | .num value => (Json.num value).asI64.map .number
  | .str value => some (.string value)
  | _ => none

/-- The `AppServerError` of a transport call. -/
inductive AppServerError where
  | transport (text : String)
  | protocol (text : String)
  | overloaded
  | incompatible (text : String)
  | timeout
  | notReady
deriving DecidableEq

def AppServerError.toString : AppServerError → String
  | .transport text => "transport error: " ++ text
  | .protocol text => "protocol error: " ++ text
  | .overloaded => "upstream overloaded"
  | .incompatible text => "incompatible upstream: " ++ text
  | .timeout => "request timed out"
  | .notReady => "upstream not ready"

/-- The error of a store operation, already rendered. -/
structure StoreError where
  text : String
deriving DecidableEq

end Vellum.Broker

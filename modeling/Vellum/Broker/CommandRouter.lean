/-
Command routing helpers shared by the gateway and the actors: the kind of a
command, who may send it, the results a command can be answered with, and what
an upstream failure makes of it.
-/
import Vellum.Broker.Protocol

namespace Vellum.Broker

def commandKind : ThreadCommand → String
  | .threadStart .. => "thread.start"
  | .threadResume .. => "thread.resume"
  | .turnStart .. => "turn.start"
  | .turnSteer .. => "turn.steer"
  | .turnInterrupt .. => "turn.interrupt"
  | .approvalRespond .. => "approval.respond"
  | .threadArchive => "thread.archive"
  | .writerAcquire => "writer.acquire"
  | .writerRelease .. => "writer.release"

def requiresWriter : ThreadCommand → Bool
  | .turnStart .. | .turnSteer .. | .turnInterrupt .. | .threadArchive
  | .threadResume .. => true
  | _ => false

def accepted (idempotencyKey : String) (result : Json) :
    ThreadCommandResult :=
  ⟨idempotencyKey, .accepted, result, none⟩

def completed (idempotencyKey : String) (result : Json) :
    ThreadCommandResult :=
  ⟨idempotencyKey, .completed, result, none⟩

def failed (idempotencyKey : String) (error : RemoteError) :
    ThreadCommandResult :=
  ⟨idempotencyKey, .failed, .null, some error⟩

def processing (idempotencyKey : String) : ThreadCommandResult :=
  ⟨idempotencyKey, .processing, .obj [], none⟩

def indeterminate (idempotencyKey : String) : ThreadCommandResult :=
  ⟨idempotencyKey, .indeterminate, .obj [("needsReconcile", .bool true)],
    some (.new .upstreamUnavailable
      "command outcome is indeterminate; reconcile before retrying" true)⟩

def leaseRequired (idempotencyKey : String) : ThreadCommandResult :=
  failed idempotencyKey (.new .writerLeaseRequired
    "This device does not hold the writer lease." true)

/-- The state of a `client_commands` row.  The broker writes the first four;
any other text is kept as it was read. -/
inductive CommandState where
  | processing
  | completed
  | failed
  | indeterminate
  | other (text : String)
deriving DecidableEq

/-- The row state a result is stored under. -/
def CommandState.ofStatus : CommandStatus → CommandState
  | .accepted | .completed => .completed
  | .processing => .processing
  | .failed => .failed
  | .indeterminate => .indeterminate

/-- `classify_upstream_command_error`: whether a failed call may still have
taken effect upstream. -/
def classifyUpstreamCommandError (error : AppServerError)
    (sideEffectful : Bool) : CommandState × RemoteError :=
  let unavailable := RemoteError.new .upstreamUnavailable error.toString true
  let maybeAccepted := RemoteError.new .upstreamUnavailable
    ("indeterminate after possible upstream accept: " ++ error.toString) true
  match error with
  | .notReady | .incompatible _ => (.failed, unavailable)
  | .timeout | .transport _ =>
    if sideEffectful then (.indeterminate, maybeAccepted)
    else (.failed, unavailable)
  | .protocol _ | .overloaded => (.failed, unavailable)

/-- The answer to a side-effecting command whose call failed. -/
def upstreamFailure (idempotencyKey : String) (error : AppServerError) :
    ThreadCommandResult :=
  match classifyUpstreamCommandError error true with
  | (.indeterminate, _) => indeterminate idempotencyKey
  | (_, remoteError) => failed idempotencyKey remoteError

end Vellum.Broker

/-
What the bridges and the publishers do to the files of a handoff
(`enhanced_runtime/handoff_inject.rs`).  A bridge works on a handoff under its
lock and keeps the lock while an injection is under way; that it was sent is
written down before it is sent, and its outcome when it is known.
-/
import Vellum.Enhanced.HandoffInbox

namespace Vellum.Enhanced.HandoffInject

/-- A call on the files, the clock, the bindings or a socket. -/
inductive InboxOp where
  | tryLock (id : String)
  | unlock (id : String)
  | marked (id : String) (mark : Mark)
  | writeSent (id launch : String) (createdAt : Int)
  | writeOutcome (id : String) (outcome : Outcome) (reason : String)
  | writeRequest (id : String) (request : Request)
  | removeRequest (id : String)
  | readRequest (id : String)
  | readJournal (id : String)
  | journalModified (id : String)
  | readDir
  | timestamp
  | instant
  | binding (thread : String)
  | send (client : Nat) (value : Json)

/-- A lock is got, or another bridge has it; a file is created, or it was there
already.  A write that fails may have left the file. -/
@[reducible]
def InboxAnswer : InboxOp → Type
  | .tryLock _ => Except String Bool
  | .unlock _ => Unit
  | .marked _ _ => Bool
  | .writeSent _ _ _ => Except String Bool
  | .writeOutcome _ _ _ => Except String Bool
  | .writeRequest _ _ => Except String Bool
  | .removeRequest _ => Except String Unit
  | .readRequest _ => Option Request
  | .readJournal _ => Option Journal
  | .journalModified _ => Option Int
  | .readDir => Option (List String)
  | .timestamp => Int
  | .instant => Nat
  | .binding _ => Option ThreadRuntimeBinding
  | .send _ _ => Bool

abbrev Task := Program InboxOp InboxAnswer

def ask (op : InboxOp) : Task (InboxAnswer op) := Program.perform op

/-- Whether one of some files is there. -/
def anyMarked (id : String) : List Mark → Task Bool
  | [] => pure false
  | mark :: rest => do
      if ← ask (.marked id mark) then pure true else anyMarked id rest

def outcomes : List Mark :=
  [.outcome .delivered, .outcome .uncertain, .outcome .skipped]

/-! Publishers. -/

variable (inbox : Inbox) (id : String)

def publishAt (createdAt : Int) : Task Unit := do
  if !validId id then pure ()
  else if ← anyMarked id (.sent :: outcomes) then pure ()
  else
    let _ ← ask (.writeRequest id ⟨id, createdAt⟩)
    pure ()

def publish : Task Unit := do
  let now ← ask .timestamp
  publishAt id now

def recover : Task Unit := do
  if !validId id then pure ()
  else
    match ← ask (.journalModified id) with
    | none => pure ()
    | some modified =>
      let now ← ask .timestamp
      publishAt id (min modified now)

/-! Bridges. -/

def settle (outcome : Outcome) (reason : String) : Task Unit := do
  match ← ask (.writeOutcome id outcome reason) with
  | .error _ => pure ()
  | .ok _ =>
    let _ ← ask (.removeRequest id)
    pure ()

/-- The flight gives its lock back once its outcome is written. -/
def Inbox.finish (rpcId : String) (outcome : Outcome) (reason : String) :
    Task Inbox := do
  match inbox.flights.get rpcId with
  | none => pure inbox
  | some flight =>
    settle flight.handoff outcome reason
    ask (.unlock flight.handoff)
    pure { inbox with flights := inbox.flights.remove rpcId }

/-- Flights whose outcome is unknown. -/
def Inbox.finishAll (reason : String) : List String → Inbox → Task Inbox
  | [], inbox => pure inbox
  | rpcId :: rest, inbox => do
      let inbox ← inbox.finish rpcId .uncertain reason
      finishAll reason rest inbox

def rpcPrefix : String := "vellum:handoff-inject:"

def responseTimeout : Nat := 30000

def expires : Int := 24 * 60 * 60

def injection (rpcId : String) (record : Journal)
    (binding : ThreadRuntimeBinding) : Json :=
  .obj [("id", .str rpcId), ("method", .str "thread/inject_items"),
    ("params", .obj [("threadId", .str binding.nativeThreadId),
      ("items", .arr [.obj [("type", .str "message"), ("role", .str "user"),
        ("content", .arr [.obj [("type", .str "input_text"),
          ("text", .str (String.ofList (text record)))]])]])])]

def Inbox.rpcId : String :=
  rpcPrefix ++ inbox.launch ++ ":" ++ toString inbox.sequence

/-- Send what was marked as sent. -/
def Inbox.inject (record : Journal) (binding : ThreadRuntimeBinding)
    (client : Nat) : Task Inbox := do
  let now ← ask .instant
  let rpcId := inbox.rpcId
  let inbox := { inbox with
    sequence := inbox.sequence + 1
    flights := inbox.flights.insert rpcId ⟨id, client, now + responseTimeout⟩ }
  if ← ask (.send client (injection rpcId record binding)) then pure inbox
  else inbox.finish rpcId .skipped "ownerSocketUnavailable"

/-- A handoff that is not settled and was not sent. -/
def Inbox.processRecord (id digest : String) (now : Int) (record : Journal) :
    Task (Inbox × Bool) := do
  match ← ask (.binding record.threadId) with
  | none => pure (inbox, false)
  | some binding =>
    if binding.plane ≠ .enhancedCodex then
      settle id .skipped "officialThread"
      pure (inbox, false)
    else if binding.runtimeDigest ≠ digest ∨ digest = "" then
      pure (inbox, false)
    else if binding.nativeThreadId = "" then
      settle id .skipped "invalidBinding"
      pure (inbox, false)
    else
      match inbox.idleOwner record.threadId with
      | none => pure (inbox, false)
      | some client =>
        match ← ask (.writeSent id inbox.launch now) with
        | .ok true =>
          let inbox ← inbox.inject id record binding client
          pure (inbox, true)
        | _ => pure (inbox, false)

/-- Under the lock of the handoff; whether a flight has the lock now. -/
def Inbox.processLocked (id digest : String) : Task (Inbox × Bool) := do
  if ← ask (.marked id .sent) then
    if ← anyMarked id outcomes then
      let _ ← ask (.removeRequest id)
      pure (inbox, false)
    else
      settle id .uncertain "priorIntentWithoutAcknowledgement"
      pure (inbox, false)
  else if ← anyMarked id outcomes then
    let _ ← ask (.removeRequest id)
    pure (inbox, false)
  else
    match ← ask (.readRequest id) with
    | none =>
      settle id .skipped "invalidRequest"
      pure (inbox, false)
    | some request =>
      let now ← ask .timestamp
      if request.handoffId ≠ id ∨ now + 300 < request.createdAt then
        settle id .skipped "invalidRequest"
        pure (inbox, false)
      else if expires ≤ now - request.createdAt then
        settle id .skipped "expired"
        pure (inbox, false)
      else
        match ← ask (.readJournal id) with
        | none =>
          settle id .skipped "journalUnavailable"
          pure (inbox, false)
        | some record =>
          if record.id ≠ id ∨
              record.remote.all fun remote =>
                remote.state ≠ "completed" then
            settle id .skipped "handoffNotCompleted"
            pure (inbox, false)
          else inbox.processRecord id digest now record

def Inbox.process (id digest : String) : Task Inbox := do
  match ← ask (.tryLock id) with
  | .ok true =>
    let (inbox, inFlight) ← inbox.processLocked id digest
    if inFlight then pure inbox
    else
      ask (.unlock id)
      pure inbox
  | _ => pure inbox

def Inbox.processAll (digest : String) : List String → Inbox → Task Inbox
  | [], inbox => pure inbox
  | id :: rest, inbox => do
      let inbox ← { inbox with cursor := id }.process id digest
      processAll digest rest inbox

/-- The flights whose deadline has passed. -/
def expiredFlights : List (String × Flight) → Task (List String)
  | [] => pure []
  | (rpcId, flight) :: rest => do
      let now ← ask .instant
      let later ← expiredFlights rest
      pure (if flight.deadline ≤ now then rpcId :: later else later)

/-- The requests behind the cursor first, at most eight. -/
def turnOf (cursor : String) (requests : List String) : List String :=
  let sorted := requests.mergeSort fun left right => decide (left ≤ right)
  let start := sorted.countP fun id => id ≤ cursor
  (sorted.drop start ++ sorted.take start).take 8

def Inbox.scan (digest : String) : Task Inbox := do
  let expired ← expiredFlights inbox.flights.rows
  let inbox ← finishAll "responseTimeout" expired inbox
  match ← ask .readDir with
  | none => pure inbox
  | some requests =>
    processAll digest (turnOf inbox.cursor (requests.filter (validId ·)))
      inbox

/-- The flights of a connection; Enhanced alone has flights. -/
def Inbox.flightsOf (client : Nat) (plane : Option ExecutionPlane) :
    List String :=
  (inbox.flights.rows.filter fun flight =>
    flight.2.client = client &&
      plane.all (· = .enhancedCodex)).map Prod.fst

def Inbox.disconnected (client : Nat) (plane : Option ExecutionPlane) :
    Task Inbox :=
  let closed (id : Nat) (serving : ExecutionPlane) : Bool :=
    id = client && plane.all (· = serving)
  finishAll "ownerDisconnected" (inbox.flightsOf client plane)
    { inbox with
      owners := KeyedTable.modify inbox.owners (fun _ => true)
        (fun owned =>
          (owned.1, owned.2.retain fun owner _ => !closed owner.1 owner.2))
        fun _ => rfl
      forwarded := inbox.forwarded.retain fun _ request =>
        !closed request.client request.plane }

/-- A response to an injection, or no response to one. -/
def Inbox.response (client : Nat) (plane : ExecutionPlane) (value : Json) :
    Task (Inbox × Bool) := do
  if (value.get "method").isSome then pure (inbox, false)
  else
    match (stringField "id" value).filter
        (fun id => rpcPrefix.toList.isPrefixOf id.toList) with
    | none => pure (inbox, false)
    | some id =>
      if (inbox.flights.get id).any fun flight =>
          flight.client = client && plane = .enhancedCodex then
        let inbox ←
          if (value.get "error").isSome then
            inbox.finish id .skipped "injectRejected"
          else if (value.get "result").isSome then
            inbox.finish id .delivered "acknowledged"
          else inbox.finish id .uncertain "malformedResponse"
        pure (inbox, true)
      else pure (inbox, true)

def Inbox.shutdown : Task Inbox :=
  finishAll "bridgeStopped" (inbox.flights.rows.map Prod.fst) inbox

end Vellum.Enhanced.HandoffInject

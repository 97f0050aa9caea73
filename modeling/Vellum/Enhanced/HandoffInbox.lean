/-
The inbox for results of remote handoffs (`enhanced_runtime/handoff_inject.rs`).
A result is published as a request file; the bridge that owns the thread finds
it, waits until the thread is idle and injects the result once.  What a bridge
knows of its threads is read off the messages it relays.  The files are shared
by several bridges and publishers, so each access is a call of its own.
-/
import Vellum.Enhanced.BridgeMessages
import Vellum.Library.Program
import Vellum.Library.Utf8Slice

namespace Vellum.Enhanced.HandoffInject

/-! The files of a handoff. -/

def validId (value : String) : Bool :=
  value ≠ "" && value.utf8ByteSize ≤ 96 &&
    value.toList.all fun c => c.isAlphanum || c = '_' || c = '-'

structure Request where
  handoffId : String
  createdAt : Int
deriving DecidableEq

structure Remote where
  state : String
  summary : String

structure Stat where
  path : String
  added : Option Nat
  deleted : Option Nat

structure Capture where
  isPartial : Bool
  diffstat : List Stat

structure ResultState where
  outcome : Option String := none
  fetched : Bool := false
  capture : Option Capture := none

/-- The record of a handoff; `threadId` is that of its source. -/
structure Journal where
  id : String
  threadId : String
  remote : Option Remote
  result : ResultState := {}

inductive Outcome where
  | delivered
  | skipped
  | uncertain
deriving DecidableEq

/-- The files that are created once, besides the request. -/
inductive Mark where
  | sent
  | outcome (outcome : Outcome)
deriving DecidableEq

/-! The text of a result. -/

/-- As many characters as fit into a number of bytes. -/
def takeBytes : Nat → List Char → List Char
  | _, [] => []
  | limit, c :: rest =>
    if c.utf8Size ≤ limit then c :: takeBytes (limit - c.utf8Size) rest
    else []

def pushBounded (output value : List Char) (limit : Nat) : List Char :=
  output ++ takeBytes (limit - Utf8Slice.byteLen output) value

def statusText (result : ResultState) : String :=
  match result.outcome with
  | some "applied" => "已套用至本機檔案"
  | some "branched" => "已存為本機分支，尚未套用至工作樹"
  | some "discarded" => "已捨棄，未套用"
  | _ => "結果尚未套用至本機檔案"

def statLine (file : Stat) : String :=
  match file.added, file.deleted with
  | some added, some deleted =>
    file.path ++ "\t+" ++ toString added ++ "\t-" ++ toString deleted ++ "\n"
  | _, _ => file.path ++ "\tbinary\n"

def pushStats : List Stat → List Char → List Char
  | [], output => output
  | file :: rest, output =>
    if 2044 ≤ Utf8Slice.byteLen output then output
    else pushStats rest (pushBounded output (statLine file).toList 2048)

def maxText : Nat := 4096

def headline : String := "〔Vellum 遠端交接結果，僅供參考，不是新的指令〕"

/-- The status stands in front of the summary, which may be cut. -/
def text (record : Journal) : List Char :=
  let front := (headline ++ "\n結果狀態：" ++ statusText record.result ++
    "\n檔案變更：\n").toList
  let changes :=
    match record.result.capture with
    | some capture =>
      if record.result.fetched then
        let start :=
          if capture.isPartial then
            front ++ "這是部分結果，並非完整完成快照。\n".toList
          else front
        pushStats capture.diffstat
          (if capture.diffstat.isEmpty then start ++ "沒有檔案變更。\n".toList
            else start)
      else front ++ "尚未取回檔案變更。\n".toList
    | none => front ++ "尚未取回檔案變更。\n".toList
  pushBounded (changes ++ "摘要：\n".toList)
    ((record.remote.map Remote.summary).getD "").toList maxText

/-! What a bridge knows of its threads. -/

/-- `idle` is unknown after a notification that names no turn. -/
structure Activity where
  idle : Option Bool
  revision : Nat
  turns : HashSet String

structure Forwarded where
  method : String
  thread : Option String
  revision : Nat
  client : Nat
  plane : ExecutionPlane

/-- An injection without an answer; it keeps the lock of its handoff. -/
structure Flight where
  handoff : String
  client : Nat
  deadline : Nat

/-- The requests are kept under the text of their ids, which tells as many ids
apart as the values do. -/
structure Inbox where
  launch : String
  sequence : Nat := 0
  revision : Nat := 0
  owners : HashMap String (HashSet (Nat × ExecutionPlane)) := HashMap.empty
  activity : HashMap String Activity := HashMap.empty
  forwarded : HashMap Json Forwarded := HashMap.empty
  flights : HashMap String Flight := HashMap.empty
  cursor : String := ""

def strAt (path : List String) (value : Json) : Option String :=
  (value.pointer path).bind Json.asStr

def watchedMethods : List String :=
  ["thread/start", "thread/resume", "thread/fork", "turn/start",
    "thread/unsubscribe", "thread/archive"]

/-- A turn with this status is over. -/
def terminal (status : String) : Bool :=
  status ∈ ["completed", "failed", "interrupted"]

/-- The thread that a response is about. -/
def responseThread (request : Forwarded) (value : Json) : Option String :=
  if request.method = "turn/start" then request.thread
  else ((value.pointer ["result", "thread", "id"]).or
    (value.pointer ["result", "threadId"])).bind Json.asStr

def reportedIdle (request : Forwarded) (value : Json) : Option Bool :=
  if request.method = "turn/start" then
    some ((strAt ["result", "turn", "status"] value).any terminal)
  else
    match strAt ["result", "thread", "status", "type"] value with
    | some "idle" => some true
    | some "active" => some false
    | _ => if request.method = "thread/start" then some true else none

/-- The turns of a history that are not over. -/
def openTurns (history : List Json) : HashSet String :=
  history.foldl (fun turns turn =>
    if ((turn.get "status").bind Json.asStr).any (!terminal ·) then
      match (turn.get "id").bind Json.asStr with
      | some id => turns.insert id ()
      | none => turns
    else turns) HashMap.empty

/-- The turn that a response to `turn/start` names as running, or else the
open turns of the history it carries. -/
def reportedTurns (request : Forwarded) (value : Json) : HashSet String :=
  if request.method = "turn/start" ∧
      reportedIdle request value = some false then
    match strAt ["result", "turn", "id"] value with
    | some turn => HashMap.empty.insert turn ()
    | none => HashMap.empty
  else openTurns (((value.pointer ["result", "thread", "turns"]).bind
    Json.asArr).getD [])

def reportedActivity (revision : Nat) (request : Forwarded) (value : Json) :
    Activity where
  idle := if (reportedTurns request value).len = 0 then
    reportedIdle request value else some false
  revision := revision
  turns := reportedTurns request value

namespace Inbox

variable (inbox : Inbox) (thread : String)

def forward (client : Nat) (plane : ExecutionPlane) (value : Json) : Inbox :=
  if methodOf value ∈ watchedMethods then
    match value.get "id" with
    | some id =>
      let request : Forwarded :=
        { method := methodOf value
          thread := strAt ["params", "threadId"] value
          revision := inbox.revision
          client
          plane }
      { inbox with forwarded := inbox.forwarded.insert id request }
    | none => inbox
  else inbox

/-- The activity of a thread behind a notification about it. -/
def notified (method thread : String) (value : Json) : Activity :=
  let turns := ((inbox.activity.get thread).map Activity.turns).getD
    HashMap.empty
  match strAt ["params", "turn", "id"] value with
  | some turn =>
    let turns :=
      if method = "turn/started" then turns.insert turn ()
      else turns.remove turn
    ⟨some (turns.len = 0), inbox.revision + 1, turns⟩
  | none => ⟨none, inbox.revision + 1, turns⟩

def observeNotification (method : String) (value : Json) : Inbox :=
  if method = "turn/started" ∨ method = "turn/completed" then
    match strAt ["params", "threadId"] value with
    | some thread =>
      { inbox with
        revision := inbox.revision + 1
        activity :=
          inbox.activity.insert thread (inbox.notified method thread value) }
    | none => inbox
  else inbox

/-- The request that a response of a connection answers. -/
def answered (client : Nat) (plane : ExecutionPlane) (value : Json) :
    Option (Json × Forwarded) :=
  (value.get "id").bind fun id =>
    (inbox.forwarded.get id).bind fun request =>
      if request.client = client ∧ request.plane = plane then some (id, request)
      else none

/-- A notification about the thread came behind the request. -/
def overruled (request : Forwarded) : Bool :=
  (inbox.activity.get thread).any fun activity =>
    request.revision < activity.revision

def addOwner (owner : Nat × ExecutionPlane) : Inbox :=
  { inbox with
    owners := inbox.owners.insert thread
      (((inbox.owners.get thread).getD HashMap.empty).insert owner ()) }

def dropOwner (owner : Nat × ExecutionPlane) : Inbox :=
  match inbox.owners.get thread with
  | some owners =>
    { inbox with owners := inbox.owners.insert thread (owners.remove owner) }
  | none => inbox

/-- What a response says about its thread. -/
def learn (plane : ExecutionPlane) (value : Json)
    (bindings : String → Option ThreadRuntimeBinding) (request : Forwarded) :
    Inbox :=
  match responseThread request value with
  | none => inbox
  | some thread =>
    match bindings thread with
    | none => inbox
    | some binding =>
      if binding.plane ≠ plane then inbox
      else
        let owned := inbox.addOwner thread (request.client, plane)
        if inbox.overruled thread request then owned
        else
          { owned with
            activity := inbox.activity.insert thread
              (reportedActivity inbox.revision request value) }

def observeResponse (client : Nat) (plane : ExecutionPlane) (value : Json)
    (bindings : String → Option ThreadRuntimeBinding) : Inbox :=
  match inbox.answered client plane value with
  | none => inbox
  | some (id, request) =>
    let inbox := { inbox with forwarded := inbox.forwarded.remove id }
    if (value.get "error").isSome then inbox
    else if request.method = "thread/unsubscribe" ∨
        request.method = "thread/archive" then
      match request.thread with
      | some thread => inbox.dropOwner thread (client, plane)
      | none => inbox
    else inbox.learn plane value bindings request

/-- Only messages that the router passed on are observed. -/
def observe (client : Nat) (plane : ExecutionPlane) (value : Json)
    (bindings : String → Option ThreadRuntimeBinding) : Inbox :=
  match stringField "method" value with
  | some method => inbox.observeNotification method value
  | none => inbox.observeResponse client plane value bindings

/-- The connection a result for the thread may be injected on: its only owner,
while the thread is idle and no turn is being started. -/
def idleOwner : Option Nat :=
  match ((inbox.owners.get thread).getD HashMap.empty).rows with
  | [((client, plane), ())] =>
    if plane = .enhancedCodex ∧
        (inbox.activity.get thread).any (fun activity =>
          activity.idle = some true) ∧
        ¬ inbox.forwarded.rows.any (fun pending =>
          pending.2.method = "turn/start" && pending.2.thread = some thread)
      then some client
    else none
  | _ => none

end Inbox

end Vellum.Enhanced.HandoffInject

/-
The server-side `web_search` loop (`vellum-proxy-runtime/src/search_loop.rs`).
A session watches the blocks of a third-party stream, replaces the function
calls of `web_search` by search items for the client and collects their
arguments.  An event is matched to a pending search by the first id it names.
-/
import Vellum.Library.StepRun
import Vellum.Proxy.Normalizer

namespace Vellum.Proxy

open List

/-- A search waiting to be run. -/
structure PendingSearch where
  callId : String
  outputIndex : Nat
  itemId : String
  arguments : String
  query : String
  functionItem : Json

structure SearchLoopSession where
  enabled : Bool
  pending : List PendingSearch := []
  loops : Nat := 0
  loopLimit : Nat

/-- What the stream layer does with a block.  Frames in place of it are
formatted already. -/
inductive SseAction where
  | forward
  | drop
  | replace (frames : List Frame)
  | holdCompleted
deriving DecidableEq

def SearchLoopSession.new (enabled : Bool) (loopLimit : Nat) :
    SearchLoopSession where
  enabled := enabled
  loopLimit := max loopLimit 1

def stringField (name : String) (value : Json) : Option String :=
  (value.get name).bind Json.asStr

/-- The query of a search's arguments. -/
def extractSearchQuery (crates : Crates) (arguments : String) :
    Option String :=
  let trimmed := Text.trim arguments.toList
  if trimmed.isEmpty then none
  else
    (crates.fromStr (String.ofList trimmed)).bind fun value =>
      ["query", "q", "search_query", "text"].findSome? fun key =>
        (stringField key value).bind fun query =>
          let query := Text.trim query.toList
          if query.isEmpty then none else some (String.ofList query)

def webSearchCallItem (itemId status query : String) : Json :=
  .obj [("type", .str "web_search_call"), ("id", .str itemId),
    ("status", .str status),
    ("action", .obj [("type", .str "search"), ("query", .str query)])]

/-- Set a field of an object. -/
def setField (name : String) (field : Json) : Json → Json
  | .obj fields => .obj (Json.insertField name field fields)
  | other => other

def itemAdded : String := "response.output_item.added"

def itemDone : String := "response.output_item.done"

def argumentsDelta : String := "response.function_call_arguments.delta"

def argumentsDone : String := "response.function_call_arguments.done"

def isFunctionItem (item : Json) : Bool :=
  stringField "type" item = some "function_call"

/-- An item that calls `web_search`. -/
def isSearchItem (item : Json) : Bool :=
  isFunctionItem item && stringField "name" item = some "web_search"

/-- The id an event names: of its item, or of the item inside it. -/
def eventId (value : Json) : Option String :=
  (stringField "item_id" value).or
    (((value.pointer ["item", "call_id"]).bind Json.asStr).or
      ((value.pointer ["item", "id"]).bind Json.asStr))

namespace PendingSearch

/-- Any of the three ids of a search. -/
def answersTo (pending : PendingSearch) (id : String) : Bool :=
  pending.callId = id || pending.itemId = id ||
    stringField "id" pending.functionItem = some id

def refreshQuery (crates : Crates) (pending : PendingSearch) : PendingSearch :=
  match extractSearchQuery crates pending.arguments with
  | some query => { pending with query }
  | none => pending

def hearDelta (crates : Crates) (value : Json) (pending : PendingSearch) :
    PendingSearch :=
  match stringField "delta" value with
  | some delta =>
    refreshQuery crates { pending with arguments := pending.arguments ++ delta }
  | none => pending

def hearDone (crates : Crates) (value : Json) (pending : PendingSearch) :
    PendingSearch :=
  let heard :=
    match (stringField "arguments" value).filter (· ≠ "") with
    | some arguments => { pending with arguments }
    | none => pending
  let heard := refreshQuery crates heard
  { heard with
    functionItem :=
      setField "arguments" (.str heard.arguments) heard.functionItem }

def hearItem (crates : Crates) (item : Json) (pending : PendingSearch) :
    PendingSearch :=
  match (stringField "arguments" item).filter (· ≠ "") with
  | some arguments =>
    refreshQuery crates
      { pending with
        arguments
        functionItem :=
          setField "arguments" (.str arguments) pending.functionItem }
  | none => refreshQuery crates pending

end PendingSearch

namespace SearchLoopSession

variable (crates : Crates) (session : SearchLoopSession)

def hasPending : Bool := !session.pending.isEmpty

def markLooped : SearchLoopSession :=
  { session with loops := min (session.loops + 1) 255, pending := [] }

/-- The pending search whose id the event names. -/
def pendingIndex (value : Json) : Option Nat :=
  (eventId value).bind fun id =>
    session.pending.findIdx? fun pending => pending.answersTo id

/-- Let the search that the event names hear it, and drop the event. -/
def deliver (value : Json) (hear : PendingSearch → PendingSearch) :
    SearchLoopSession × SseAction :=
  match session.pendingIndex value with
  | none => (session, .forward)
  | some index =>
    ({ session with pending := session.pending.modify index hear }, .drop)

/-- The search that an added item starts. -/
def startedSearch (value item : Json) : PendingSearch :=
  let callId := (stringField "call_id" item).getD "call_web_search"
  let arguments := (stringField "arguments" item).getD ""
  { callId
    outputIndex := ((value.get "output_index").bind Json.asU64).getD 0
    itemId := "ws_" ++ callId
    arguments
    query := (extractSearchQuery crates arguments).getD ""
    functionItem := item }

/-- What the client sees of the start of a search. -/
def startedFrames (value : Json) (pending : PendingSearch) : List Frame :=
  [.event itemAdded
      (setField "item"
        (webSearchCallItem pending.itemId "in_progress" pending.query) value),
    .event "response.web_search_call.in_progress"
      (.obj [("type", .str "response.web_search_call.in_progress"),
        ("output_index", .nat pending.outputIndex),
        ("item_id", .str pending.itemId)])]

def onItemAdded (value : Json) : SearchLoopSession × SseAction :=
  match value.get "item" with
  | none => (session, .forward)
  | some item =>
    if isSearchItem item then
      let pending := startedSearch crates value item
      ({ session with pending := session.pending ++ [pending] },
        .replace (startedFrames value pending))
    else (session, .forward)

def onItemDone (value : Json) : SearchLoopSession × SseAction :=
  session.deliver value fun pending =>
    match value.get "item" with
    | some item => pending.hearItem crates item
    | none => pending

/-- One parsed event. -/
def onEvent (event : String) (value : Json) : SearchLoopSession × SseAction :=
  if event = itemAdded then session.onItemAdded crates value
  else if event = argumentsDelta then
    session.deliver value (PendingSearch.hearDelta crates value)
  else if event = argumentsDone then
    session.deliver value (PendingSearch.hearDone crates value)
  else if event = itemDone then session.onItemDone crates value
  else if (event = "response.created" || event = "response.in_progress") &&
      0 < session.loops then (session, .drop)
  else if event = "response.completed" && session.hasPending then
    (session, .holdCompleted)
  else (session, .forward)

def observe (block : List Char) : SearchLoopSession × SseAction :=
  if !session.enabled then (session, .forward)
  else
    match parseSseValue crates block with
    | none => (session, .forward)
    | some (event, value) => session.onEvent crates event value

end SearchLoopSession

/-! The calls of a stream. -/

/-- The ids of a call in the stream. -/
structure StreamCall where
  callId : String
  itemId : String
deriving DecidableEq

/-- What a block is an event of: a call of `web_search`, another call, or
nothing of the kind. -/
inductive BlockOwner where
  | search (call : StreamCall)
  | other (call : StreamCall)
  | free
deriving DecidableEq

/-- An event of the call names none of its ids wrongly; it may leave out any of
them. -/
def StreamCall.mayName (call : StreamCall) (value : Json) : Bool :=
  (stringField "item_id" value).all (· = call.itemId) &&
    ((value.pointer ["item", "call_id"]).bind Json.asStr).all
      (· = call.callId) &&
    ((value.pointer ["item", "id"]).bind Json.asStr).all (· = call.itemId)

/-- The events of a function call, by the item they carry. -/
def isCallEvent (event : String) (value : Json) (named : Json → Bool) : Bool :=
  event = argumentsDelta || event = argumentsDone ||
    ((event = itemAdded || event = itemDone) &&
      (value.get "item").any fun item => isFunctionItem item && named item)

namespace BlockOwner

/-- Whether the event can be one of the owner's. -/
def owns (owner : BlockOwner) (event : String) (value : Json) : Bool :=
  match owner with
  | .search call =>
    call.mayName value && isCallEvent event value fun item =>
      (stringField "name" item).all (· = "web_search")
  | .other call =>
    call.mayName value && isCallEvent event value fun item =>
      stringField "name" item ≠ some "web_search"
  | .free => !isCallEvent event value fun _ => true

end BlockOwner

/-- One block of the stream, as the session met it. -/
structure SearchLogEntry where
  owner : BlockOwner
  parsed : Option (String × Json)
  waiting : Bool
  action : SseAction

/-- The arguments a call has given: its deltas, and the text it gave as the
whole of them. -/
structure Spoken where
  deltas : String := ""
  done : Option String := none
deriving DecidableEq

namespace Spoken

def hear (spoken : Spoken) (event : String) (value : Json) : Spoken :=
  let whole (source : Json) : Spoken :=
    match (stringField "arguments" source).filter (· ≠ "") with
    | some arguments => { spoken with done := some arguments }
    | none => spoken
  if event = argumentsDelta then
    { spoken with
      deltas := spoken.deltas ++ (stringField "delta" value).getD "" }
  else if event = argumentsDone then whole value
  else if event = itemDone then
    match value.get "item" with
    | some item => whole item
    | none => spoken
  else spoken

def hearEntry (call : StreamCall) (spoken : Spoken) (entry : SearchLogEntry) :
    Spoken :=
  if entry.owner = .search call then
    match entry.parsed with
    | some (event, value) => spoken.hear event value
    | none => spoken
  else spoken

/-- The arguments of the call: the whole ones where it gave them, else its
deltas. -/
def arguments (spoken : Spoken) : String := spoken.done.getD spoken.deltas

end Spoken

def spoken (call : StreamCall) (log : List SearchLogEntry) : Spoken :=
  log.foldl (Spoken.hearEntry call) {}

/-- The items of a response in which a search is listed. -/
def listsSearch (value : Json) : Bool :=
  ((value.get "response").map outputItems).any fun items =>
    items.any isSearchItem

/-- A block or a hop: the session forgets its searches when they were run. -/
inductive SearchInput where
  | block (text : List Char) (owner : BlockOwner)
  | looped

/-- A session with the calls its pending searches belong to, and what it met. -/
structure SearchRun where
  session : SearchLoopSession
  owners : List StreamCall := []
  log : List SearchLogEntry := []

namespace SearchRun

def start (loopLimit : Nat) : SearchRun where
  session := .new true loopLimit

/-- The calls behind the pending searches once the block was met. -/
def nextOwners (owners : List StreamCall) (owner : BlockOwner)
    (action : SseAction) : List StreamCall :=
  match owner, action with
  | .search call, .replace _ => owners ++ [call]
  | _, _ => owners

def next (crates : Crates) (run : SearchRun) : SearchInput → Option SearchRun
  | .looped =>
    some { run with session := run.session.markLooped, owners := [] }
  | .block text owner =>
    let parsed := parseSseValue crates text
    -- a block that is no event at all belongs to no call
    if !(parsed.elim (owner = .free) fun event =>
        owner.owns event.1 event.2) then none
    else
      let (session, action) := run.session.observe crates text
      some
        { session
          owners := nextOwners run.owners owner action
          log := run.log ++
            [⟨owner, parsed, run.session.hasPending, action⟩] }

/-- Whether the session can tell whose event it meets.  A search starts with an
added item that has no arguments yet; each later event of it names the search
itself, and no delta comes behind the whole arguments.  No other event names a
pending search. -/
def tells (run : SearchRun) (owner : BlockOwner) (event : String)
    (value : Json) : Bool :=
  let index := run.session.pendingIndex value
  match owner with
  | .search call =>
    if event = itemAdded then
      ((value.get "item").any fun item => isSearchItem item &&
        (stringField "arguments" item).all (· = "")) &&
        call ∉ run.owners && spoken call run.log = {}
    else
      index.bind (fun index => run.owners[index]?) = some call &&
        (event ≠ argumentsDelta || (spoken call run.log).done = none ||
          (stringField "delta" value).all (· = ""))
  | .other _ => event = itemAdded || index = none
  | .free => event ≠ itemDone || index = none

/-- The session can tell whose event it meets, and a response that lists a
search is only met completed while a search is pending. -/
def Attributable (crates : Crates) (run : SearchRun) : SearchInput → Prop
  | .looped => True
  | .block text owner =>
    ∀ event ∈ parseSseValue crates text,
      run.tells owner event.1 event.2 = true ∧
      (listsSearch event.2 = true →
        event.1 = "response.completed" ∧ run.session.hasPending = true)

instance (crates : Crates) (run : SearchRun) :
    (input : SearchInput) → Decidable (Attributable crates run input)
  | .looped => .isTrue trivial
  | .block text _ =>
    inferInstanceAs (Decidable (∀ event ∈ parseSseValue crates text, _))

end SearchRun

/-- A frame that carries no call and no arguments of one. -/
def Frame.isCallFree : Frame → Bool
  | .event name value => !isCallEvent name value fun _ => true
  | .raw _ => false

/-- What the stream layer may do with a block. -/
structure SearchLogEntry.Lawful (entry : SearchLogEntry) : Prop where
  search : ∀ call, entry.owner = .search call → entry.action ≠ .forward
  other : ∀ call, entry.owner = .other call → entry.action = .forward
  listed : ∀ event value, entry.parsed = some (event, value) →
    entry.action = .forward → listsSearch value = false
  replaced : ∀ frames, entry.action = .replace frames →
    ∀ frame ∈ frames, frame.isCallFree = true
  completed : ∀ value, entry.parsed = some ("response.completed", value) →
    entry.waiting = true → entry.action ≠ .forward

/-! What a pending search hears. -/

section

variable {crates : Crates} {event : String} {value : Json}
  {session : SearchLoopSession}

@[simp] theorem refreshQuery_arguments (pending : PendingSearch) :
    (pending.refreshQuery crates).arguments = pending.arguments := by
  rw [PendingSearch.refreshQuery]
  split <;> rfl

/-- What the search does with an event that names it. -/
def PendingSearch.hearEvent (crates : Crates) (event : String) (value : Json)
    (pending : PendingSearch) : PendingSearch :=
  if event = argumentsDelta then pending.hearDelta crates value
  else if event = argumentsDone then pending.hearDone crates value
  else
    match value.get "item" with
    | some item => pending.hearItem crates item
    | none => pending

/-- The search hears what its call says, as long as no delta comes behind the
whole arguments. -/
theorem hearEvent_arguments {pending : PendingSearch} {spoken : Spoken}
    (hagrees : pending.arguments = spoken.arguments)
    (hevent : event = argumentsDelta ∨ event = argumentsDone ∨
      event = itemDone)
    (hdelta : event = argumentsDelta → spoken.done = none ∨
      (stringField "delta" value).all (· = "") = true) :
    (pending.hearEvent crates event value).arguments =
      (spoken.hear event value).arguments := by
  rcases hevent with rfl | rfl | rfl
  · have hhear : (pending.hearEvent crates argumentsDelta value).arguments =
        pending.arguments ++ (stringField "delta" value).getD "" := by
      rw [PendingSearch.hearEvent, if_pos rfl, PendingSearch.hearDelta]
      cases stringField "delta" value with
      | none => rw [Option.getD_none, String.append_empty]
      | some delta => rw [refreshQuery_arguments, Option.getD_some]
    rw [hhear, hagrees, Spoken.hear, if_pos rfl, Spoken.arguments,
      Spoken.arguments]
    rcases hdelta rfl with hopen | hempty
    · rw [hopen, Option.getD_none, Option.getD_none]
    · cases hfield : stringField "delta" value with
      | none => rw [Option.getD_none, String.append_empty, String.append_empty]
      | some delta =>
        rw [hfield, Option.all_some, decide_eq_true_eq] at hempty
        rw [Option.getD_some, hempty, String.append_empty,
          String.append_empty]
  · have hne : argumentsDone ≠ argumentsDelta := by decide
    rw [PendingSearch.hearEvent, if_neg hne, if_pos rfl,
      PendingSearch.hearDone, Spoken.hear, if_neg hne, if_pos rfl]
    simp only [refreshQuery_arguments]
    cases (stringField "arguments" value).filter (· ≠ "") with
    | none => exact hagrees
    | some arguments => rfl
  · have hdone : itemDone ≠ argumentsDone := by decide
    have hdelta : itemDone ≠ argumentsDelta := by decide
    rw [PendingSearch.hearEvent, if_neg hdelta, if_neg hdone, Spoken.hear,
      if_neg hdelta, if_neg hdone, if_pos rfl]
    cases value.get "item" with
    | none => exact hagrees
    | some item =>
      simp only [PendingSearch.hearItem]
      cases (stringField "arguments" item).filter (· ≠ "") with
      | none => exact (refreshQuery_arguments pending).trans hagrees
      | some arguments => exact refreshQuery_arguments _

theorem isCallEvent_itemAdded (named : Json → Bool) :
    isCallEvent itemAdded value named =
      (value.get "item").any fun item =>
        isFunctionItem item && named item := by
  simp [isCallEvent, itemAdded, argumentsDelta, argumentsDone, itemDone]

theorem isCallEvent_completed (named : Json → Bool) :
    isCallEvent "response.completed" value named = false := by
  simp [isCallEvent, itemAdded, argumentsDelta, argumentsDone, itemDone]

variable (crates session) in
/-- An event of a call behind its added item is delivered to the search it
names. -/
theorem onEvent_of_call {named : Json → Bool} (hadded : event ≠ itemAdded)
    (hcall : isCallEvent event value named = true) :
    (event = argumentsDelta ∨ event = argumentsDone ∨ event = itemDone) ∧
      session.onEvent crates event value =
        session.deliver value (PendingSearch.hearEvent crates event value) := by
  simp only [isCallEvent, Bool.or_eq_true, Bool.and_eq_true,
    decide_eq_true_eq] at hcall
  have hdone : argumentsDone ≠ argumentsDelta := by decide
  have hitem : itemDone ≠ argumentsDone := by decide
  have hitem' : itemDone ≠ argumentsDelta := by decide
  rcases hcall with (rfl | rfl) | ⟨rfl | rfl, _⟩
  · refine ⟨Or.inl rfl, ?_⟩
    rw [SearchLoopSession.onEvent, if_neg hadded, if_pos rfl]
    congr 1
  · refine ⟨Or.inr (Or.inl rfl), ?_⟩
    rw [SearchLoopSession.onEvent, if_neg hadded, if_neg hdone, if_pos rfl]
    congr 1
  · exact absurd rfl hadded
  · refine ⟨Or.inr (Or.inr rfl), ?_⟩
    rw [SearchLoopSession.onEvent, if_neg hadded, if_neg hitem',
      if_neg hitem, if_pos rfl, SearchLoopSession.onItemDone]
    congr 1

end

/-! Runs of a session. -/

namespace SearchRun

open SearchLoopSession

/-- Each pending search has the arguments of its own call. -/
def Agrees (run : SearchRun) : Prop :=
  ∀ (index : Nat) (pending : PendingSearch) call,
    run.session.pending[index]? = some pending →
    run.owners[index]? = some call →
    pending.arguments = (spoken call run.log).arguments

structure Inv (run : SearchRun) : Prop where
  enabled : run.session.enabled = true
  length_eq : run.owners.length = run.session.pending.length
  nodup : run.owners.Nodup
  agrees : run.Agrees
  lawful : ∀ entry ∈ run.log, entry.Lawful

theorem spoken_snoc (call : StreamCall) (log : List SearchLogEntry)
    (entry : SearchLogEntry) :
    spoken call (log ++ [entry]) =
      (spoken call log).hearEntry call entry := by
  rw [spoken, foldl_append, foldl_cons, foldl_nil, spoken]

section

variable {call : StreamCall}

/-- What a call has said does not change by an entry of another owner. -/
theorem spoken_snoc_of_ne {log : List SearchLogEntry} {entry : SearchLogEntry}
    (hne : entry.owner ≠ .search call) :
    spoken call (log ++ [entry]) = spoken call log := by
  rw [spoken_snoc, Spoken.hearEntry, if_neg hne]

variable {crates : Crates} {run : SearchRun} {owner : BlockOwner}
  {event : String} {value : Json}

/-- A block that leaves the searches alone. -/
theorem Inv.keep {entry : SearchLogEntry} (hinv : Inv run)
    (howner : ∀ call, entry.owner ≠ .search call) (hlawful : entry.Lawful) :
    Inv { run with log := run.log ++ [entry] } := by
  refine ⟨hinv.enabled, hinv.length_eq, hinv.nodup, ?_, ?_⟩
  · intro index pending call hpending hcall
    rw [spoken_snoc_of_ne (howner call)]
    exact hinv.agrees index pending call hpending hcall
  · intro other hmem
    rcases mem_append.mp hmem with hold | hnew
    · exact hinv.lawful other hold
    · rw [mem_singleton.mp hnew]
      exact hlawful

theorem getElem?_modify_self {hear : PendingSearch → PendingSearch}
    {pendings : List PendingSearch} {index : Nat} {pending : PendingSearch}
    (hpending : (pendings.modify index hear)[index]? = some pending) :
    ∃ heard, pendings[index]? = some heard ∧ pending = hear heard := by
  rw [getElem?_modify_eq] at hpending
  obtain ⟨heard, hheard, heq⟩ := Option.map_eq_some_iff.mp hpending
  exact ⟨heard, hheard, heq.symm⟩

variable (crates) in
theorem Inv.hear {index : Nat} (waiting : Bool) (hinv : Inv run)
    (hevent : event = argumentsDelta ∨ event = argumentsDone ∨
      event = itemDone) (hindex : run.owners[index]? = some call)
    (hdelta : event = argumentsDelta →
      (spoken call run.log).done = none ∨
        (stringField "delta" value).all (· = "") = true) :
    Inv
      { run with
        session :=
          { run.session with
            pending := run.session.pending.modify index
              (PendingSearch.hearEvent crates event value) }
        log := run.log ++
          [⟨.search call, some (event, value), waiting, .drop⟩] } := by
  refine ⟨hinv.enabled, ?_, hinv.nodup, ?_, ?_⟩
  · rw [length_modify]
    exact hinv.length_eq
  · intro other pending otherCall hpending hother
    by_cases hsame : other = index
    · subst hsame
      have hcall : otherCall = call :=
        Option.some.inj (hother.symm.trans hindex)
      subst hcall
      obtain ⟨heard, hheard, rfl⟩ := getElem?_modify_self hpending
      rw [spoken_snoc, Spoken.hearEntry, if_pos rfl]
      exact hearEvent_arguments (hinv.agrees other heard otherCall hheard hother)
        hevent hdelta
    · have hne : otherCall ≠ call := by
        rintro rfl
        exact hsame ((getElem?_inj (List.getElem?_eq_some_iff.mp hother).1
          hinv.nodup).mp (hother.trans hindex.symm))
      have hkept : run.session.pending[other]? = some pending := by
        dsimp only at hpending
        rwa [getElem?_modify_ne _ _ (Ne.symm hsame)] at hpending
      rw [spoken_snoc_of_ne (by simpa using Ne.symm hne)]
      exact hinv.agrees other pending otherCall hkept hother
  · intro entry hmem
    rcases mem_append.mp hmem with hold | hnew
    · exact hinv.lawful entry hold
    · rw [mem_singleton.mp hnew]
      refine ⟨?_, ?_, ?_, ?_, ?_⟩ <;> simp

theorem get_setField {name : String} {field other : Json}
    (hget : other.get name ≠ none) :
    (setField name field other).get name = some field := by
  cases other with
  | obj fields =>
    rw [setField, Json.get_insertField, if_pos rfl]
  | null | bool | num | str | arr => exact absurd rfl hget

theorem startedFrames_callFree {pending : PendingSearch}
    (hitem : value.get "item" ≠ none) :
    ∀ frame ∈ startedFrames value pending, frame.isCallFree = true := by
  intro frame hframe
  rcases mem_pair.mp hframe with rfl | rfl
  · have hfree : isFunctionItem
        (webSearchCallItem pending.itemId "in_progress" pending.query) =
          false := rfl
    rw [Frame.isCallFree, isCallEvent_itemAdded, get_setField hitem,
      Option.any_some, hfree]
    rfl
  · rfl

variable (crates) in
theorem Inv.start {item : Json} (waiting : Bool) (hinv : Inv run)
    (hitem : value.get "item" = some item)
    (hempty : (stringField "arguments" item).all (· = "") = true)
    (hfresh : call ∉ run.owners) (hsilent : spoken call run.log = {}) :
    Inv
      { session :=
          { run.session with
            pending := run.session.pending ++
              [startedSearch crates value item] }
        owners := run.owners ++ [call]
        log := run.log ++
          [⟨.search call, some (itemAdded, value), waiting,
            .replace (startedFrames value
              (startedSearch crates value item))⟩] } := by
  have harguments : (startedSearch crates value item).arguments = "" := by
    rw [startedSearch]
    cases hfield : stringField "arguments" item with
    | none => rfl
    | some arguments =>
      rw [hfield, Option.all_some, decide_eq_true_eq] at hempty
      exact hempty
  have hsaid : ∀ other : StreamCall,
      spoken other (run.log ++
        [⟨.search call, some (itemAdded, value), waiting,
          .replace (startedFrames value (startedSearch crates value item))⟩]) =
        spoken other run.log := by
    intro other
    rw [spoken_snoc, Spoken.hearEntry]
    split
    · rfl
    · rfl
  refine ⟨hinv.enabled, ?_, ?_, ?_, ?_⟩
  · simp only [length_append, length_singleton, hinv.length_eq]
  · refine nodup_append.mpr
      ⟨hinv.nodup, nodup_singleton call, ?_⟩
    intro old hold new hnew
    rw [mem_singleton.mp hnew]
    rintro rfl
    exact hfresh hold
  · intro index pending other hpending hother
    dsimp only at hpending hother ⊢
    rw [hsaid other]
    by_cases hold : index < run.session.pending.length
    · rw [getElem?_append_left hold] at hpending
      rw [getElem?_append_left (hinv.length_eq ▸ hold)] at hother
      exact hinv.agrees index pending other hpending hother
    · have hlast : index = run.session.pending.length := by
        have hlt := (List.getElem?_eq_some_iff.mp hpending).1
        rw [length_append, length_singleton] at hlt
        omega
      subst hlast
      rw [getElem?_concat_length, Option.some.injEq] at hpending
      rw [← hinv.length_eq, getElem?_concat_length,
        Option.some.injEq] at hother
      rw [← hpending, ← hother, hsilent]
      exact harguments
  · intro entry hmem
    rcases mem_append.mp hmem with hold | hnew
    · exact hinv.lawful entry hold
    · rw [mem_singleton.mp hnew]
      refine ⟨?_, ?_, ?_, ?_, ?_⟩
      · simp
      · simp
      · simp
      · intro frames hframes
        rw [← SseAction.replace.inj hframes]
        exact startedFrames_callFree (by rw [hitem]; simp)
      · simp

variable {waiting : Bool}

/-- A block that goes to the client as it is. -/
theorem Inv.forward {parsed : Option (String × Json)} (hinv : Inv run)
    (howner : ∀ call, owner ≠ .search call)
    (hlisted : ∀ event ∈ parsed, listsSearch event.2 = false)
    (hcompleted : ∀ event ∈ parsed, event.1 = "response.completed" →
      waiting = false) :
    Inv { run with log := run.log ++ [⟨owner, parsed, waiting, .forward⟩] } := by
  refine hinv.keep howner ⟨?_, ?_, ?_, ?_, ?_⟩
  · intro call hcall
    exact absurd hcall (howner call)
  · intro _ _
    rfl
  · intro event value hparsed _
    exact hlisted (event, value) hparsed
  · intro frames hframes
    cases hframes
  · intro value hparsed hwaiting
    rw [hcompleted _ hparsed rfl] at hwaiting
    exact absurd hwaiting Bool.false_ne_true

/-- A block of no call that the client does not get. -/
theorem Inv.withhold {parsed : Option (String × Json)} {action : SseAction}
    (hinv : Inv run) (haction : action = .drop ∨ action = .holdCompleted) :
    Inv { run with log := run.log ++ [⟨.free, parsed, waiting, action⟩] } := by
  refine hinv.keep (by simp) ⟨?_, ?_, ?_, ?_, ?_⟩ <;>
    rcases haction with rfl | rfl <;> simp

/-- The run once a session met an event. -/
def after (crates : Crates) (run : SearchRun) (owner : BlockOwner)
    (event : String) (value : Json) : SearchRun :=
  let (session, action) := run.session.onEvent crates event value
  { session
    owners := nextOwners run.owners owner action
    log := run.log ++
      [⟨owner, some (event, value), run.session.hasPending, action⟩] }

theorem after_of_forward
    (honEvent : run.session.onEvent crates event value =
      (run.session, .forward)) :
    run.after crates owner event value =
      { run with
        log := run.log ++
          [⟨owner, some (event, value), run.session.hasPending,
            .forward⟩] } := by
  rw [after, honEvent]
  cases owner <;> rfl

theorem deliver_none {hear : PendingSearch → PendingSearch}
    (hindex : run.session.pendingIndex value = none) :
    run.session.deliver value hear = (run.session, .forward) := by
  rw [deliver, hindex]

theorem Inv.search (hinv : Inv run)
    (howns : (BlockOwner.search call).owns event value = true)
    (htells : run.tells (.search call) event value = true) :
    Inv (run.after crates (.search call) event value) := by
  by_cases hevent : event = itemAdded
  · subst hevent
    simp only [tells, if_true, Bool.and_eq_true, decide_eq_true_eq] at htells
    obtain ⟨⟨hitem, hfresh⟩, hsilent⟩ := htells
    cases hget : value.get "item" with
    | none => simp [hget] at hitem
    | some item =>
      rw [hget, Option.any_some, Bool.and_eq_true] at hitem
      have hafter := Inv.start crates run.session.hasPending hinv hget hitem.2
        hfresh hsilent
      rw [after, onEvent, if_pos rfl, onItemAdded, hget]
      simpa only [hitem.1, if_true, nextOwners] using hafter
  · simp only [tells, hevent, if_false, Bool.and_eq_true, Bool.or_eq_true,
      decide_eq_true_eq] at htells
    obtain ⟨hindex, hdelta⟩ := htells
    rw [or_assoc] at hdelta
    obtain ⟨index, hindex, howner⟩ := Option.bind_eq_some_iff.mp hindex
    have hcall := ((Bool.and_eq_true _ _).mp howns).2
    obtain ⟨hkind, hdeliver⟩ := onEvent_of_call crates run.session hevent hcall
    have hafter := Inv.hear crates run.session.hasPending hinv hkind howner
      fun heq => hdelta.resolve_left (absurd heq)
    rw [after, hdeliver, deliver, hindex]
    exact hafter

/-- An event of another call. -/
theorem Inv.other (hinv : Inv run)
    (howns : (BlockOwner.other call).owns event value = true)
    (hlisted : listsSearch value = true → event = "response.completed" ∧
      run.session.hasPending = true)
    (hnamed : event = itemAdded ∨ run.session.pendingIndex value = none) :
    Inv (run.after crates (.other call) event value) := by
  have hcall := ((Bool.and_eq_true _ _).mp howns).2
  have hforward : run.session.onEvent crates event value =
      (run.session, .forward) := by
    by_cases hevent : event = itemAdded
    · subst hevent
      rw [onEvent, if_pos rfl, onItemAdded]
      cases hget : value.get "item" with
      | none => rfl
      | some item =>
        rw [isCallEvent_itemAdded, hget, Option.any_some, Bool.and_eq_true,
          decide_eq_true_eq] at hcall
        simp only [isSearchItem, hcall.2, decide_false, Bool.and_false,
          Bool.false_eq_true, if_false]
    · rw [(onEvent_of_call _ _ hevent hcall).2]
      exact deliver_none (hnamed.resolve_left hevent)
  have hne : event ≠ "response.completed" := by
    rintro rfl
    rw [isCallEvent_completed] at hcall
    exact absurd hcall Bool.false_ne_true
  rw [after_of_forward hforward]
  refine hinv.forward (by simp) ?_ ?_
  · rintro _ ⟨rfl⟩
    rw [← Bool.not_eq_true]
    exact fun h => hne (hlisted h).1
  · rintro _ ⟨rfl⟩ h
    exact absurd h hne

end

/-- An event of no call. -/
theorem Inv.free (hinv : Inv run)
    (howns : BlockOwner.free.owns event value = true)
    (hlisted : listsSearch value = true → event = "response.completed" ∧
      run.session.hasPending = true)
    (hnamed : event = itemDone → run.session.pendingIndex value = none) :
    Inv (run.after crates .free event value) := by
  have hcall : isCallEvent event value (fun _ => true) = false := by
    simpa [BlockOwner.owns] using howns
  have hforward (h : run.session.onEvent crates event value =
      (run.session, .forward)) (hheld : event = "response.completed" →
        run.session.hasPending = false) :
      Inv (run.after crates .free event value) := by
    rw [after_of_forward h]
    refine hinv.forward (by simp) ?_ ?_
    · rintro _ ⟨rfl⟩
      rw [← Bool.not_eq_true]
      intro h
      obtain ⟨hcompleted, hpending⟩ := hlisted h
      rw [hheld hcompleted] at hpending
      exact absurd hpending Bool.false_ne_true
    · rintro _ ⟨rfl⟩ h
      exact hheld h
  by_cases hadded : event = itemAdded
  · subst hadded
    refine hforward ?_ (by simp [itemAdded])
    rw [onEvent, if_pos rfl, onItemAdded]
    cases hget : value.get "item" with
    | none => rfl
    | some item =>
      have hitem : isFunctionItem item = false := by
        simpa [isCallEvent_itemAdded, hget] using hcall
      simp only [isSearchItem, hitem, Bool.false_and, Bool.false_eq_true,
        if_false]
  have hdelta : event ≠ argumentsDelta := by
    rintro rfl
    simp [isCallEvent] at hcall
  have hwhole : event ≠ argumentsDone := by
    rintro rfl
    simp [isCallEvent] at hcall
  by_cases hdone : event = itemDone
  · subst hdone
    refine hforward ?_ (by simp [itemDone])
    rw [onEvent, if_neg hadded, if_neg hdelta, if_neg hwhole, if_pos rfl,
      onItemDone]
    exact deliver_none (hnamed rfl)
  by_cases hagain : ((event = "response.created" ||
      event = "response.in_progress") && 0 < run.session.loops) = true
  · rw [after, onEvent, if_neg hadded, if_neg hdelta, if_neg hwhole,
      if_neg hdone, if_pos hagain]
    exact hinv.withhold (Or.inl rfl)
  by_cases hheld : (event = "response.completed" &&
      run.session.hasPending) = true
  · rw [after, onEvent, if_neg hadded, if_neg hdelta, if_neg hwhole,
      if_neg hdone, if_neg hagain, if_pos hheld]
    exact hinv.withhold (Or.inr rfl)
  · refine hforward ?_ ?_
    · rw [onEvent, if_neg hadded, if_neg hdelta, if_neg hwhole,
        if_neg hdone, if_neg hagain, if_neg hheld]
    · rintro rfl
      simpa using hheld

/-- What a run keeps at each block and hop. -/
theorem Inv.next {after : SearchRun} {input : SearchInput} (hinv : Inv run)
    (hok : Attributable crates run input)
    (hnext : next crates run input = some after) : Inv after := by
  cases input with
  | looped =>
    obtain rfl := Option.some.inj hnext
    refine ⟨hinv.enabled, rfl, nodup_nil, ?_, hinv.lawful⟩
    intro index pending call hpending _
    exact absurd hpending (by simp [markLooped])
  | block text owner =>
    cases hparsed : parseSseValue crates text with
    | none =>
      rw [SearchRun.next, hparsed] at hnext
      by_cases howner : owner = .free
      · simp only [howner, observe, hinv.enabled, hparsed] at hnext
        obtain rfl := Option.some.inj hnext
        exact hinv.forward (by simp) (by simp) (by simp)
      · simp [howner] at hnext
    | some parsed =>
      obtain ⟨event, value⟩ := parsed
      obtain ⟨htells, hlisted⟩ := hok (event, value) hparsed
      rw [SearchRun.next, hparsed] at hnext
      by_cases howns : owner.owns event value = true
      · have hafter : run.after crates owner event value = after := by
          simpa [SearchRun.after, observe, hinv.enabled, hparsed, howns] using
            hnext
        rw [← hafter]
        cases owner with
        | search call => exact hinv.search howns htells
        | other call =>
          exact hinv.other howns hlisted
            (by simpa [tells] using htells)
        | free =>
          refine hinv.free howns hlisted fun hdone => ?_
          simpa [tells, hdone] using htells
      · simp [howns] at hnext

theorem inv_start (loopLimit : Nat) : Inv (start loopLimit) := by
  refine ⟨rfl, rfl, nodup_nil, ?_, ?_⟩
  · intro index pending call hpending _
    exact absurd hpending (by simp [start, SearchLoopSession.new])
  · intro entry hmem
    exact absurd hmem (by simp [start])

/-- While every event can be attributed, no call of a search reaches the
client, every event of another call does, and each pending search has the
arguments its call gave. -/
theorem searches_of_run (crates : Crates) (loopLimit : Nat)
    (inputs : List SearchInput) (run : SearchRun)
    (hrun : GuardedRun (next crates) (Attributable crates) (start loopLimit)
      inputs run) :
    (∀ entry ∈ run.log, entry.Lawful) ∧ run.Agrees := by
  have hinv : Inv run := hrun.invariant (inv_start loopLimit)
    fun _ _ _ hinv hok hnext => hinv.next hok hnext
  exact ⟨hinv.lawful, hinv.agrees⟩

end SearchRun

namespace Hunt

/-- The start of a search, a part of its arguments, its whole arguments, and
the response; then a part that names an item that no start of a search had. -/
def texts : List (String × Json) :=
  [("added", .obj [("type", .str itemAdded),
      ("item", .obj [("type", .str "function_call"),
        ("name", .str "web_search"), ("call_id", .str "call_1")])]),
   ("delta", .obj [("type", .str argumentsDelta),
      ("item_id", .str "ws_call_1"), ("delta", .str "x")]),
   ("done", .obj [("type", .str itemDone),
      ("item", .obj [("type", .str "function_call"),
        ("call_id", .str "call_1"), ("arguments", .str "xy")])]),
   ("completed", .obj [("type", .str "response.completed")]),
   ("stray", .obj [("type", .str argumentsDelta),
      ("item_id", .str "fc_1"), ("delta", .str "x")])]

/-- JSON on the texts above. -/
def crates : Crates where
  fromStr text := texts.lookup text
  toStr _ := ""
  sha256 _ := []

def block (name : String) (owner : BlockOwner) : SearchInput :=
  .block ("data: " ++ name).toList owner

def call : StreamCall := ⟨"call_1", "ws_call_1"⟩

/-- A search whose events name it. -/
def inputs : List SearchInput :=
  [block "added" (.search call), block "delta" (.search call),
    block "done" (.search call), block "completed" .free]

/-- The session after its run. -/
def run : Option SearchRun :=
  runGuarded (SearchRun.next crates)
    (fun run input => SearchRun.Attributable crates run input)
    (.start 2) inputs

/-- The search has what its call gave as the whole of its arguments. -/
theorem search_keeps_its_arguments :
    ∃ hunted, run = some hunted ∧
      hunted.session.pending.map PendingSearch.arguments = ["xy"] ∧
      (∀ entry ∈ hunted.log, entry.Lawful) ∧ hunted.Agrees := by
  obtain ⟨hunted, hrun⟩ : ∃ hunted, run = some hunted :=
    Option.isSome_iff_exists.mp (by decide)
  have hpending : run.map (fun run =>
      run.session.pending.map PendingSearch.arguments) = some ["xy"] := by
    decide
  refine ⟨hunted, hrun, ?_,
    SearchRun.searches_of_run crates 2 inputs hunted
      (guardedRun_of_runGuarded (by simp) hrun)⟩
  rw [hrun, Option.map_some] at hpending
  exact Option.some.inj hpending

/-- The item of this call has an id that its start left out. -/
def silentCall : StreamCall := ⟨"call_1", "fc_1"⟩

def strayRun : Option SearchRun :=
  runActions (SearchRun.next crates) (.start 2)
    [block "added" (.search silentCall), block "stray" (.search silentCall)]

/-- A part of a search's arguments reaches the client and not the search, since
the start of the search left out the id of its item. -/
theorem stray_delta_is_forwarded :
    ∃ hunted, strayRun = some hunted ∧
      (∃ entry ∈ hunted.log, entry.owner = .search silentCall ∧
        entry.action = .forward ∧ ¬entry.Lawful) ∧ ¬hunted.Agrees := by
  obtain ⟨hunted, hrun⟩ : ∃ hunted, strayRun = some hunted :=
    Option.isSome_iff_exists.mp (by decide)
  have hentry : ∀ hunted ∈ strayRun, ∃ entry ∈ hunted.log,
      entry.owner = .search silentCall ∧ entry.action = .forward := by
    decide
  have hpending : ∀ hunted ∈ strayRun,
      hunted.session.pending[0]?.map PendingSearch.arguments = some "" ∧
        hunted.owners[0]? = some silentCall ∧
        (spoken silentCall hunted.log).arguments = "x" := by
    decide
  obtain ⟨entry, hmem, howner, haction⟩ := hentry hunted hrun
  obtain ⟨hempty, hcall, hsaid⟩ := hpending hunted hrun
  refine ⟨hunted, hrun, ⟨entry, hmem, howner, haction, ?_⟩, ?_⟩
  · intro hlawful
    exact hlawful.search silentCall howner haction
  · intro hagrees
    obtain ⟨pending, hget, harguments⟩ := Option.map_eq_some_iff.mp hempty
    have hsame := hagrees 0 pending silentCall hget hcall
    rw [harguments, hsaid] at hsame
    exact absurd hsame (by decide)

end Hunt

end Vellum.Proxy

/-
Whether a result is injected into a running turn.  The inbox forgets a turn
when a response replaces what it knows of the thread, and never learns of one
whose response it drops; as long as neither happens, what it takes for idle is
idle.
-/
import Vellum.Enhanced.HandoffScan

namespace Vellum.Enhanced.HandoffInject

open List Option HashMap

/-- A `turn/start` that waits for its response. -/
structure WaitingStart where
  id : Json
  client : Nat
  plane : ExecutionPlane
  thread : String

/-- What was observed of the turns, each with its thread.  That of a `turn/start`
is its `params.threadId`, as the protocol requires. -/
structure TurnHistory where
  waiting : List WaitingStart := []
  started : List (String × String) := []
  completed : List (String × String) := []

namespace WaitingStart

def answeredBy (client : Nat) (plane : ExecutionPlane) (id : Json)
    (start : WaitingStart) : Bool :=
  start.id = id && start.client = client && start.plane = plane

/-- The turn that a response names as running. -/
def turn (value : Json) (start : WaitingStart) : Option (String × String) :=
  if (value.get "error").isSome ||
      (strAt ["result", "turn", "status"] value).any terminal then none
  else (strAt ["result", "turn", "id"] value).map (start.thread, ·)

end WaitingStart

namespace TurnHistory

variable (history : TurnHistory) (client : Nat)

def forward (plane : ExecutionPlane) (value : Json) : TurnHistory :=
  if methodOf value = "turn/start" then
    match value.get "id", strAt ["params", "threadId"] value with
    | some id, some thread =>
      { history with
        waiting := ⟨id, client, plane, thread⟩ :: history.waiting }
    | _, _ => history
  else history

def observeNotification (method : String) (value : Json) : TurnHistory :=
  match strAt ["params", "threadId"] value,
      strAt ["params", "turn", "id"] value with
  | some thread, some turn =>
    if method = "turn/started" then
      { history with started := (thread, turn) :: history.started }
    else if method = "turn/completed" then
      { history with completed := (thread, turn) :: history.completed }
    else history
  | _, _ => history

def observeResponse (plane : ExecutionPlane) (value : Json) : TurnHistory :=
  match value.get "id" with
  | some id =>
    let answered := history.waiting.filter (·.answeredBy client plane id)
    { history with
      started := answered.filterMap (·.turn value) ++ history.started
      waiting :=
        history.waiting.filter fun start =>
          !start.answeredBy client plane id }
  | none => history

def observe (plane : ExecutionPlane) (value : Json) : TurnHistory :=
  match stringField "method" value with
  | some method => history.observeNotification method value
  | none => history.observeResponse client plane value

/-- A turn that was observed to start and not to complete. -/
def Running (thread turn : String) : Prop :=
  (thread, turn) ∈ history.started ∧ (thread, turn) ∉ history.completed

/-- No turn of the thread is running or being started. -/
structure Quiet (history : TurnHistory) (thread : String) : Prop where
  answered : ∀ start ∈ history.waiting, start.thread ≠ thread
  completed : ∀ turn, (thread, turn) ∈ history.started →
    (thread, turn) ∈ history.completed

end TurnHistory

/-- What a bridge relays; a response is observed with the bindings of its
time. -/
inductive TurnEvent where
  | forwarded (client : Nat) (plane : ExecutionPlane) (value : Json)
  | observed (client : Nat) (plane : ExecutionPlane) (value : Json)
      (bindings : String → Option ThreadRuntimeBinding)

/-- An inbox and what was observed. -/
structure Watched where
  inbox : Inbox
  history : TurnHistory

/-- The response to the request says how its thread is. -/
structure Reports (request : Forwarded) (value : Json) (thread : String) :
    Prop where
  accepted : (value.get "error").isSome = false
  kept : ¬ (request.method = "thread/unsubscribe" ∨
    request.method = "thread/archive")
  thread : responseThread request value = some thread

namespace Watched

def new (launch : String) : Watched := ⟨{ launch }, {}⟩

def step (watched : Watched) : TurnEvent → Watched
  | .forwarded client plane value =>
    ⟨watched.inbox.forward client plane value,
      watched.history.forward client plane value⟩
  | .observed client plane value bindings =>
    ⟨watched.inbox.observe client plane value bindings,
      watched.history.observe client plane value⟩

def run (watched : Watched) : List TurnEvent → Watched
  | [] => watched
  | event :: rest => run (watched.step event) rest

/-- The response is taken as news about its thread. -/
def Learns (watched : Watched) (plane : ExecutionPlane)
    (bindings : String → Option ThreadRuntimeBinding) (thread : String)
    (request : Forwarded) : Prop :=
  ((bindings thread).any fun binding => binding.plane = plane) = true ∧
    watched.inbox.overruled thread request = false

/-- The turn is among those that are taken for running. -/
def follows (watched : Watched) (thread turn : String) : Bool :=
  (watched.inbox.activity.get thread).any fun activity =>
    activity.turns.contains turn

/-- A response keeps track of the turns of its thread: news names every turn
that runs, and a turn that is started by a response that is no news was
noticed already. -/
structure ResponseKeepsTrack (watched : Watched) (plane : ExecutionPlane)
    (value : Json) (bindings : String → Option ThreadRuntimeBinding)
    (request : Forwarded) (thread : String) : Prop where
  news : watched.Learns plane bindings thread request →
    ∀ turn, watched.history.Running thread turn →
      (reportedTurns request value).contains turn = true
  noticed : ¬ watched.Learns plane bindings thread request →
    request.method = "turn/start" →
    (strAt ["result", "turn", "status"] value).any terminal = false →
    ∀ turn, strAt ["result", "turn", "id"] value = some turn →
      (thread, turn) ∈ watched.history.completed ∨
        watched.follows thread turn = true

/-- No id of a start that waits is used again, and no response makes the inbox
lose track of a turn. -/
def KeepsTrack (watched : Watched) : TurnEvent → Prop
  | .forwarded _ _ value => methodOf value ∈ watchedMethods →
      ∀ id, value.get "id" = some id →
        ∀ start ∈ watched.history.waiting, start.id ≠ id
  | .observed client plane value bindings =>
    ∀ id request thread, stringField "method" value = none →
      watched.inbox.answered client plane value = some (id, request) →
      Reports request value thread →
      watched.ResponseKeepsTrack plane value bindings request thread

end Watched

/-! What an event changes. -/

theorem Inbox.get_forward (inbox : Inbox) (client : Nat)
    (plane : ExecutionPlane) (value other : Json) :
    (inbox.forward client plane value).forwarded.get other =
      if methodOf value ∈ watchedMethods ∧ value.get "id" = some other then
        some ⟨methodOf value, strAt ["params", "threadId"] value,
          inbox.revision, client, plane⟩
      else inbox.forwarded.get other := by
  rw [Inbox.forward]
  by_cases hwatched : methodOf value ∈ watchedMethods
  · rw [if_pos hwatched]
    cases hid : value.get "id" with
    | none => simp
    | some id =>
      dsimp only
      rw [get_insert]
      simp [hwatched, eq_comm]
  · rw [if_neg hwatched, if_neg fun hboth => hwatched hboth.1]

variable {history : TurnHistory} (watched : Watched) {client : Nat}
  {plane : ExecutionPlane} {value : Json} {start : WaitingStart}
  {thread : String} {request : Forwarded} {turn : String}

theorem TurnHistory.mem_forward
    (hmem : start ∈ (history.forward client plane value).waiting) :
    start ∈ history.waiting ∨
      methodOf value = "turn/start" ∧ value.get "id" = some start.id ∧
        strAt ["params", "threadId"] value = some start.thread ∧
        start.client = client ∧ start.plane = plane := by
  rw [TurnHistory.forward] at hmem
  split at hmem
  · rename_i hmethod
    split at hmem
    · rename_i id thread hid hthread
      rcases mem_cons.mp hmem with rfl | hold
      · exact .inr ⟨hmethod, hid, hthread, rfl, rfl⟩
      · exact .inl hold
    · exact .inl hmem
  · exact .inl hmem

theorem TurnHistory.running_forward :
    (history.forward client plane value).Running thread turn ↔
      history.Running thread turn := by
  rw [TurnHistory.forward]
  split
  · split <;> rfl
  · rfl

/-- A turn that runs behind a notification is the one that it starts, or ran
before it and is not the one that it completes. -/
theorem TurnHistory.running_notification {method : String}
    (hrunning :
      (history.observeNotification method value).Running thread turn) :
    history.Running thread turn ∧
        ¬ (strAt ["params", "threadId"] value = some thread ∧
          strAt ["params", "turn", "id"] value = some turn ∧
          method = "turn/completed") ∨
      strAt ["params", "threadId"] value = some thread ∧
        strAt ["params", "turn", "id"] value = some turn ∧
        method = "turn/started" := by
  obtain ⟨hstarted, hopen⟩ := hrunning
  rw [TurnHistory.observeNotification] at hstarted hopen
  cases hthread : strAt ["params", "threadId"] value with
  | none =>
    rw [hthread] at hstarted hopen
    exact .inl ⟨⟨hstarted, hopen⟩, fun hnamed => by cases hnamed.1⟩
  | some noticed =>
    cases hturn : strAt ["params", "turn", "id"] value with
    | none =>
      rw [hthread, hturn] at hstarted hopen
      exact .inl ⟨⟨hstarted, hopen⟩, fun hnamed => by cases hnamed.2.1⟩
    | some named =>
      rw [hthread, hturn] at hstarted hopen
      dsimp only at hstarted hopen
      split at hstarted
      · rename_i hmethod
        rw [if_pos hmethod] at hopen
        rcases mem_cons.mp hstarted with heq | hold
        · cases heq
          exact .inr ⟨rfl, rfl, hmethod⟩
        · refine .inl ⟨⟨hold, hopen⟩, ?_⟩
          rintro ⟨-, -, hcompleted⟩
          rw [hmethod] at hcompleted
          exact absurd hcompleted (by decide)
      · rename_i hmethod
        rw [if_neg hmethod] at hopen
        split at hopen
        · rename_i hcompleted
          rw [if_pos hcompleted] at hstarted
          rw [mem_cons, not_or] at hopen
          refine .inl ⟨⟨hstarted, hopen.2⟩, ?_⟩
          rintro ⟨hsame, hnamed, -⟩
          cases hsame
          cases hnamed
          exact hopen.1 rfl
        · rename_i hcompleted
          rw [if_neg hcompleted] at hstarted
          exact .inl ⟨⟨hstarted, hopen⟩,
            fun hnamed => hcompleted hnamed.2.2⟩

theorem Watched.contains_turns (thread turn : String) :
    (((watched.inbox.activity.get thread).map Activity.turns).getD
      HashMap.empty).contains turn = watched.follows thread turn := by
  rw [Watched.follows]
  cases watched.inbox.activity.get thread <;> rfl

theorem Watched.contains_notified (method thread turn : String) (value : Json) :
    (watched.inbox.notified method thread value).turns.contains turn =
      if strAt ["params", "turn", "id"] value = some turn then
        decide (method = "turn/started")
      else watched.follows thread turn := by
  rw [← watched.contains_turns, Inbox.notified]
  cases strAt ["params", "turn", "id"] value with
  | none => rfl
  | some named =>
    dsimp only
    by_cases hmethod : method = "turn/started"
    · rw [if_pos hmethod, HashMap.contains, get_insert]
      by_cases hsame : turn = named
      · simp [hsame, hmethod]
      · simp [hsame, Ne.symm hsame, HashMap.contains]
    · rw [if_neg hmethod, HashMap.contains, get_remove]
      by_cases hsame : turn = named
      · simp [hsame, hmethod]
      · simp [hsame, Ne.symm hsame, HashMap.contains]

theorem Watched.follows_notification (history : TurnHistory)
    (method thread turn : String) (value : Json) :
    Watched.follows ⟨watched.inbox.observeNotification method value, history⟩
        thread turn =
      if strAt ["params", "threadId"] value = some thread ∧
          strAt ["params", "turn", "id"] value = some turn ∧
          (method = "turn/started" ∨ method = "turn/completed") then
        decide (method = "turn/started")
      else watched.follows thread turn := by
  rw [Watched.follows, Inbox.observeNotification]
  by_cases hmethod : method = "turn/started" ∨ method = "turn/completed"
  · rw [if_pos hmethod]
    cases hthread : strAt ["params", "threadId"] value with
    | none => simp [Watched.follows]
    | some noticed =>
      dsimp only
      rw [get_insert]
      by_cases hsame : thread = noticed
      · subst hsame
        simp only [if_true, any_some, watched.contains_notified,
          hmethod, and_true, true_and]
      · simp [hsame, Ne.symm hsame, Watched.follows]
  · rw [if_neg hmethod, if_neg fun hnamed => hmethod hnamed.2.2,
      Watched.follows]

/-- A turn that runs behind a response ran before it, or is the one that the
response names. -/
theorem TurnHistory.running_response
    (hrunning :
      (history.observeResponse client plane value).Running thread turn) :
    history.Running thread turn ∨
      (thread, turn) ∉ history.completed ∧
        ∃ start ∈ history.waiting, value.get "id" = some start.id ∧
          start.client = client ∧ start.plane = plane ∧
          start.turn value = some (thread, turn) := by
  rw [TurnHistory.observeResponse] at hrunning
  split at hrunning
  · rename_i id hid
    obtain ⟨hstarted, hopen⟩ := hrunning
    rcases mem_append.mp hstarted with hnew | hold
    · obtain ⟨start, hstart, hturn⟩ := mem_filterMap.mp hnew
      obtain ⟨hmem, hanswers⟩ := mem_filter.mp hstart
      simp only [WaitingStart.answeredBy, Bool.and_eq_true,
        decide_eq_true_eq] at hanswers
      obtain ⟨⟨rfl, hclient⟩, hplane⟩ := hanswers
      exact .inr ⟨hopen, start, hmem, hid, hclient, hplane, hturn⟩
    · exact .inl ⟨hold, hopen⟩
  · exact .inl hrunning

/-- A start that still waits was not answered. -/
theorem TurnHistory.mem_response
    (hmem : start ∈ (history.observeResponse client plane value).waiting) :
    start ∈ history.waiting ∧ ¬ (value.get "id" = some start.id ∧
      start.client = client ∧ start.plane = plane) := by
  rw [TurnHistory.observeResponse] at hmem
  split at hmem
  · rename_i id hid
    obtain ⟨hold, hwaits⟩ := mem_filter.mp hmem
    refine ⟨hold, ?_⟩
    rintro ⟨hanswers, hclient, hplane⟩
    rw [hid, some.injEq] at hanswers
    simp [WaitingStart.answeredBy, hanswers, hclient, hplane] at hwaits
  · rename_i hid
    refine ⟨hmem, ?_⟩
    rintro ⟨hanswers, -⟩
    rw [hid] at hanswers
    cases hanswers

theorem WaitingStart.turn_eq_some
    (hturn : start.turn value = some (thread, turn)) :
    (value.get "error").isSome = false ∧
      (strAt ["result", "turn", "status"] value).any terminal = false ∧
      thread = start.thread ∧
      strAt ["result", "turn", "id"] value = some turn := by
  rw [WaitingStart.turn] at hturn
  split at hturn
  · cases hturn
  · rename_i hopen
    rw [Bool.or_eq_true, not_or] at hopen
    obtain ⟨named, hnamed, heq⟩ := map_eq_some_iff.mp hturn
    cases heq
    exact ⟨Bool.eq_false_iff.mpr hopen.1, Bool.eq_false_iff.mpr hopen.2, rfl,
      hnamed⟩

theorem Inbox.answered_eq_some {inbox : Inbox} {id : Json} :
    inbox.answered client plane value = some (id, request) ↔
      value.get "id" = some id ∧ inbox.forwarded.get id = some request ∧
        request.client = client ∧ request.plane = plane := by
  rw [Inbox.answered, bind_eq_some_iff]
  constructor
  · rintro ⟨named, hid, hbind⟩
    obtain ⟨found, hget, hown⟩ := bind_eq_some_iff.mp hbind
    split at hown
    · rename_i hmatches
      cases hown
      exact ⟨hid, hget, hmatches⟩
    · cases hown
  · rintro ⟨hid, hget, hmatches⟩
    refine ⟨id, hid, ?_⟩
    rw [hget, bind_some, if_pos hmatches]

theorem Inbox.forwarded_response (inbox : Inbox) (client : Nat)
    (plane : ExecutionPlane) (value : Json)
    (bindings : String → Option ThreadRuntimeBinding) :
    (inbox.observeResponse client plane value bindings).forwarded =
      match inbox.answered client plane value with
      | none => inbox.forwarded
      | some (id, _) => inbox.forwarded.remove id := by
  rw [Inbox.observeResponse]
  cases inbox.answered client plane value with
  | none => rfl
  | some answer =>
    dsimp only
    split
    · rfl
    · split
      · split
        · rw [Inbox.dropOwner]
          split <;> rfl
        · rfl
      · rw [Inbox.learn]
        split
        · rfl
        · split
          · rfl
          · split
            · rfl
            · dsimp only
              split <;> rfl

theorem contains_reportedTurns (hmethod : request.method = "turn/start")
    (hstatus :
      (strAt ["result", "turn", "status"] value).any terminal = false)
    (hturn : strAt ["result", "turn", "id"] value = some turn) :
    (reportedTurns request value).contains turn = true := by
  rw [reportedTurns, reportedIdle, if_pos hmethod, hstatus,
    if_pos ⟨hmethod, rfl⟩, hturn]
  simp [HashMap.contains]

theorem Watched.activity_response {id : Json}
    (bindings : String → Option ThreadRuntimeBinding)
    (hanswered :
      watched.inbox.answered client plane value = some (id, request)) :
    (watched.inbox.observeResponse client plane value bindings).activity =
        watched.inbox.activity ∧
        (∀ thread, Reports request value thread →
          ¬ watched.Learns plane bindings thread request) ∨
      ∃ thread, Reports request value thread ∧
        watched.Learns plane bindings thread request ∧
        (watched.inbox.observeResponse client plane value bindings).activity =
          watched.inbox.activity.insert thread
            (reportedActivity watched.inbox.revision request value) := by
  rw [Inbox.observeResponse, hanswered]
  dsimp only
  split
  · rename_i herror
    refine .inl ⟨rfl, ?_⟩
    intro thread hreports
    rw [hreports.accepted] at herror
    cases herror
  · rename_i herror
    split
    · rename_i hgone
      refine .inl ⟨?_, fun thread hreports => absurd hgone hreports.kept⟩
      split
      · rw [Inbox.dropOwner]
        split <;> rfl
      · rfl
    · rename_i hkept
      rw [Inbox.learn]
      cases hthread : responseThread request value with
      | none =>
        refine .inl ⟨rfl, ?_⟩
        intro thread hreports
        have hnamed := hreports.thread
        rw [hthread] at hnamed
        cases hnamed
      | some thread =>
        have hsame : ∀ other, Reports request value other →
            other = thread := by
          intro other hreports
          have hnamed := hreports.thread
          rw [hthread, some.injEq] at hnamed
          exact hnamed.symm
        dsimp only
        split
        · rename_i hbinding
          refine .inl ⟨rfl, ?_⟩
          rintro other hreports ⟨hbound, -⟩
          rw [hsame other hreports, hbinding] at hbound
          cases hbound
        · rename_i binding hbinding
          split
          · rename_i hplane
            refine .inl ⟨rfl, ?_⟩
            rintro other hreports ⟨hbound, -⟩
            rw [hsame other hreports, hbinding] at hbound
            exact hplane (of_decide_eq_true hbound)
          · rename_i hplane
            split
            · rename_i hoverruled
              refine .inl ⟨rfl, ?_⟩
              rintro other hreports ⟨-, hnews⟩
              rw [hsame other hreports] at hnews
              have hold : watched.inbox.overruled thread request = true :=
                hoverruled
              rw [hnews] at hold
              cases hold
            · rename_i hnews
              refine .inr ⟨thread, ⟨?_, hkept, hthread⟩, ⟨?_, ?_⟩, rfl⟩
              · exact Bool.eq_false_iff.mpr herror
              · rw [hbinding, any_some]
                exact decide_eq_true (not_not.mp hplane)
              · exact Bool.eq_false_iff.mpr hnews

/-- The inbox knows the turns that run and the requests that wait. -/
structure Tracks (watched : Watched) : Prop where
  running : ∀ thread turn, watched.history.Running thread turn →
    watched.follows thread turn = true
  idle : ∀ thread activity, watched.inbox.activity.get thread = some activity →
    activity.idle = some true → activity.turns.len = 0
  waiting : ∀ start ∈ watched.history.waiting, ∃ request,
    watched.inbox.forwarded.get start.id = some request ∧
      request.method = "turn/start" ∧ request.thread = some start.thread ∧
      request.client = start.client ∧ request.plane = start.plane

namespace Tracks

variable {watched : Watched}

theorem new (launch : String) : Tracks (.new launch) where
  running _ _ hrunning := absurd hrunning.1 not_mem_nil
  idle _ _ hget := by cases hget
  waiting _ hmem := absurd hmem not_mem_nil

variable {client : Nat} {plane : ExecutionPlane} {value : Json}
  {thread : String}

section

variable (htracks : Tracks watched)
include htracks

theorem quiet (hidle : watched.inbox.idleOwner thread = some client) :
    watched.history.Quiet thread := by
  rw [Inbox.idleOwner] at hidle
  split at hidle
  · split at hidle
    · rename_i hgate
      obtain ⟨-, hactivity, hpending⟩ := hgate
      obtain ⟨activity, hget, hfree⟩ := (Option.any_eq_true _ _).mp hactivity
      have hnone : activity.turns.len = 0 :=
        htracks.idle thread activity hget (of_decide_eq_true hfree)
      constructor
      · rintro start hmem rfl
        obtain ⟨request, hforwarded, hmethod, hthread, -⟩ :=
          htracks.waiting start hmem
        apply hpending
        rw [List.any_eq_true]
        refine ⟨_, get_eq_some_iff.mp hforwarded, ?_⟩
        simp [hmethod, hthread]
      · intro turn hstarted
        by_contra hopen
        have hruns := htracks.running thread turn ⟨hstarted, hopen⟩
        rw [Watched.follows, hget, any_some, HashMap.contains,
          get_of_len_eq_zero hnone] at hruns
        cases hruns
    · cases hidle
  · cases hidle

theorem forward (hkeeps : watched.KeepsTrack (.forwarded client plane value)) :
    Tracks (watched.step (.forwarded client plane value)) := by
  have hactivity :
      (watched.inbox.forward client plane value).activity =
        watched.inbox.activity := by
    rw [Inbox.forward]
    split
    · split <;> rfl
    · rfl
  constructor
  · intro thread turn hrunning
    have hbefore := htracks.running thread turn
      (TurnHistory.running_forward.mp hrunning)
    rw [Watched.follows] at hbefore ⊢
    rwa [Watched.step, hactivity]
  · rw [Watched.step, hactivity]
    exact htracks.idle
  · intro start hmem
    rw [Watched.step, Inbox.get_forward]
    rcases TurnHistory.mem_forward hmem with hold |
      ⟨hmethod, hid, hthread, hclient, hplane⟩
    · obtain ⟨request, hget, hrequest⟩ := htracks.waiting start hold
      rw [if_neg]
      · exact ⟨request, hget, hrequest⟩
      · rintro ⟨hwatched, hid⟩
        exact hkeeps hwatched start.id hid start hold rfl
    · have hwatched : methodOf value ∈ watchedMethods := by
        rw [hmethod]
        decide
      rw [if_pos ⟨hwatched, hid⟩]
      exact ⟨_, rfl, hmethod, hthread, hclient.symm, hplane.symm⟩

theorem notification (method : String) (value : Json) :
    Tracks ⟨watched.inbox.observeNotification method value,
      watched.history.observeNotification method value⟩ := by
  constructor
  · intro thread turn hrunning
    rw [Watched.follows_notification]
    rcases TurnHistory.running_notification hrunning with ⟨hold, hgoes⟩ |
      ⟨hthread, hturn, hmethod⟩
    · split
      · rename_i hnamed
        obtain ⟨hthread, hturn, hmethod⟩ := hnamed
        rcases hmethod with hstarted | hcompleted
        · exact decide_eq_true hstarted
        · exact absurd ⟨hthread, hturn, hcompleted⟩ hgoes
      · exact htracks.running thread turn hold
    · rw [if_pos ⟨hthread, hturn, .inl hmethod⟩]
      exact decide_eq_true hmethod
  · intro thread activity hget hidle
    rw [Inbox.observeNotification] at hget
    split at hget
    · split at hget
      · rename_i noticed hthread
        dsimp only at hget
        rw [get_insert] at hget
        split at hget
        · cases hget
          rw [Inbox.notified] at hidle ⊢
          split at hidle
          · simpa using hidle
          · cases hidle
        · exact htracks.idle thread activity hget hidle
      · exact htracks.idle thread activity hget hidle
    · exact htracks.idle thread activity hget hidle
  · have hwaiting :
        (watched.history.observeNotification method value).waiting =
          watched.history.waiting := by
      rw [TurnHistory.observeNotification]
      split
      · split
        · rfl
        · split <;> rfl
      · rfl
    have hforwarded :
        (watched.inbox.observeNotification method value).forwarded =
          watched.inbox.forwarded := by
      rw [Inbox.observeNotification]
      split
      · split <;> rfl
      · rfl
    rw [hwaiting, hforwarded]
    exact htracks.waiting

/-- The response to a start that waits reports about its thread. -/
theorem reports_of_turn {start : WaitingStart} {turn : String}
    (hmem : start ∈ watched.history.waiting)
    (hid : value.get "id" = some start.id)
    (hturn : start.turn value = some (thread, turn)) :
    ∃ request, watched.inbox.answered start.client start.plane value =
        some (start.id, request) ∧
      request.method = "turn/start" ∧ Reports request value thread := by
  obtain ⟨request, hget, hmethod, hthread, hclient, hplane⟩ :=
    htracks.waiting start hmem
  obtain ⟨haccepted, -, rfl, -⟩ := WaitingStart.turn_eq_some hturn
  refine ⟨request, Inbox.answered_eq_some.mpr ⟨hid, hget, hclient, hplane⟩,
    hmethod, haccepted, ?_, ?_⟩
  · rw [hmethod]
    decide
  · rw [responseThread, if_pos hmethod, hthread]

/-- Every turn that runs behind a response is still followed. -/
theorem running_response {bindings : String → Option ThreadRuntimeBinding}
    (hkeeps : ∀ id request thread,
      watched.inbox.answered client plane value = some (id, request) →
      Reports request value thread →
      watched.ResponseKeepsTrack plane value bindings request thread)
    {turn : String}
    (hrunning : (watched.history.observeResponse client plane value).Running
      thread turn) :
    Watched.follows
      ⟨watched.inbox.observeResponse client plane value bindings,
        watched.history.observeResponse client plane value⟩
      thread turn = true := by
  have horigin := TurnHistory.running_response hrunning
  cases hanswered : watched.inbox.answered client plane value with
  | none =>
    rw [Watched.follows, Inbox.observeResponse, hanswered]
    rcases horigin with hold | ⟨-, start, hmem, hid, rfl, rfl, hturn⟩
    · exact htracks.running thread turn hold
    · obtain ⟨request, hsome, -⟩ := htracks.reports_of_turn hmem hid hturn
      rw [hanswered] at hsome
      cases hsome
  | some answer =>
    obtain ⟨id, request⟩ := answer
    have hnew : ¬ watched.history.Running thread turn →
        (thread, turn) ∉ watched.history.completed ∧
          request.method = "turn/start" ∧ Reports request value thread ∧
          (strAt ["result", "turn", "status"] value).any terminal = false ∧
          strAt ["result", "turn", "id"] value = some turn := by
      intro hfresh
      rcases horigin with hold | ⟨hopen, start, hmem, hid, rfl, rfl, hturn⟩
      · exact absurd hold hfresh
      · obtain ⟨found, hsome, hmethod, hreports⟩ :=
          htracks.reports_of_turn hmem hid hturn
        rw [hanswered] at hsome
        cases hsome
        obtain ⟨-, hstatus, -, hnamed⟩ := WaitingStart.turn_eq_some hturn
        exact ⟨hopen, hmethod, hreports, hstatus, hnamed⟩
    by_cases hold : watched.history.Running thread turn
    · have hbefore := htracks.running thread turn hold
      rcases watched.activity_response bindings hanswered with
        ⟨hsame, -⟩ | ⟨other, hreports, hlearns, hinsert⟩
      · rwa [Watched.follows, hsame]
      · rw [Watched.follows, hinsert, get_insert]
        split
        · rename_i heq
          subst heq
          exact (hkeeps id request thread hanswered hreports).news hlearns
            turn hold
        · exact hbefore
    · obtain ⟨hopen, hmethod, hreports, hstatus, hnamed⟩ := hnew hold
      have hkeeping := hkeeps id request thread hanswered hreports
      rcases watched.activity_response bindings hanswered with
        ⟨hsame, hold⟩ | ⟨other, hother, hlearns, hinsert⟩
      · rw [Watched.follows, hsame]
        rcases hkeeping.noticed (hold thread hreports) hmethod hstatus turn
          hnamed with hdone | hfollows
        · exact absurd hdone hopen
        · exact hfollows
      · have heq : thread = other := by
          have hthread := hreports.thread
          rw [hother.thread, some.injEq] at hthread
          exact hthread.symm
        rw [Watched.follows, hinsert, get_insert, if_pos heq]
        exact contains_reportedTurns hmethod hstatus hnamed

theorem response {bindings : String → Option ThreadRuntimeBinding}
    (hkeeps : ∀ id request thread,
      watched.inbox.answered client plane value = some (id, request) →
      Reports request value thread →
      watched.ResponseKeepsTrack plane value bindings request thread) :
    Tracks ⟨watched.inbox.observeResponse client plane value bindings,
      watched.history.observeResponse client plane value⟩ := by
  refine ⟨fun thread turn => htracks.running_response hkeeps, ?_, ?_⟩
  · intro thread activity hget hidle
    cases hanswered : watched.inbox.answered client plane value with
    | none =>
      rw [Inbox.observeResponse, hanswered] at hget
      exact htracks.idle thread activity hget hidle
    | some answer =>
      obtain ⟨id, request⟩ := answer
      rcases watched.activity_response bindings hanswered with
        ⟨hsame, -⟩ | ⟨other, -, -, hinsert⟩
      · rw [hsame] at hget
        exact htracks.idle thread activity hget hidle
      · rw [hinsert, get_insert] at hget
        split at hget
        · cases hget
          rw [reportedActivity] at hidle ⊢
          split at hidle
          · assumption
          · cases hidle
        · exact htracks.idle thread activity hget hidle
  · intro start hafter
    obtain ⟨hmem, hwaits⟩ := TurnHistory.mem_response hafter
    obtain ⟨request, hget, hmethod, hthread, hclient, hplane⟩ :=
      htracks.waiting start hmem
    refine ⟨request, ?_, hmethod, hthread, hclient, hplane⟩
    rw [Inbox.forwarded_response]
    cases hanswered : watched.inbox.answered client plane value with
    | none => exact hget
    | some answer =>
      obtain ⟨id, found⟩ := answer
      obtain ⟨hid, hfound, hsame⟩ := Inbox.answered_eq_some.mp hanswered
      dsimp only
      rw [get_remove, if_neg]
      · exact hget
      · rintro rfl
        rw [hget] at hfound
        cases hfound
        exact hwaits ⟨hid, hclient.symm.trans hsame.1,
          hplane.symm.trans hsame.2⟩

theorem step {event : TurnEvent} (hkeeps : watched.KeepsTrack event) :
    Tracks (watched.step event) := by
  cases event with
  | forwarded client plane value => exact htracks.forward hkeeps
  | observed client plane value bindings =>
    rw [Watched.step, Inbox.observe, TurnHistory.observe]
    cases hmethod : stringField "method" value with
    | some method => exact htracks.notification method value
    | none =>
      apply htracks.response
      intro id request thread
      exact hkeeps id request thread hmethod

end

end Tracks

end Vellum.Enhanced.HandoffInject

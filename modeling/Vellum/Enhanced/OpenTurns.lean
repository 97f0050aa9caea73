/-
Whether a restart destroys a turn.  The bridge publishes how many threads have
an open turn; a reader takes zero for idle.  Turns are counted per thread and
requests are tracked per id, so the turns that really run are kept beside the
bridge here.
-/
import Vellum.Enhanced.ThreadRouting

namespace Vellum.Enhanced

open HashMap

/-- A turn whose request a child has got and that has not ended. -/
structure RunningTurn where
  threadId : String
  plane : ExecutionPlane
  id : Option Json
  create : Bool
deriving DecidableEq

/-- Whether a line of a child ends a turn: the response to a `turn/create`, an
error response, or a completion of the thread's turn, from the child that
serves it. -/
def RunningTurn.endedBy (turn : RunningTurn) (plane : ExecutionPlane)
    (value : Json) : Bool :=
  turn.plane = plane &&
    match value.get "id" with
    | some id => (value.get "method").isNone && turn.id = some id &&
        (turn.create || (value.get "error").isSome)
    | none => stringField "method" value = some "turn/completed" &&
        BridgeState.notifiedThread value = some turn.threadId

/-- The turn a client line begins, by what became of the line. -/
def begunTurn (value : Json) : Outcome → Option RunningTurn
  | .ok [.toChild plane _] =>
    match BridgeState.closesOnResponse (methodOf value),
        findThreadId (paramsOf value) with
    | some create, some threadId =>
      some ⟨threadId, plane, value.get "id", create⟩
    | _, _ => none
  | _ => none

/-- The bridge, and the turns that run. -/
structure TurnSystem where
  bridge : BridgeState
  running : List RunningTurn

namespace TurnSystem

/-- The turns that run after an event. -/
def runningAfter (running : List RunningTurn) (outcome : Outcome) :
    BridgeEvent → List RunningTurn
  | .client (.ok value) => running ++ (begunTurn value outcome).toList
  | .child plane (.ok value) =>
    running.filter fun turn => !turn.endedBy plane value
  | .exited plane => running.filter fun turn => turn.plane ≠ plane
  | .client (.error _) | .child _ (.error _) => running

def step (system : TurnSystem) :
    BridgeReads × BridgeEvent → Option TurnSystem
  | (reads, event) =>
    let (bridge, outcome) := system.bridge.step reads event
    some ⟨bridge, runningAfter system.running outcome event⟩

/-- The response is the answer to the turn's own request. -/
def Answers (turn : RunningTurn) (plane : ExecutionPlane) (id : Json)
    (request : TurnRequest) : Prop :=
  turn.plane = plane ∧ turn.id = some id ∧
    turn.create = request.closesOnResponse

/-- A response that closes a thread answers the only turn that runs there, a
completion comes from the child that serves the thread, and the threads are
countable in 32 bits. -/
def Orderly (system : TurnSystem) : BridgeReads × BridgeEvent → Prop
  | (_, .client _) => system.bridge.openTurns.len + 1 < 2 ^ 32
  | (_, .child plane (.ok value)) =>
    (∀ id request, value.get "method" = none → value.get "id" = some id →
      system.bridge.turnRequests.get id = some request →
      (request.closesOnResponse || (value.get "error").isSome) = true →
      ∀ turn ∈ system.running, turn.threadId = request.threadId →
        Answers turn plane id request) ∧
    (stringField "method" value = some "turn/completed" →
      value.get "id" = none → ∀ turn ∈ system.running,
        BridgeState.notifiedThread value = some turn.threadId →
          turn.plane = plane)
  | _ => True

/-- Every running turn is on a thread the bridge counts, on the plane the
thread is bound to. -/
structure Counted (system : TurnSystem) : Prop where
  tracked : ∀ turn ∈ system.running,
    system.bridge.openTurns.get turn.threadId = some turn.plane
  bound : ∀ turn ∈ system.running, ∃ binding,
    system.bridge.requireBinding turn.threadId = .ok binding ∧
      binding.plane = turn.plane
  bounded : system.bridge.openTurns.len < 2 ^ 32
  published : system.bridge.publishedOpenTurns = system.bridge.openTurns.len

end TurnSystem

namespace BridgeState

/-- The open turns and their published count are as before. -/
structure SameTurns (later earlier : BridgeState) : Prop where
  openTurns : later.openTurns = earlier.openTurns
  published : later.publishedOpenTurns = earlier.publishedOpenTurns

theorem SameTurns.trans {first second third : BridgeState}
    (hlater : third.SameTurns second) (hearlier : second.SameTurns first) :
    third.SameTurns first :=
  ⟨hlater.openTurns.trans hearlier.openTurns,
    hlater.published.trans hearlier.published⟩

/-! Lines from the client. -/

variable (state : BridgeState) (method : String) (value : Json)
  (id : Option Json)

theorem recordAccountRead_sameTurns :
    (state.recordAccountRead method id).SameTurns state := by
  cases id with
  | none => exact ⟨rfl, rfl⟩
  | some id =>
    rw [recordAccountRead]
    split
    · exact ⟨rfl, rfl⟩
    · exact ⟨rfl, rfl⟩

theorem requireBinding_recordAccountRead :
    (state.recordAccountRead method id).requireBinding =
      state.requireBinding := by
  cases id with
  | none => rfl
  | some id =>
    rw [recordAccountRead]
    split
    · rfl
    · rfl

theorem recordPending_sameTurns (pending : Option PendingBinding) :
    (state.recordPending id pending).SameTurns state := by
  cases id with
  | none => exact ⟨rfl, rfl⟩
  | some id =>
    cases pending with
    | none => exact ⟨rfl, rfl⟩
    | some pending => exact ⟨rfl, rfl⟩

theorem openTurn_eq (params : Json) (plane : ExecutionPlane)
    (id : Option Json) :
    ((closesOnResponse method = none ∨ findThreadId params = none) ∧
      (state.openTurn method params plane id).SameTurns state) ∨
    ∃ create threadId, closesOnResponse method = some create ∧
      findThreadId params = some threadId ∧
      (state.openTurn method params plane id).openTurns =
        state.openTurns.insert threadId plane ∧
      (state.openTurn method params plane id).publishedOpenTurns =
        (state.openTurns.insert threadId plane).len % 2 ^ 32 := by
  have hrequest : ∀ request,
      (state.recordTurnRequest id request).openTurns = state.openTurns := by
    intro request
    cases id with
    | none => rfl
    | some id => rfl
  rw [openTurn]
  split
  · rename_i create threadId hcreate hthread
    refine Or.inr ⟨create, threadId, hcreate, hthread, ?_, ?_⟩
    · simp only [publishOpenTurns, hrequest]
    · simp only [publishOpenTurns, hrequest]
  · rename_i hother
    refine Or.inl ⟨?_, rfl, rfl⟩
    cases hcreate : closesOnResponse method with
    | none => exact Or.inl rfl
    | some create =>
      cases hthread : findThreadId params with
      | none => exact Or.inr rfl
      | some threadId => exact absurd hthread (hother create threadId hcreate)

theorem routeMethod_turn {state : BridgeState} {method : String}
    {params : Json} {create : Bool} {route : Route}
    (hcreate : closesOnResponse method = some create)
    (hroute : state.routeMethod method params = .ok route) :
    ∃ threadId binding, findThreadId params = some threadId ∧
      state.requireBinding threadId = .ok binding ∧
      binding.plane = route.plane := by
  have hmethod : method = "turn/create" ∨ method = "turn/start" := by
    rw [closesOnResponse] at hcreate
    split at hcreate
    · exact Or.inl ‹_›
    · split at hcreate
      · exact Or.inr ‹_›
      · cases hcreate
  have hgeneral : method ≠ "thread/start" ∧ method ≠ "thread/resume" ∧
      method ≠ "thread/fork" ∧
      (isGlobal method || isOfficialThreadMetadata method) = false ∧
      requiresThread method = true := by
    rcases hmethod with rfl | rfl
    · decide
    · decide
  obtain ⟨hstart, hresume, hfork, hglobal, hrequires⟩ := hgeneral
  rw [routeMethod, if_neg hstart, if_neg hresume, if_neg hfork, hglobal,
    if_neg Bool.false_ne_true] at hroute
  split at hroute
  · rename_i threadId hthread
    split at hroute
    · cases hroute
    · rename_i binding hrequire
      cases hroute
      exact ⟨threadId, binding, hthread, hrequire, rfl⟩
  · rw [hrequires, if_pos rfl] at hroute
    cases hroute

theorem forwardRequest_turns :
    (begunTurn value (state.forwardRequest (methodOf value) value).2 = none ∧
      (state.forwardRequest (methodOf value) value).1.SameTurns state) ∨
    ∃ turn binding,
      begunTurn value (state.forwardRequest (methodOf value) value).2 =
        some turn ∧
      state.requireBinding turn.threadId = .ok binding ∧
      binding.plane = turn.plane ∧
      (state.forwardRequest (methodOf value) value).1.openTurns =
        state.openTurns.insert turn.threadId turn.plane ∧
      (state.forwardRequest (methodOf value) value).1.publishedOpenTurns =
        (state.openTurns.insert turn.threadId turn.plane).len % 2 ^ 32 := by
  have hread := recordAccountRead_sameTurns state (methodOf value)
    (value.get "id")
  have hextends := recordAccountRead_extends state (methodOf value)
    (value.get "id")
  rw [forwardRequest]
  cases hroute : (state.recordAccountRead (methodOf value)
      (value.get "id")).routeMethod (methodOf value) (paramsOf value) with
  | error error => exact Or.inl ⟨rfl, hread⟩
  | ok route =>
    dsimp only
    split
    · exact Or.inl ⟨rfl, hread⟩
    · generalize hrecorded : state.recordAccountRead (methodOf value)
        (value.get "id") = recorded at hroute hread hextends ⊢
      have hpending := recordPending_sameTurns
        (recorded.openTurn (methodOf value) (paramsOf value) route.plane
          (value.get "id")) (value.get "id") route.pending
      rcases openTurn_eq recorded (methodOf value) (paramsOf value)
          route.plane (value.get "id") with
        ⟨hnone, hsame⟩ | ⟨create, threadId, hcreate, hthread, htable, hcount⟩
      · refine Or.inl ⟨?_, hpending.trans (hsame.trans hread)⟩
        rw [begunTurn]
        split
        · rename_i hcreate hthread
          rcases hnone with hnone | hnone
          · rw [hnone] at hcreate
            cases hcreate
          · rw [hnone] at hthread
            cases hthread
        · rfl
      · obtain ⟨found, binding, hfound, hrequire, hplane⟩ :=
          routeMethod_turn hcreate hroute
        rw [hthread] at hfound
        cases hfound
        refine Or.inr ⟨⟨threadId, route.plane, value.get "id", create⟩,
          binding, ?_, ?_, hplane, ?_, ?_⟩
        · simp only [begunTurn, hcreate, hthread]
        · rw [← hrecorded, requireBinding_recordAccountRead] at hrequire
          exact hrequire
        · rw [hpending.openTurns, htable, hread.openTurns]
        · rw [hpending.published, hcount, hread.openTurns]

theorem begunTurn_of_method {value : Json}
    (hmethod : closesOnResponse (methodOf value) = none) (outcome : Outcome) :
    begunTurn value outcome = none := by
  rw [begunTurn.eq_def]
  split
  · rw [hmethod]
  · rfl

theorem routeClientResponse_sameTurns (print : Json → String) (value : Json) :
    (state.routeClientResponse print value).1.SameTurns state := by
  rw [routeClientResponse]
  split
  · exact ⟨rfl, rfl⟩
  · split
    · exact ⟨rfl, rfl⟩
    · dsimp only
      split
      · exact ⟨rfl, rfl⟩
      · exact ⟨rfl, rfl⟩

theorem onInitialize_sameTurns :
    (state.onInitialize value).1.SameTurns state := by
  rw [onInitialize]
  split
  · exact ⟨rfl, rfl⟩
  · dsimp only
    split
    · exact ⟨rfl, rfl⟩
    · exact ⟨rfl, rfl⟩

theorem onClientValue_turns (print : Json → String) (value : Json) :
    (begunTurn value (state.onClientValue print value).2 = none ∧
      (state.onClientValue print value).1.SameTurns state) ∨
    ∃ turn binding,
      begunTurn value (state.onClientValue print value).2 = some turn ∧
      state.requireBinding turn.threadId = .ok binding ∧
      binding.plane = turn.plane ∧
      (state.onClientValue print value).1.openTurns =
        state.openTurns.insert turn.threadId turn.plane ∧
      (state.onClientValue print value).1.publishedOpenTurns =
        (state.openTurns.insert turn.threadId turn.plane).len % 2 ^ 32 := by
  rw [onClientValue]
  split
  · rename_i hmethod
    have hempty : methodOf value = "" := by
      rw [methodOf, stringField, Option.isNone_iff_eq_none.mp hmethod]
      rfl
    refine Or.inl ⟨begunTurn_of_method ?_ _,
      routeClientResponse_sameTurns state print value⟩
    rw [hempty]
    rfl
  · dsimp only
    split
    · exact Or.inl ⟨rfl, rfl, rfl⟩
    · split
      · rename_i hmethod
        refine Or.inl ⟨begunTurn_of_method ?_ _, rfl, rfl⟩
        rw [hmethod]
        rfl
      · split
        · rename_i hmethod
          refine Or.inl ⟨begunTurn_of_method ?_ _, rfl, rfl⟩
          rw [hmethod]
          rfl
        · split
          · rename_i hmethod
            refine Or.inl ⟨begunTurn_of_method ?_ _,
              onInitialize_sameTurns state value⟩
            rw [hmethod]
            rfl
          · exact forwardRequest_turns state value

/-! Lines from a child. -/

theorem closeTurn_eq (threadId : String) :
    (state.closeTurn threadId).SameTurns state ∨
    (state.closeTurn threadId).openTurns = state.openTurns.remove threadId ∧
      (state.closeTurn threadId).publishedOpenTurns =
        (state.openTurns.remove threadId).len % 2 ^ 32 := by
  rw [closeTurn]
  split
  · exact Or.inr ⟨rfl, rfl⟩
  · exact Or.inl ⟨rfl, rfl⟩

/-- A line closes the turn of a thread: as the response to the last request
recorded under its id, or as a completion. -/
def Closes (state : BridgeState) (value : Json) (threadId : String) : Prop :=
  (∃ id request, value.get "method" = none ∧ value.get "id" = some id ∧
    state.turnRequests.get id = some request ∧
    (request.closesOnResponse || (value.get "error").isSome) = true ∧
    request.threadId = threadId) ∨
  stringField "method" value = some "turn/completed" ∧
    value.get "id" = none ∧ notifiedThread value = some threadId

theorem bindPending_sameTurns (createdAt : String → Int)
    (plane : ExecutionPlane) (id value : Json) :
    (state.bindPending createdAt plane id value).1.SameTurns state := by
  rw [bindPending]
  split
  · exact ⟨rfl, rfl⟩
  · dsimp only
    split
    · exact ⟨rfl, rfl⟩
    · split
      · exact ⟨rfl, rfl⟩
      · split
        · exact ⟨rfl, rfl⟩
        · split
          · exact ⟨rfl, rfl⟩
          · split
            · exact ⟨rfl, rfl⟩
            · exact ⟨rfl, rfl⟩

theorem bindSpawnedAgentThreads_sameTurns (createdAt : String → Int)
    (plane : ExecutionPlane) (notification : Json) :
    (state.bindSpawnedAgentThreads createdAt plane notification).1.SameTurns
      state := by
  rw [bindSpawnedAgentThreads]
  split
  · exact ⟨rfl, rfl⟩
  · exact ⟨rfl, rfl⟩
  · exact ⟨rfl, rfl⟩

theorem settleTurnRequest_turns (id value : Json) :
    (state.settleTurnRequest id value).SameTurns state ∨
    ∃ request, state.turnRequests.get id = some request ∧
      (request.closesOnResponse || (value.get "error").isSome) = true ∧
      (state.settleTurnRequest id value).openTurns =
        state.openTurns.remove request.threadId ∧
      (state.settleTurnRequest id value).publishedOpenTurns =
        (state.openTurns.remove request.threadId).len % 2 ^ 32 := by
  rw [settleTurnRequest]
  split
  · exact Or.inl ⟨rfl, rfl⟩
  · rename_i request hget
    dsimp only
    split
    · rename_i hcloses
      rcases closeTurn_eq { state with
          turnRequests := state.turnRequests.remove id } request.threadId with
        hsame | ⟨htable, hcount⟩
      · exact Or.inl ⟨hsame.openTurns, hsame.published⟩
      · exact Or.inr ⟨request, hget, hcloses, htable, hcount⟩
    · exact Or.inl ⟨rfl, rfl⟩

theorem onChildValue_turns (reads : BridgeReads) (plane : ExecutionPlane)
    (value : Json) :
    (state.onChildValue reads plane value).1.SameTurns state ∨
    ∃ threadId, state.Closes value threadId ∧
      (state.onChildValue reads plane value).1.openTurns =
        state.openTurns.remove threadId ∧
      (state.onChildValue reads plane value).1.publishedOpenTurns =
        (state.openTurns.remove threadId).len % 2 ^ 32 := by
  rcases onChildValue_cases state reads plane value with
    ⟨id, hmethod, hid, heq⟩ | ⟨method, hmethod, hid, heq⟩ |
    ⟨id, hmethod, hid, heq⟩ | ⟨hmethod, hid, heq⟩
  · rw [heq]
    exact Or.inl ⟨rfl, rfl⟩
  · rw [heq, onNotification]
    have hbind := bindSpawnedAgentThreads_sameTurns state reads.createdAt plane
      value
    split
    · exact Or.inl ⟨rfl, rfl⟩
    · split
      · rename_i hresult
        rw [hresult] at hbind
        exact Or.inl hbind
      · rename_i after hresult
        rw [hresult] at hbind
        dsimp only
        rw [closeCompletedTurn]
        split
        · rename_i hcompleted
          split
          · rename_i threadId hthread
            rcases closeTurn_eq after threadId with hsame | ⟨htable, hcount⟩
            · exact Or.inl (hsame.trans hbind)
            · refine Or.inr ⟨threadId, Or.inr ⟨hcompleted ▸ hmethod, hid,
                hthread⟩, ?_, ?_⟩
              · rw [htable, hbind.openTurns]
              · rw [hcount, hbind.openTurns]
          · exact Or.inl hbind
        · exact Or.inl hbind
  · rw [heq, onResponse]
    split
    · exact Or.inl ⟨rfl, rfl⟩
    · have herror : ∀ answer, answer = (if state.accountReads.contains id then
          routeDesktopBackendToRelay reads.relayOrigin value else value) →
          answer.get "error" = value.get "error" := by
        rintro answer rfl
        split
        · exact get_routeDesktopBackendToRelay (by decide) _ _
        · rfl
      dsimp only
      generalize hanswer : (if state.accountReads.contains id then
        routeDesktopBackendToRelay reads.relayOrigin value else value) = answer
      have hbound := bindPending_sameTurns
        (settleTurnRequest { state with
          initializeRequests := state.initializeRequests.remove id
          accountReads := state.accountReads.remove id } id answer)
        reads.createdAt plane id answer
      rcases settleTurnRequest_turns { state with
          initializeRequests := state.initializeRequests.remove id
          accountReads := state.accountReads.remove id } id answer with
        hsame | ⟨request, hget, hcloses, htable, hcount⟩
      · exact Or.inl (hbound.trans ⟨hsame.openTurns, hsame.published⟩)
      · rw [herror answer hanswer.symm] at hcloses
        refine Or.inr ⟨request.threadId,
          Or.inl ⟨id, request, hmethod, hid, hget, hcloses, rfl⟩, ?_, ?_⟩
        · rw [hbound.openTurns, htable]
        · rw [hbound.published, hcount]
  · rw [heq]
    exact Or.inl ⟨rfl, rfl⟩

end BridgeState

namespace TurnSystem

variable {system : TurnSystem} {plane : ExecutionPlane}

theorem Counted.of_sameTurns {bridge : BridgeState} {running : List RunningTurn}
    (hcounted : system.Counted) (hextends : bridge.Extends system.bridge)
    (hsame : bridge.SameTurns system.bridge)
    (hrunning : ∀ turn ∈ running, turn ∈ system.running) :
    (TurnSystem.mk bridge running).Counted where
  tracked turn hturn := by
    change bridge.openTurns.get turn.threadId = some turn.plane
    rw [hsame.openTurns]
    exact hcounted.tracked turn (hrunning turn hturn)
  bound turn hturn := by
    obtain ⟨binding, hrequire, hplane⟩ :=
      hcounted.bound turn (hrunning turn hturn)
    exact ⟨binding, hextends.requireBinding hrequire, hplane⟩
  bounded := by
    change bridge.openTurns.len < 2 ^ 32
    rw [hsame.openTurns]
    exact hcounted.bounded
  published := by
    change bridge.publishedOpenTurns = bridge.openTurns.len
    rw [hsame.openTurns, hsame.published]
    exact hcounted.published

/-- A request opens its thread, which its running turns are on already. -/
theorem counted_client {print : Json → String} {line : Except String Json}
    (hcounted : system.Counted)
    (hroom : system.bridge.openTurns.len + 1 < 2 ^ 32) :
    (TurnSystem.mk (system.bridge.onClientLine print line).1
      (runningAfter system.running (system.bridge.onClientLine print line).2
        (.client line))).Counted := by
  have hextends := BridgeState.onClientLine_extends system.bridge print line
  cases line with
  | error message =>
    exact hcounted.of_sameTurns hextends ⟨rfl, rfl⟩ fun _ hturn => hturn
  | ok value =>
    rw [BridgeState.onClientLine] at hextends ⊢
    rw [runningAfter]
    rcases BridgeState.onClientValue_turns system.bridge print value with
      ⟨hnone, hsame⟩ |
      ⟨turn, binding, hturn, hrequire, hplane, htable, hcount⟩
    · rw [hnone]
      refine hcounted.of_sameTurns hextends hsame fun turn hmem => ?_
      simpa using hmem
    · have hlen : (system.bridge.openTurns.insert turn.threadId
          turn.plane).len < 2 ^ 32 :=
        Nat.lt_of_le_of_lt (len_insert_le _ _ _) hroom
      have hmem : ∀ other ∈ system.running ++
          (begunTurn value (system.bridge.onClientValue print value).2).toList,
          other ∈ system.running ∨ other = turn := by
        intro other hother
        rw [hturn] at hother
        simpa using hother
      constructor
      · intro other hother
        rw [htable, get_insert]
        rcases hmem other hother with hold | rfl
        · split
          · -- Both turns are served where the thread is bound.
            rename_i hthread
            obtain ⟨bound, hbound, hserving⟩ := hcounted.bound other hold
            rw [hthread, hrequire] at hbound
            cases hbound
            rw [← hplane, hserving]
          · exact hcounted.tracked other hold
        · rw [if_pos rfl]
      · intro other hother
        rcases hmem other hother with hold | rfl
        · obtain ⟨bound, hbound, hserving⟩ := hcounted.bound other hold
          exact ⟨bound, hextends.requireBinding hbound, hserving⟩
        · exact ⟨binding, hextends.requireBinding hrequire, hplane⟩
      · rw [htable]
        exact hlen
      · rw [htable, hcount, Nat.mod_eq_of_lt hlen]

theorem endedBy_of_closes {reads : BridgeReads} {value : Json}
    {threadId : String}
    (horderly : system.Orderly (reads, .child plane (.ok value)))
    (hcloses : system.bridge.Closes value threadId) {turn : RunningTurn}
    (hturn : turn ∈ system.running) (hthread : turn.threadId = threadId) :
    turn.endedBy plane value = true := by
  obtain ⟨hresponse, hcompletion⟩ := horderly
  rcases hcloses with ⟨id, request, hmethod, hid, hget, hends, rfl⟩ |
    ⟨hmethod, hid, hnotified⟩
  · obtain ⟨hplane, hturnId, hcreate⟩ :=
      hresponse id request hmethod hid hget hends turn hturn hthread
    simp only [RunningTurn.endedBy, hplane, hid, hmethod, hturnId, hcreate,
      Option.isNone_none, decide_true, Bool.true_and, hends]
  · subst hthread
    have hplane := hcompletion hmethod hid turn hturn hnotified
    simp only [RunningTurn.endedBy, hplane, hid, hmethod, hnotified,
      decide_true, Bool.true_and]

theorem counted_child {reads : BridgeReads} {line : Except String Json}
    (hcounted : system.Counted)
    (horderly : system.Orderly (reads, .child plane line)) :
    (TurnSystem.mk (system.bridge.onChildLine reads plane line).1
      (runningAfter system.running (system.bridge.onChildLine reads plane line).2
        (.child plane line))).Counted := by
  have hextends := BridgeState.onChildLine_extends system.bridge reads plane line
  cases line with
  | error message =>
    exact hcounted.of_sameTurns hextends ⟨rfl, rfl⟩ fun _ hturn => hturn
  | ok value =>
    rw [BridgeState.onChildLine] at hextends ⊢
    rw [runningAfter]
    have hkept : ∀ turn ∈ system.running.filter
        (fun turn => !turn.endedBy plane value), turn ∈ system.running :=
      fun turn hturn => List.mem_of_mem_filter hturn
    rcases BridgeState.onChildValue_turns system.bridge reads plane value with
      hsame | ⟨threadId, hcloses, htable, hcount⟩
    · exact hcounted.of_sameTurns hextends hsame hkept
    · have hlen : (system.bridge.openTurns.remove threadId).len < 2 ^ 32 :=
        Nat.lt_of_le_of_lt (len_remove_le _ _) hcounted.bounded
      constructor
      · intro turn hturn
        rw [htable, get_remove]
        split
        · rename_i hthread
          have hended := endedBy_of_closes horderly hcloses
            (hkept turn hturn) hthread
          have hrest := (List.mem_filter.mp hturn).2
          rw [hended] at hrest
          cases hrest
        · exact hcounted.tracked turn (hkept turn hturn)
      · intro turn hturn
        obtain ⟨binding, hrequire, hplane⟩ :=
          hcounted.bound turn (hkept turn hturn)
        exact ⟨binding, hextends.requireBinding hrequire, hplane⟩
      · rw [htable]
        exact hlen
      · rw [htable, hcount, Nat.mod_eq_of_lt hlen]

theorem counted_exited (hcounted : system.Counted) (outcome : Outcome) :
    (TurnSystem.mk (system.bridge.markChildExited plane)
      (runningAfter system.running outcome (.exited plane))).Counted := by
  have hextends := BridgeState.markChildExited_extends system.bridge plane
  have htable : (system.bridge.markChildExited plane).openTurns =
      system.bridge.openTurns.retain fun _ serving => serving ≠ plane := by
    cases plane with
    | officialCodex => rfl
    | enhancedCodex => rfl
  have hcount : (system.bridge.markChildExited plane).publishedOpenTurns =
      (system.bridge.openTurns.retain fun _ serving => serving ≠ plane).len %
        2 ^ 32 := by
    cases plane with
    | officialCodex => rfl
    | enhancedCodex => rfl
  have hlen := Nat.lt_of_le_of_lt
    (len_retain_le system.bridge.openTurns fun _ serving =>
      serving ≠ plane) hcounted.bounded
  constructor
  · intro turn hturn
    obtain ⟨hold, hplane⟩ := List.mem_filter.mp hturn
    rw [htable, get_retain, hcounted.tracked turn hold,
      Option.filter_some, if_pos hplane]
  · intro turn hturn
    obtain ⟨binding, hrequire, hplane⟩ :=
      hcounted.bound turn (List.mem_of_mem_filter hturn)
    exact ⟨binding, hextends.requireBinding hrequire, hplane⟩
  · rw [htable]
    exact hlen
  · rw [htable, hcount, Nat.mod_eq_of_lt hlen]

theorem counted_step {next : TurnSystem} {action : BridgeReads × BridgeEvent}
    (hcounted : system.Counted) (horderly : system.Orderly action)
    (hstep : system.step action = some next) : next.Counted := by
  obtain ⟨reads, event⟩ := action
  cases hstep
  cases event with
  | client line => exact counted_client hcounted horderly
  | child plane line => exact counted_child hcounted horderly
  | exited plane => exact counted_exited hcounted _

/-- In every orderly run of a launch, a published count of zero means that no
turn runs. -/
theorem idle_of_published_zero (store : ThreadRuntimeBindingStore)
    (providers : TrustedProviderSet) (officialDigest enhancedDigest : String)
    (models : TrustedModelProviderMap)
    {actions : List (BridgeReads × BridgeEvent)} {system : TurnSystem}
    (hrun : GuardedRun step Orderly
      ⟨.new store providers officialDigest enhancedDigest models, []⟩
      actions system)
    (hzero : system.bridge.publishedOpenTurns = 0) : system.running = [] := by
  have hstart : (TurnSystem.mk
      (.new store providers officialDigest enhancedDigest models) []).Counted :=
    ⟨by rintro _ ⟨⟩, by rintro _ ⟨⟩, Nat.two_pow_pos 32, rfl⟩
  have hcounted : system.Counted :=
    hrun.invariant hstart fun _ _ _ => counted_step
  cases hrunning : system.running with
  | nil => rfl
  | cons turn rest =>
    have htracked := hcounted.tracked turn (by simp [hrunning])
    rw [hcounted.published] at hzero
    rw [get_of_len_eq_zero hzero] at htracked
    cases htracked

namespace OneThread

open BridgeState.OneEnhancedThread

def start : TurnSystem := ⟨state, []⟩

def startTurn (id : String) : Json :=
  .obj [("id", .str id), ("method", .str "turn/start"),
    ("params", .obj [("threadId", .str "t")])]

def refusal (id : String) : Json :=
  .obj [("id", .str id), ("error", .obj [("message", .str "busy")])]

def completed : Json :=
  .obj [("method", .str "turn/completed"),
    ("params", .obj [("threadId", .str "t")])]

def fromClient (value : Json) : BridgeReads × BridgeEvent :=
  (reads, .client (.ok value))

def fromChild (plane : ExecutionPlane) (value : Json) :
    BridgeReads × BridgeEvent :=
  (reads, .child plane (.ok value))

/-- The published count and the turns that run, after some events. -/
def afterEvents (actions : List (BridgeReads × BridgeEvent)) :
    Option (Nat × List RunningTurn) :=
  (runActions step start actions).map fun system =>
    (system.bridge.publishedOpenTurns, system.running)

def firstTurn : RunningTurn := ⟨"t", .enhancedCodex, some (.str "1"), false⟩

example : afterEvents [fromClient (startTurn "1")] = some (1, [firstTurn]) := by
  decide

/-- A turn that its own child completed leaves the bridge idle. -/
theorem completed_turn_is_idle :
    ∃ system, runActions step start [fromClient (startTurn "1"),
        fromChild .enhancedCodex completed] = some system ∧
      system.bridge.publishedOpenTurns = 0 ∧ system.running = [] := by
  have horderly : ∀ system, step start (fromClient (startTurn "1")) =
      some system → Orderly system (fromChild .enhancedCodex completed) := by
    rintro system hstep
    cases hstep
    constructor
    · intro id request hmethod
      cases hmethod
    · intro _ _
      decide
  have hfirst : Orderly start (fromClient (startTurn "1")) := by
    change state.openTurns.len + 1 < 2 ^ 32
    decide
  refine ⟨_, rfl, rfl, ?_⟩
  exact idle_of_published_zero _ _ _ _ _ (GuardedRun.cons hfirst rfl
    (GuardedRun.cons (horderly _ rfl) rfl GuardedRun.nil)) rfl

/-- A refused second turn takes the running first one out of the count, and so
does a completion from the other child. -/
theorem running_turn_disappears :
    afterEvents [fromClient (startTurn "1"), fromClient (startTurn "2"),
        fromChild .enhancedCodex (refusal "2")] = some (0, [firstTurn]) ∧
      afterEvents [fromClient (startTurn "1"),
        fromChild .officialCodex completed] = some (0, [firstTurn]) := by
  decide

end OneThread

end TurnSystem

end Vellum.Enhanced

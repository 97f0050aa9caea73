/-
Whether the answer of a child reaches the client that asked.  A response that
the bridge fails on is an error to the transports, which no longer know what it
was the answer to: stdio reports it under no id and the multiplexer drops it.
-/
import Vellum.Enhanced.Multiplex

namespace Vellum.Enhanced

open Option

/-- A response with an id. -/
def isResponseTo (id value : Json) : Bool :=
  (value.get "method").isNone && value.get "id" = some id

/-- What the stdio transport writes to the client. -/
def writtenToClient : Outcome → List Json
  | .ok actions => actions.filterMap fun action =>
    match action with
    | .toClient value => some value
    | _ => none
  | .error error => [.obj [("method", .str "vellum/runtimeError"),
      ("params", .obj [("message", .str error.text)])]]

/-- What the multiplexer delivers to one client. -/
def deliveredTo (client : Nat) (deliveries : List Delivery) : List Json :=
  deliveries.filterMap fun delivery =>
    match delivery with
    | .toClient receiver value => if receiver = client then some value else none
    | _ => none

namespace BridgeState

/-- What the pending binding of a response asks of it. -/
def SettlesPending (pending : Option PendingBinding) (plane : ExecutionPlane)
    (value : Json) : Prop :=
  ∀ binding, pending = some binding →
    binding.plane = plane ∧ ((value.get "error").isSome = true ∨
      ∃ threadId, responseThreadId value = .ok threadId ∧
        ∀ expected, binding.expectedThreadId = some expected →
          expected = threadId)

/-- The client sees the response: it does not answer the bridge's own request,
and if it settles a pending binding, it comes from the right child and is an
error or names the thread that is expected. -/
def Answerable (state : BridgeState) (plane : ExecutionPlane)
    (id value : Json) : Prop :=
  state.shadowRequests.get id = none ∧
    SettlesPending (state.pendingBindings.get id) plane value

/-- Changing one field leaves what lies under the others. -/
theorem pointer_modify_ne {name key : String} {rest : List String}
    (hne : key ≠ name) (change : Json → Json) (value : Json) :
    (value.modify name change).pointer (key :: rest) =
      value.pointer (key :: rest) := by
  cases value with
  | obj fields =>
    obtain ⟨changed, hchanged, -⟩ := Json.modify_obj name change fields
    have hget := Json.get_modify name key change (.obj fields)
    rw [if_neg hne, hchanged] at hget
    rw [hchanged, Json.pointer, Json.pointer, hget]
  | null | bool _ | num _ | str _ | arr _ => rfl

variable (state : BridgeState) {id value : Json}

theorem pointer_modify_self {name : String} {rest : List String}
    {change : Json → Json}
    (hchange : ∀ field : Json, (change field).pointer rest = field.pointer rest) :
    (value.modify name change).pointer (name :: rest) =
      value.pointer (name :: rest) := by
  cases value with
  | obj fields =>
    obtain ⟨changed, hchanged, -⟩ := Json.modify_obj name change fields
    have hget := Json.get_modify name name change (.obj fields)
    rw [if_pos rfl, hchanged] at hget
    rw [hchanged, Json.pointer, Json.pointer, hget]
    cases (Json.obj fields).get name with
    | none => rfl
    | some field => exact hchange field
  | null | bool _ | num _ | str _ | arr _ => rfl

theorem responseThreadId_routeDesktopBackendToRelay
    (relayOrigin : Option String) (value : Json) :
    responseThreadId (routeDesktopBackendToRelay relayOrigin value) =
      responseThreadId value := by
  cases relayOrigin with
  | none => rfl
  | some origin =>
    have hthread : ∀ rest, (key : String) → key ≠ "workspaceRouting" →
        (value.modify "result" (routeWorkspaceToRelay origin)).pointer
            ("result" :: key :: rest) =
          value.pointer ("result" :: key :: rest) :=
      fun rest key hne => pointer_modify_self fun field =>
        pointer_modify_ne hne _ field
    rw [responseThreadId, responseThreadId, routeDesktopBackendToRelay,
      hthread ["id"] "thread" (by decide), hthread [] "threadId" (by decide)]

/-- A response is answered under its id, or fails where it does not settle its
pending binding. -/
theorem bindPending_cases (createdAt : String → Int) (plane : ExecutionPlane)
    (hid : value.get "id" = some id) (hmethod : value.get "method" = none) :
    (∃ answer, (state.bindPending createdAt plane id value).2 =
        .ok [.toClient answer] ∧ isResponseTo id answer = true ∧
      SettlesPending (state.pendingBindings.get id) plane value) ∨
    ∃ error, (state.bindPending createdAt plane id value).2 = .error error ∧
      ¬ SettlesPending (state.pendingBindings.get id) plane value := by
  have hvalue : isResponseTo id value = true := by
    rw [isResponseTo, hid, hmethod]
    simp
  have herror : ∀ message,
      isResponseTo id (jsonRpcError id (-32071) message) = true := by
    intro message
    simp [isResponseTo, jsonRpcError, Json.get]
  rw [bindPending]
  split
  · rename_i hnone
    refine Or.inl ⟨value, rfl, hvalue, ?_⟩
    rw [hnone]
    rintro _ ⟨⟩
  · rename_i pending hpending
    rw [hpending]
    dsimp only
    split
    · rename_i hplane
      exact Or.inr ⟨_, rfl, fun hsettles => hplane (hsettles pending rfl).1⟩
    · rename_i hplane
      split
      · rename_i hfailed
        refine Or.inl ⟨value, rfl, hvalue, ?_⟩
        rintro _ ⟨⟩
        exact ⟨of_not_not hplane, Or.inl hfailed⟩
      · rename_i hfailed
        split
        · rename_i error hreturned
          refine Or.inr ⟨_, rfl, fun hsettles => ?_⟩
          rcases (hsettles pending rfl).2 with hsome | ⟨threadId, hok, -⟩
          · exact hfailed hsome
          · rw [hreturned] at hok
            cases hok
        · rename_i returned hreturned
          split
          · rename_i expected hexpected
            obtain ⟨hsome, hne⟩ := filter_eq_some_iff.mp hexpected
            refine Or.inr ⟨_, rfl, fun hsettles => ?_⟩
            rcases (hsettles pending rfl).2 with hsome' | ⟨threadId, hok, hsame⟩
            · exact hfailed hsome'
            · rw [hreturned] at hok
              cases hok
              exact of_decide_eq_true hne (hsame expected hsome)
          · rename_i hexpected
            have hsettles : SettlesPending (some pending) plane value := by
              rintro _ ⟨⟩
              refine ⟨of_not_not hplane, Or.inr ⟨returned, hreturned, ?_⟩⟩
              intro expected hsome
              rw [hsome] at hexpected
              by_contra hne
              rw [filter_some, if_pos (decide_eq_true hne)] at hexpected
              cases hexpected
            split
            · exact Or.inl ⟨value, rfl, hvalue, hsettles⟩
            · exact Or.inl ⟨_, rfl, herror _, hsettles⟩

theorem pendingBindings_settleTurnRequest (id value : Json) :
    (state.settleTurnRequest id value).pendingBindings =
      state.pendingBindings := by
  rw [settleTurnRequest]
  split
  · rfl
  · dsimp only
    split
    · rw [closeTurn]
      split
      · rfl
      · rfl
    · rfl

/-- A response is passed on or turned into another response, under its id, or
it fails or is none of the client's. -/
theorem onResponse_cases (reads : BridgeReads) (plane : ExecutionPlane)
    (hid : value.get "id" = some id) (hmethod : value.get "method" = none) :
    (∃ answer, (state.onResponse reads plane id value).2 =
        .ok [.toClient answer] ∧ isResponseTo id answer = true ∧
      state.Answerable plane id value) ∨
    (∃ error, (state.onResponse reads plane id value).2 = .error error ∧
      ¬ state.Answerable plane id value) ∨
    (state.onResponse reads plane id value).2 =
        .ok (shadowAnswer reads.print plane value) ∧
      ¬ state.Answerable plane id value := by
  rw [onResponse]
  split
  · rename_i hshadow
    refine Or.inr (Or.inr ⟨rfl, fun hanswerable => ?_⟩)
    rw [HashMap.contains, hanswerable.1] at hshadow
    cases hshadow
  · rename_i hshadow
    have hnone : state.shadowRequests.get id = none := by
      rw [HashMap.contains, Bool.not_eq_true, isSome_eq_false_iff,
        isNone_iff_eq_none] at hshadow
      exact hshadow
    dsimp only
    generalize hanswer : (if state.accountReads.contains id then
      routeDesktopBackendToRelay reads.relayOrigin value else value) = answer
    have hget : ∀ key, key ≠ "result" → answer.get key = value.get key := by
      intro key hkey
      rw [← hanswer]
      split
      · exact get_routeDesktopBackendToRelay hkey _ _
      · rfl
    have hthread : responseThreadId answer = responseThreadId value := by
      rw [← hanswer]
      split
      · exact responseThreadId_routeDesktopBackendToRelay _ _
      · rfl
    have hsettles : ∀ table : HashMap Json PendingBinding,
        SettlesPending (table.get id) plane answer ↔
          SettlesPending (table.get id) plane value := by
      intro table
      rw [SettlesPending, SettlesPending, hthread, hget "error" (by decide)]
    have hcases := bindPending_cases
      (settleTurnRequest { state with
        initializeRequests := state.initializeRequests.remove id
        accountReads := state.accountReads.remove id } id answer)
      reads.createdAt plane ((hget "id" (by decide)).trans hid)
      ((hget "method" (by decide)).trans hmethod)
    rw [pendingBindings_settleTurnRequest, hsettles] at hcases
    rcases hcases with ⟨sent, hok, hsent, hmet⟩ | ⟨error, hfailed, hunmet⟩
    · exact Or.inl ⟨sent, hok, hsent, hnone, hmet⟩
    · exact Or.inr (Or.inl ⟨error, hfailed, fun hanswerable =>
        hunmet hanswerable.2⟩)

theorem onChildValue_response {state : BridgeState} {reads : BridgeReads}
    {plane : ExecutionPlane} (hid : value.get "id" = some id)
    (hmethod : value.get "method" = none) :
    state.onChildValue reads plane value =
      state.onResponse reads plane id value := by
  rw [onChildValue, hid, hmethod]

/-- Nothing of a shadow request is a response to the client. -/
theorem get_of_mem_shadowAnswer {print : Json → String} {plane : ExecutionPlane}
    {sent : Json} (hsent : .toClient sent ∈ shadowAnswer print plane value) :
    sent.get "id" = none ∧ (sent.get "method").isSome = true := by
  rw [shadowAnswer] at hsent
  split at hsent
  · rw [List.mem_singleton] at hsent
    cases hsent
    exact ⟨rfl, rfl⟩
  · cases hsent

/-- On stdio the client gets one response for the response of a child exactly
when the bridge can answer with it. -/
theorem stdio_answers_iff (reads : BridgeReads) (plane : ExecutionPlane)
    (hid : value.get "id" = some id) (hmethod : value.get "method" = none) :
    (∃ answer, (writtenToClient
        (state.onChildValue reads plane value).2).filter (isResponseTo id) =
      [answer]) ↔ state.Answerable plane id value := by
  rw [onChildValue_response hid hmethod]
  rcases onResponse_cases state reads plane hid hmethod with
    ⟨answer, hok, hanswer, hanswerable⟩ | ⟨error, hfailed, hnot⟩ | ⟨hok, hnot⟩
  · rw [hok]
    refine ⟨fun _ => hanswerable, fun _ => ⟨answer, ?_⟩⟩
    simp [writtenToClient, hanswer]
  · rw [hfailed]
    refine ⟨?_, fun hanswerable => absurd hanswerable hnot⟩
    rintro ⟨answer, hone⟩
    cases hone
  · rw [hok]
    refine ⟨?_, fun hanswerable => absurd hanswerable hnot⟩
    rintro ⟨answer, hone⟩
    have hmem : answer ∈ (writtenToClient (.ok (shadowAnswer reads.print plane
        value))).filter (isResponseTo id) := by
      rw [hone]
      exact List.mem_singleton_self _
    obtain ⟨hwritten, hresponse⟩ := List.mem_filter.mp hmem
    obtain ⟨action, haction, hvalue⟩ := List.mem_filterMap.mp hwritten
    cases action with
    | toClient sent =>
      cases hvalue
      have hnone := (get_of_mem_shadowAnswer haction).1
      simp [isResponseTo, hnone] at hresponse
    | toChild _ _ => cases hvalue
    | toRelay _ => cases hvalue

end BridgeState

theorem get_setField_ne {name other key : String} {field value : Json}
    (hpresent : (value.get key).isSome = true) (hne : other ≠ name) :
    (setField name field value).get other = value.get other := by
  cases value with
  | obj fields => rw [setField, Json.get_insertField, if_neg hne]
  | null | bool _ | num _ | str _ | arr _ => cases hpresent

/-- A pending request is answered once, under the id it had. -/
theorem Ids.response_of_pending {ids : Ids} {client : Nat} {key answer : Json}
    {pending : PendingRequest} (hresponse : isResponseTo key answer = true)
    (hpending : ids.requests.get key = some pending)
    (hclient : pending.client = client) :
    ids.response client answer =
        .ok ({ ids with requests := ids.requests.remove key },
          setField "id" pending.id answer, some pending.method) ∧
      isResponseTo pending.id (setField "id" pending.id answer) = true := by
  rw [isResponseTo, Bool.and_eq_true, isNone_iff_eq_none,
    decide_eq_true_iff] at hresponse
  obtain ⟨hmethod, hid⟩ := hresponse
  have hpresent : (answer.get "id").isSome = true := by
    rw [hid]
    rfl
  have hkey : idOf answer = key := by
    rw [idOf, hid]
    rfl
  constructor
  · rw [response, hmethod, hkey, hpending]
    simp only [isSome_none, Bool.false_eq_true, ↓reduceIte, hclient,
      ne_eq, not_true_eq_false]
  · rw [isResponseTo, BridgeState.get_setField hpresent,
      get_setField_ne hpresent (by decide), hmethod]
    simp

namespace Multiplexer

theorem isResponseTo_routeDesktopAccountRead (client : Nat)
    (method : Option String) (relayOrigin : Option String) (id answer : Json) :
    isResponseTo id (routeDesktopAccountRead client method relayOrigin answer) =
      isResponseTo id answer := by
  rw [routeDesktopAccountRead]
  split
  · rw [isResponseTo, isResponseTo,
      BridgeState.get_routeDesktopBackendToRelay (by decide),
      BridgeState.get_routeDesktopBackendToRelay (by decide)]
  · rfl

/-- The multiplexer delivers one response for the response of a child exactly
when the bridge can answer with it. -/
theorem multiplexed_answers_iff {mux : Multiplexer} {client : Nat}
    {key value : Json} {pending : PendingRequest}
    (hopen : mux.clients.contains client = true)
    (hpending : mux.ids.requests.get key = some pending)
    (hclient : pending.client = client)
    (hid : value.get "id" = some key) (hmethod : value.get "method" = none)
    (reads : MultiplexReads) (plane : ExecutionPlane) :
    (∃ answer, (deliveredTo client
        (mux.onChild reads client plane value).2).filter
          (isResponseTo pending.id) = [answer]) ↔
      mux.bridge.Answerable plane key value := by
  rw [onChild, hopen, BridgeState.onChildValue_response hid hmethod]
  simp only [Bool.not_true, Bool.false_eq_true, ↓reduceIte]
  generalize hresult : mux.bridge.onResponse
    { reads.bridge with relayOrigin := none } plane key value = result
  have hcases := BridgeState.onResponse_cases mux.bridge
    { reads.bridge with relayOrigin := none } plane hid hmethod
  rw [hresult] at hcases
  obtain ⟨bridge, outcome⟩ := result
  rcases hcases with
    ⟨answer, hok, hanswer, hanswerable⟩ | ⟨error, hfailed, hnot⟩ | ⟨hok, hnot⟩
  · cases hok
    obtain ⟨hresponse, hsent⟩ :=
      Ids.response_of_pending hanswer hpending hclient
    refine ⟨fun _ => hanswerable, fun _ => ⟨routeDesktopAccountRead client
      (some pending.method) reads.bridge.relayOrigin
      (setField "id" pending.id answer), ?_⟩⟩
    simp [performAll, perform, toClient, hresponse, deliveredTo,
      isResponseTo_routeDesktopAccountRead, hsent]
  · cases hfailed
    refine ⟨?_, fun hanswerable => absurd hanswerable hnot⟩
    rintro ⟨answer, hone⟩
    cases hone
  · cases hok
    refine ⟨?_, fun hanswerable => absurd hanswerable hnot⟩
    rintro ⟨answer, hone⟩
    dsimp only at hone
    rw [BridgeState.shadowAnswer] at hone
    cases herror : value.get "error" with
    | none =>
      rw [herror] at hone
      cases hone
    | some error =>
      rw [herror] at hone
      have hnone : (deliveredTo client (performAll reads client
          [.toClient (runtimeFailed plane (reads.bridge.print error))]
          { mux with bridge }).2).filter (isResponseTo pending.id) = [] := by
        simp [performAll, perform, toClient, Ids.response, runtimeFailed,
          Json.get, deliveredTo, routeDesktopAccountRead, isResponseTo]
      cases hnone.symm.trans hone

end Multiplexer

/-- Every response of a child reaches the client that asked as one response
with the id it sent, on both transports, exactly when the bridge can answer
with it. -/
theorem responses_reach_the_client_iff (plane : ExecutionPlane) :
    (∀ (state : BridgeState) (reads : BridgeReads) (id value : Json),
      value.get "id" = some id → value.get "method" = none →
      ((∃ answer, (writtenToClient
          (state.onChildValue reads plane value).2).filter (isResponseTo id) =
        [answer]) ↔ state.Answerable plane id value)) ∧
    ∀ (mux : Multiplexer) (reads : MultiplexReads) (client : Nat)
        (key value : Json) (pending : PendingRequest),
      mux.clients.contains client = true →
      mux.ids.requests.get key = some pending → pending.client = client →
      value.get "id" = some key → value.get "method" = none →
      ((∃ answer, (deliveredTo client
          (mux.onChild reads client plane value).2).filter
            (isResponseTo pending.id) = [answer]) ↔
        mux.bridge.Answerable plane key value) :=
  ⟨fun state reads _ _ hid hmethod =>
    state.stdio_answers_iff reads plane hid hmethod,
    fun _ reads _ _ _ _ hopen hpending hclient hid hmethod =>
      Multiplexer.multiplexed_answers_iff hopen hpending hclient hid hmethod
        reads plane⟩

namespace ThreadStart

open BridgeState.OneEnhancedThread

def startThread : Json :=
  request "thread/start" [("modelProvider", .str "openai")]

def answered (id : String) (result : Json) : Json :=
  .obj [("id", .str id), ("result", result)]

def named : Json := .obj [("thread", .obj [("id", .str "n")])]

/-- On stdio, after the start was forwarded. -/
def waiting : BridgeState := (state.onClientValue reads.print startThread).1

def allReachable : MultiplexReads :=
  ⟨reads, fun _ => true, fun _ => true⟩

/-- The desktop's start was forwarded on its connection to Official. -/
def multiplexed : Multiplexer :=
  (Multiplexer.new state).run [
    (allReachable, .client 0 (request "initialize" [])),
    (allReachable, .client 0 startThread)]

def pending : PendingBinding := ⟨.officialCodex, "openai", "", none⟩

def pendingStart : PendingRequest := ⟨0, .str "1", "thread/start"⟩

theorem settlesPending_named (id : String) :
    BridgeState.SettlesPending (some pending) .officialCodex
      (answered id named) := by
  rintro binding ⟨⟩
  exact ⟨rfl, Or.inr ⟨"n", rfl, by rintro _ ⟨⟩⟩⟩

/-- A start that names its thread is answered on both transports. -/
theorem named_thread_is_answered :
    (∃ answer, (writtenToClient (waiting.onChildValue reads .officialCodex
        (answered "1" named)).2).filter (isResponseTo (.str "1")) = [answer]) ∧
      ∃ answer, (deliveredTo 0 (multiplexed.onChild allReachable 0
          .officialCodex (answered "vellum:client:0:1" named)).2).filter
        (isResponseTo (.str "1")) = [answer] := by
  have hwaiting : waiting.pendingBindings.get (.str "1") = some pending := by
    decide
  have hmultiplexed : multiplexed.bridge.pendingBindings.get
      (.str "vellum:client:0:1") = some pending := by
    decide
  constructor
  · apply ((responses_reach_the_client_iff .officialCodex).1 waiting reads
      (.str "1") (answered "1" named) rfl rfl).mpr
    refine ⟨by decide, ?_⟩
    rw [hwaiting]
    exact settlesPending_named "1"
  · apply ((responses_reach_the_client_iff .officialCodex).2 multiplexed
      allReachable 0 (.str "vellum:client:0:1")
      (answered "vellum:client:0:1" named) pendingStart (by decide) (by decide)
      rfl rfl rfl).mpr
    refine ⟨by decide, ?_⟩
    rw [hmultiplexed]
    exact settlesPending_named "vellum:client:0:1"

/-- A result that names no thread is answered on neither: stdio writes a message
without an id, the multiplexer nothing. -/
theorem nameless_thread_is_not_answered :
    (writtenToClient (waiting.onChildValue reads .officialCodex
        (answered "1" (.obj []))).2).filter (isResponseTo (.str "1")) = [] ∧
      (multiplexed.onChild allReachable 0 .officialCodex
        (answered "vellum:client:0:1" (.obj []))).2 = [] := by
  decide

end ThreadStart

end Vellum.Enhanced

/-
What a refused request leaves behind.  The tables of a request are filled while
it is routed, before the transport knows whether it can be sent, and the
transport takes back only the translation of its id.
-/
import Vellum.Enhanced.AnsweredRequests
import Vellum.Enhanced.OpenTurns

namespace Vellum.Enhanced

open List Option HashMap

theorem clientRequestId_inj {client client' m n : Nat}
    (heq : clientRequestId client m = clientRequestId client' n) : m = n := by
  have hlist := congrArg String.toList heq
  simp only [clientRequestId, String.toList_append, Nat.toString_eq_repr,
    Nat.toList_repr, append_assoc] at hlist
  have hsplit : ∀ client n : Nat,
      Nat.toDigits 10 client ++ (":".toList ++ Nat.toDigits 10 n) =
        Nat.toDigits 10 client ++ ':' :: Nat.toDigits 10 n := fun _ _ => rfl
  have hrest := append_cancel_left hlist
  rw [hsplit, hsplit] at hrest
  exact Text.toDigits_inj (Text.append_separator_inj
    (Text.colon_notMem_toDigits m) (Text.colon_notMem_toDigits n) hrest).2

/-- An id that the multiplexer gave out before. -/
def IssuedBefore (n : Nat) (id : Json) : Prop :=
  ∃ client m, m < n ∧ id = .str (clientRequestId client m)

theorem not_issuedBefore (client n : Nat) :
    ¬ IssuedBefore n (.str (clientRequestId client n)) := by
  rintro ⟨other, m, hlt, heq⟩
  exact Nat.ne_of_gt hlt (clientRequestId_inj (Json.str.inj heq))

theorem IssuedBefore.succ {n : Nat} {id : Json} (hissued : IssuedBefore n id) :
    IssuedBefore (n + 1) id := by
  obtain ⟨client, m, hlt, heq⟩ := hissued
  exact ⟨client, m, Nat.lt_succ_of_lt hlt, heq⟩

namespace BridgeState

/-- No table of the requests of clients has the id. -/
structure Untracked (state : BridgeState) (id : Json) : Prop where
  turnRequests : state.turnRequests.get id = none
  pendingBindings : state.pendingBindings.get id = none
  accountReads : state.accountReads.get id = none
  initializeRequests : state.initializeRequests.get id = none

/-- The tables of the requests of clients are as before. -/
structure SameRequests (later earlier : BridgeState) : Prop where
  turnRequests : later.turnRequests = earlier.turnRequests
  pendingBindings : later.pendingBindings = earlier.pendingBindings
  accountReads : later.accountReads = earlier.accountReads
  initializeRequests : later.initializeRequests = earlier.initializeRequests

theorem SameRequests.trans {first second third : BridgeState}
    (hlater : third.SameRequests second) (hearlier : second.SameRequests first) :
    third.SameRequests first where
  turnRequests := hlater.turnRequests.trans hearlier.turnRequests
  pendingBindings := hlater.pendingBindings.trans hearlier.pendingBindings
  accountReads := hlater.accountReads.trans hearlier.accountReads
  initializeRequests :=
    hlater.initializeRequests.trans hearlier.initializeRequests

variable {state : BridgeState} {id k : Json}

theorem SameRequests.untracked {later earlier : BridgeState}
    (hsame : later.SameRequests earlier) (huntracked : earlier.Untracked id) :
    later.Untracked id where
  turnRequests := by rw [hsame.turnRequests, huntracked.turnRequests]
  pendingBindings := by rw [hsame.pendingBindings, huntracked.pendingBindings]
  accountReads := by rw [hsame.accountReads, huntracked.accountReads]
  initializeRequests := by
    rw [hsame.initializeRequests, huntracked.initializeRequests]

theorem closeTurn_sameRequests (state : BridgeState) (threadId : String) :
    (state.closeTurn threadId).SameRequests state := by
  rw [closeTurn]
  split
  · exact ⟨rfl, rfl, rfl, rfl⟩
  · exact ⟨rfl, rfl, rfl, rfl⟩

theorem markChildExited_sameRequests (state : BridgeState)
    (plane : ExecutionPlane) :
    (state.markChildExited plane).SameRequests state := by
  cases plane with
  | officialCodex => exact ⟨rfl, rfl, rfl, rfl⟩
  | enhancedCodex => exact ⟨rfl, rfl, rfl, rfl⟩

theorem routeClientResponse_sameRequests (state : BridgeState)
    (print : Json → String) (value : Json) :
    (state.routeClientResponse print value).1.SameRequests state := by
  rw [routeClientResponse]
  split
  · exact ⟨rfl, rfl, rfl, rfl⟩
  · split
    · exact ⟨rfl, rfl, rfl, rfl⟩
    · dsimp only
      split
      · exact ⟨rfl, rfl, rfl, rfl⟩
      · exact ⟨rfl, rfl, rfl, rfl⟩

theorem onNotification_sameRequests (state : BridgeState)
    (createdAt : String → Int) (plane : ExecutionPlane) (method : String)
    (value : Json) :
    (state.onNotification createdAt plane method value).1.SameRequests
      state := by
  apply onNotification_keeps (r := SameRequests) _ _ _ _ _
    (fun _ => ⟨rfl, rfl, rfl, rfl⟩) SameRequests.trans closeTurn_sameRequests
  rw [bindSpawnedAgentThreads]
  split
  all_goals exact ⟨rfl, rfl, rfl, rfl⟩

/-! Only a request puts its own id into the tables. -/

theorem recordAccountRead_untracked (huntracked : state.Untracked k)
    (hne : id ≠ k) (method : String) :
    (state.recordAccountRead method (some id)).Untracked k := by
  rw [recordAccountRead]
  split
  · obtain ⟨hturns, hpending, hreads, hinitial⟩ := huntracked
    refine ⟨hturns, hpending, ?_, hinitial⟩
    rw [get_insert, if_neg hne.symm, hreads]
  · exact huntracked

theorem openTurn_untracked (huntracked : state.Untracked k) (hne : id ≠ k)
    (method : String) (params : Json) (plane : ExecutionPlane) :
    (state.openTurn method params plane (some id)).Untracked k := by
  rw [openTurn]
  split
  · obtain ⟨hturns, hpending, hreads, hinitial⟩ := huntracked
    refine ⟨?_, hpending, hreads, hinitial⟩
    change (state.turnRequests.insert id _).get k = none
    rw [get_insert, if_neg hne.symm, hturns]
  · exact huntracked

theorem recordPending_untracked (huntracked : state.Untracked k) (hne : id ≠ k)
    (pending : Option PendingBinding) :
    (state.recordPending (some id) pending).Untracked k := by
  cases pending with
  | none => exact huntracked
  | some pending =>
    obtain ⟨hturns, hpending, hreads, hinitial⟩ := huntracked
    refine ⟨hturns, ?_, hreads, hinitial⟩
    change (state.pendingBindings.insert id pending).get k = none
    rw [get_insert, if_neg hne.symm, hpending]

theorem forwardRequest_sameRequests {value : Json} (hid : value.get "id" = none)
    (method : String) :
    (state.forwardRequest method value).1.SameRequests state := by
  rw [forwardRequest, hid]
  split
  · exact ⟨rfl, rfl, rfl, rfl⟩
  · split
    · exact ⟨rfl, rfl, rfl, rfl⟩
    · have hopen : ∀ params plane,
          (state.openTurn method params plane none).SameRequests state := by
        intro params plane
        rw [openTurn]
        split
        · exact ⟨rfl, rfl, rfl, rfl⟩
        · exact ⟨rfl, rfl, rfl, rfl⟩
      exact hopen _ _

section

variable (huntracked : state.Untracked k)
include huntracked

theorem forwardRequest_untracked {value : Json} (hne : value.get "id" ≠ some k)
    (method : String) : (state.forwardRequest method value).1.Untracked k := by
  cases hid : value.get "id" with
  | none => exact (forwardRequest_sameRequests hid method).untracked huntracked
  | some id =>
    have hk : id ≠ k := fun heq => hne (hid.trans (congrArg some heq))
    have hread := recordAccountRead_untracked huntracked hk method
    rw [forwardRequest, hid]
    split
    · exact hread
    · split
      · exact hread
      · exact recordPending_untracked
          (openTurn_untracked hread hk method _ _) hk _

theorem onInitialize_untracked {value : Json} (hne : value.get "id" ≠ some k) :
    (state.onInitialize value).1.Untracked k := by
  obtain ⟨hturns, hpending, hreads, hinitial⟩ := huntracked
  rw [onInitialize]
  split
  · exact ⟨hturns, hpending, hreads, hinitial⟩
  · rename_i id hid
    have hk : k ≠ id := fun heq => hne (hid.trans (congrArg some heq.symm))
    have hinserted : (state.initializeRequests.insert id ()).get k = none := by
      rw [get_insert, if_neg hk, hinitial]
    dsimp only
    split
    · exact ⟨hturns, hpending, hreads, hinserted⟩
    · exact ⟨hturns, hpending, hreads, hinserted⟩

theorem onClientValue_untracked {value : Json} (hne : value.get "id" ≠ some k)
    (print : Json → String) :
    (state.onClientValue print value).1.Untracked k := by
  rw [onClientValue]
  split
  · exact (routeClientResponse_sameRequests state print value).untracked
      huntracked
  · dsimp only
    split
    · exact huntracked
    · split
      · exact huntracked
      · split
        · exact huntracked
        · split
          · exact onInitialize_untracked huntracked hne
          · exact forwardRequest_untracked huntracked hne _

theorem bindPending_untracked (createdAt : String → Int)
    (plane : ExecutionPlane) (id value : Json) :
    (state.bindPending createdAt plane id value).1.Untracked k := by
  obtain ⟨hturns, hpending, hreads, hinitial⟩ := huntracked
  have hremoved : (state.pendingBindings.remove id).get k = none := by
    rw [get_remove, hpending, ite_self]
  rw [bindPending]
  split
  · exact ⟨hturns, hpending, hreads, hinitial⟩
  · dsimp only
    split
    · exact ⟨hturns, hremoved, hreads, hinitial⟩
    · split
      · exact ⟨hturns, hremoved, hreads, hinitial⟩
      · split
        · exact ⟨hturns, hremoved, hreads, hinitial⟩
        · split
          · exact ⟨hturns, hremoved, hreads, hinitial⟩
          · split
            · exact ⟨hturns, hremoved, hreads, hinitial⟩
            · exact ⟨hturns, hremoved, hreads, hinitial⟩

theorem settleTurnRequest_untracked (id value : Json) :
    (state.settleTurnRequest id value).Untracked k := by
  obtain ⟨hturns, hpending, hreads, hinitial⟩ := huntracked
  have hremoved : (state.turnRequests.remove id).get k = none := by
    rw [get_remove, hturns, ite_self]
  rw [settleTurnRequest]
  split
  · exact ⟨hturns, hpending, hreads, hinitial⟩
  · dsimp only
    split
    · exact (closeTurn_sameRequests _ _).untracked
        ⟨hremoved, hpending, hreads, hinitial⟩
    · exact ⟨hremoved, hpending, hreads, hinitial⟩

theorem onChildValue_untracked (reads : BridgeReads) (plane : ExecutionPlane)
    (value : Json) : (state.onChildValue reads plane value).1.Untracked k := by
  rcases onChildValue_cases state reads plane value with
    ⟨id, -, -, heq⟩ | ⟨method, -, -, heq⟩ | ⟨id, -, -, heq⟩ | ⟨-, -, heq⟩
  · rw [heq]
    exact ⟨huntracked.turnRequests, huntracked.pendingBindings,
      huntracked.accountReads, huntracked.initializeRequests⟩
  · rw [heq]
    exact (onNotification_sameRequests _ _ _ _ _).untracked huntracked
  · rw [heq, onResponse]
    split
    · exact ⟨huntracked.turnRequests, huntracked.pendingBindings,
        huntracked.accountReads, huntracked.initializeRequests⟩
    · obtain ⟨hturns, hpending, hreads, hinitial⟩ := huntracked
      apply bindPending_untracked
      apply settleTurnRequest_untracked
      refine ⟨hturns, hpending, ?_, ?_⟩
      · rw [get_remove, hreads, ite_self]
      · rw [get_remove, hinitial, ite_self]
  · rw [heq]
    exact huntracked

end

end BridgeState

namespace Ids

/-- Requests are answered or dropped, and no id is given out. -/
structure Shrinks (later earlier : Ids) : Prop where
  next : later.next = earlier.next
  requests : ∀ id pending, later.requests.get id = some pending →
    earlier.requests.get id = some pending

theorem Shrinks.refl (ids : Ids) : ids.Shrinks ids := ⟨rfl, fun _ _ h => h⟩

theorem Shrinks.trans {first second third : Ids}
    (hlater : third.Shrinks second) (hearlier : second.Shrinks first) :
    third.Shrinks first where
  next := hlater.next.trans hearlier.next
  requests id pending hget :=
    hearlier.requests id pending (hlater.requests id pending hget)

theorem response_shrinks {ids after : Ids} {client : Nat} {value answer : Json}
    {method : Option String}
    (hok : ids.response client value = .ok (after, answer, method)) :
    after.Shrinks ids := by
  rw [response] at hok
  split at hok
  · split at hok
    · cases hok
      exact ⟨rfl, fun _ _ h => h⟩
    · cases hok
      exact Shrinks.refl _
  · split at hok
    · cases hok
    · split at hok
      · cases hok
      · cases hok
        exact ⟨rfl, fun _ _ h => get_of_remove h⟩

theorem disconnect_shrinks (ids : Ids) (client : Nat) :
    (ids.disconnect client).Shrinks ids where
  next := rfl
  requests id pending hget := by
    rw [disconnect, get_retain] at hget
    exact (filter_eq_some_iff.mp hget).1

theorem foldl_disconnect_shrinks (clients : List Nat) (ids : Ids) :
    (clients.foldl disconnect ids).Shrinks ids := by
  induction clients generalizing ids with
  | nil => exact Shrinks.refl ids
  | cons client rest ih => exact (ih _).trans (disconnect_shrinks ids client)

end Ids

namespace Multiplexer

/-- Sending and delivering leave the bridge, and only take requests back. -/
structure Carries (later earlier : Multiplexer) : Prop where
  bridge : later.bridge = earlier.bridge
  ids : later.ids.Shrinks earlier.ids

theorem refuse_carries (mux : Multiplexer) (client : Nat) (id : Json)
    (message : String) : (mux.refuse client id message).1.Carries mux := by
  rw [refuse]
  split
  · rename_i hok
    exact ⟨rfl, Ids.response_shrinks hok⟩
  · exact ⟨rfl, Ids.Shrinks.refl _⟩

theorem perform_carries (mux : Multiplexer) (reads : MultiplexReads)
    (client : Nat) (action : BridgeAction) :
    (mux.perform reads client action).1.Carries mux := by
  cases action with
  | toRelay value => exact ⟨rfl, Ids.Shrinks.refl _⟩
  | toClient value =>
    rw [perform, toClient]
    split
    · rename_i hok
      exact ⟨rfl, Ids.response_shrinks hok⟩
    · exact ⟨rfl, Ids.Shrinks.refl _⟩
  | toChild plane value =>
    rw [perform, toChild]
    split
    · split
      · exact refuse_carries mux client _ _
      · exact ⟨rfl, Ids.Shrinks.refl _⟩
    · split
      · have hrefused := refuse_carries { mux with
          failedSockets := mux.failedSockets.insert (client, plane) () }
          client (idOf value) coreConnectionFailed
        exact ⟨hrefused.bridge, hrefused.ids⟩
      · split
        · exact ⟨rfl, Ids.Shrinks.refl _⟩
        · exact ⟨rfl, Ids.Shrinks.refl _⟩

theorem performAll_carries (reads : MultiplexReads) (client : Nat)
    (actions : List BridgeAction) (mux : Multiplexer) :
    (performAll reads client actions mux).1.Carries mux := by
  induction actions generalizing mux with
  | nil => exact ⟨rfl, Ids.Shrinks.refl _⟩
  | cons action rest ih =>
    have hfirst := perform_carries mux reads client action
    have hrest := ih (mux.perform reads client action).1
    exact ⟨hrest.bridge.trans hfirst.bridge, hrest.ids.trans hfirst.ids⟩

/-- Every id in a table was given out. -/
structure Issued (mux : Multiplexer) : Prop where
  requests : ∀ id pending, mux.ids.requests.get id = some pending →
    IssuedBefore mux.ids.next id
  bridge : ∀ id, ¬ IssuedBefore mux.ids.next id → mux.bridge.Untracked id

theorem Issued.carries {later earlier : Multiplexer} (hissued : earlier.Issued)
    (hcarries : later.Carries earlier) : later.Issued where
  requests id pending hget := by
    rw [hcarries.ids.next]
    exact hissued.requests id pending (hcarries.ids.requests id pending hget)
  bridge id hnot := by
    rw [hcarries.bridge]
    rw [hcarries.ids.next] at hnot
    exact hissued.bridge id hnot

variable {client : Nat} {key : Json} {mux : Multiplexer}

/-- A line of the client after its id was translated. -/
theorem Issued.translated (hissued : mux.Issued) {value translated : Json}
    {ids : Ids}
    (hrequest : mux.ids.request client value = .ok (ids, translated))
    (print : Json → String) :
    (Multiplexer.mk (mux.bridge.onClientValue print translated).1 ids
      mux.clients mux.sockets mux.failedSockets).Issued := by
  rw [Ids.request] at hrequest
  split at hrequest
  · rename_i hmethod
    split at hrequest
    · cases hrequest
      refine ⟨hissued.requests, fun id hnot => ?_⟩
      rw [BridgeState.onClientValue, if_pos hmethod]
      exact (BridgeState.routeClientResponse_sameRequests _ _ _).untracked
        (hissued.bridge id hnot)
    · cases hrequest
  · split at hrequest
    · rename_i hid
      cases hrequest
      refine ⟨hissued.requests, fun id hnot => ?_⟩
      apply BridgeState.onClientValue_untracked (hissued.bridge id hnot)
      rw [hid]
      rintro ⟨⟩
    · rename_i original hid
      cases hrequest
      constructor
      · intro id pending hget
        rw [get_insert] at hget
        split at hget
        · rename_i heq
          exact ⟨client, mux.ids.next, Nat.lt_succ_self _, heq⟩
        · exact (hissued.requests id pending hget).succ
      · intro id hnot
        apply BridgeState.onClientValue_untracked
          (hissued.bridge id fun hbefore => hnot hbefore.succ)
        rw [BridgeState.get_setField (by rw [hid]; rfl)]
        intro heq
        exact hnot ⟨client, mux.ids.next, Nat.lt_succ_self _,
          (some.inj heq).symm⟩

theorem Issued.step (hissued : mux.Issued) (reads : MultiplexReads)
    (event : MultiplexEvent) : (mux.step reads event).1.Issued := by
  cases event with
  | client client value =>
    rw [Multiplexer.step, onClient]
    split
    · exact hissued
    · split
      · exact hissued
      · split
        · exact hissued
        · rename_i ids translated hrequest
          have htranslated :=
            hissued.translated hrequest reads.bridge.print
          split
          · rename_i hresult
            rw [hresult] at htranslated
            exact htranslated
          · rename_i hresult
            rw [hresult] at htranslated
            exact htranslated.carries (performAll_carries _ _ _ _)
  | child client plane value =>
    have hbridge : ∀ id, ¬ IssuedBefore mux.ids.next id →
        (mux.bridge.onChildValue { reads.bridge with relayOrigin := none }
          plane value).1.Untracked id := fun id hnot =>
      BridgeState.onChildValue_untracked (hissued.bridge id hnot) _ _ _
    rw [Multiplexer.step, onChild]
    split
    · exact hissued
    · split
      · rename_i hresult
        rw [hresult] at hbridge
        exact ⟨hissued.requests, hbridge⟩
      · rename_i bridge actions hresult
        rw [hresult] at hbridge
        have hlater : (Multiplexer.mk bridge mux.ids mux.clients mux.sockets
            mux.failedSockets).Issued := ⟨hissued.requests, hbridge⟩
        exact hlater.carries (performAll_carries _ _ _ _)
  | control value =>
    rw [Multiplexer.step, onControl]
    split
    · rename_i hok
      exact hissued.carries ⟨rfl, Ids.response_shrinks hok⟩
    · exact hissued
  | opened client => exact ⟨hissued.requests, hissued.bridge⟩
  | closed client =>
    exact hissued.carries ⟨rfl, Ids.disconnect_shrinks _ _⟩
  | socketClosed client plane =>
    rw [Multiplexer.step, onSocketClosed]
    split
    · exact hissued
    · exact ⟨hissued.requests, hissued.bridge⟩
  | relayClosed =>
    exact hissued.carries ⟨rfl, Ids.foldl_disconnect_shrinks _ _⟩
  | exited plane =>
    refine ⟨hissued.requests, fun id hnot => ?_⟩
    exact (BridgeState.markChildExited_sameRequests _ _).untracked
      (hissued.bridge id hnot)

theorem Issued.run (hissued : mux.Issued)
    (events : List (MultiplexReads × MultiplexEvent)) :
    (mux.run events).Issued := by
  induction events generalizing mux with
  | nil => exact hissued
  | cons head rest ih =>
    obtain ⟨reads, event⟩ := head
    exact ih (hissued.step reads event)

theorem issued_new (store : ThreadRuntimeBindingStore)
    (providers : TrustedProviderSet) (officialDigest enhancedDigest : String)
    (models : TrustedModelProviderMap) :
    (Multiplexer.new
      (.new store providers officialDigest enhancedDigest models)).Issued :=
  ⟨by rintro _ _ ⟨⟩, fun _ _ => ⟨rfl, rfl, rfl, rfl⟩⟩

/-! A request that is answered with an error. -/

/-- What the bridge and the transport keep of requests. -/
structure RequestTables where
  openTurns : HashMap String ExecutionPlane
  publishedOpenTurns : Nat
  turnRequests : HashMap Json TurnRequest
  pendingBindings : HashMap Json PendingBinding
  accountReads : HashSet Json
  initializeRequests : HashSet Json
  requests : HashMap Json PendingRequest

def tables (mux : Multiplexer) : RequestTables where
  openTurns := mux.bridge.openTurns
  publishedOpenTurns := mux.bridge.publishedOpenTurns
  turnRequests := mux.bridge.turnRequests
  pendingBindings := mux.bridge.pendingBindings
  accountReads := mux.bridge.accountReads
  initializeRequests := mux.bridge.initializeRequests
  requests := mux.ids.requests

/-- The client gets an error for the id. -/
def AnsweredWithError (client : Nat) (id : Json) (deliveries : List Delivery) :
    Prop :=
  ∃ answer ∈ deliveredTo client deliveries, isResponseTo id answer = true ∧
    (answer.get "error").isSome = true

/-- The request is routed to a live child without an entry in a table of the
bridge. -/
def RoutedWithoutTrace (bridge : BridgeState) (value : Json) : Prop :=
  methodOf value ≠ "initialize" ∧ methodOf value ≠ "account/read" ∧
    BridgeState.closesOnResponse (methodOf value) = none ∧
    ∃ route, bridge.routeMethod (methodOf value) (paramsOf value) = .ok route ∧
      bridge.hasExited route.plane = false ∧ route.pending = none

/-- The requests that leave nothing when they fail: those without an id, Remote
Control requests of another frontend, `initialized`, and what is routed without
an entry. -/
def LeavesNothing (mux : Multiplexer) (client : Nat) (value : Json) : Prop :=
  value.get "id" = none ∨
    (client ≠ 0 ∧ isRemoteControl (methodOf value) = true) ∨
    methodOf value = "initialized" ∨ RoutedWithoutTrace mux.bridge value

/-- Nothing that is delivered is an error. -/
def NoError (client : Nat) (deliveries : List Delivery) : Prop :=
  ∀ answer ∈ deliveredTo client deliveries, answer.get "error" = none

theorem NoError.append {left right : List Delivery}
    (hleft : NoError client left) (hright : NoError client right) :
    NoError client (left ++ right) := by
  intro answer hanswer
  rw [deliveredTo, filterMap_append, mem_append] at hanswer
  rcases hanswer with hmem | hmem
  · exact hleft answer hmem
  · exact hright answer hmem

theorem NoError.not_answered {deliveries : List Delivery}
    (hnone : NoError client deliveries) (id : Json) :
    ¬ AnsweredWithError client id deliveries := by
  rintro ⟨answer, hmem, -, herror⟩
  rw [hnone answer hmem] at herror
  cases herror

/-- A request whose id is not pending is not answered, one that is pending is
sent or answered. -/
theorem toChild_cases (mux : Multiplexer) (reads : MultiplexReads)
    (client : Nat) (plane : ExecutionPlane) (value : Json) :
    (NoError client (mux.toChild reads client plane value).2 ∧
      (mux.toChild reads client plane value).1.ids = mux.ids) ∨
    ∃ pending, mux.ids.requests.get (idOf value) = some pending ∧
      (mux.toChild reads client plane value).1.ids.requests =
        mux.ids.requests.remove (idOf value) := by
  have hrefuse : ∀ (other : Multiplexer) (message : String),
      other.ids = mux.ids →
      (NoError client (other.refuse client (idOf value) message).2 ∧
        (other.refuse client (idOf value) message).1.ids = mux.ids) ∨
      ∃ pending, mux.ids.requests.get (idOf value) = some pending ∧
        (other.refuse client (idOf value) message).1.ids.requests =
          mux.ids.requests.remove (idOf value) := by
    intro other message hids
    have hid : idOf (coreError (idOf value) message) = idOf value := rfl
    have hmethod : (coreError (idOf value) message).get "method" = none := rfl
    rw [refuse, Ids.response, hmethod, hid, hids]
    simp only [isSome_none, Bool.false_eq_true, ↓reduceIte]
    cases hget : mux.ids.requests.get (idOf value) with
    | none => exact Or.inl ⟨by rintro _ ⟨⟩, hids⟩
    | some pending =>
      dsimp only
      split
      · rename_i hresult
        split at hresult
        · cases hresult
        · cases hresult
          exact Or.inr ⟨pending, rfl, rfl⟩
      · exact Or.inl ⟨by rintro _ ⟨⟩, hids⟩
  have hplain : NoError client [.toCore client plane value] := by rintro _ ⟨⟩
  have hstalled : NoError client
      [.toClient client (runtimeFailed plane coreStalled)] := by
    intro answer hanswer
    simp only [deliveredTo, filterMap_cons, ↓reduceIte, filterMap_nil,
      mem_singleton] at hanswer
    rw [hanswer]
    rfl
  rw [toChild]
  split
  · split
    · exact hrefuse mux _ rfl
    · exact Or.inl ⟨by rintro _ ⟨⟩, rfl⟩
  · split
    · exact hrefuse _ _ rfl
    · split
      · exact Or.inl ⟨hplain, rfl⟩
      · exact Or.inl ⟨hstalled, rfl⟩

/-- The messages of one request: to the relay, or to children under its id. -/
def SendsUnder (key : Json) (actions : List BridgeAction) : Prop :=
  ∀ action ∈ actions, (∃ value, action = .toRelay value) ∨
    ∃ plane value, action = .toChild plane value ∧ idOf value = key

theorem sendsUnder_toRelay (key value : Json) :
    SendsUnder key [.toRelay value] := by
  intro action hmem
  rw [mem_singleton] at hmem
  exact Or.inl ⟨value, hmem⟩

theorem sendsUnder_toChild {value : Json} (hid : idOf value = key)
    (plane : ExecutionPlane) : SendsUnder key [.toChild plane value] := by
  intro action hmem
  rw [mem_singleton] at hmem
  exact Or.inr ⟨plane, value, hmem, hid⟩

theorem performAll_absent {reads : MultiplexReads} {actions : List BridgeAction}
    (hsends : SendsUnder key actions)
    (habsent : mux.ids.requests.get key = none) :
    NoError client (performAll reads client actions mux).2 ∧
      (performAll reads client actions mux).1.ids = mux.ids := by
  induction actions generalizing mux with
  | nil => exact ⟨by rintro _ ⟨⟩, rfl⟩
  | cons action rest ih =>
    obtain ⟨hhead, hrest⟩ := forall_mem_cons.mp hsends
    have hfirst : NoError client (mux.perform reads client action).2 ∧
        (mux.perform reads client action).1.ids = mux.ids := by
      rcases hhead with ⟨value, rfl⟩ | ⟨plane, value, rfl, hid⟩
      · exact ⟨by rintro _ ⟨⟩, rfl⟩
      · rcases toChild_cases mux reads client plane value with
          hplain | ⟨pending, hget, -⟩
        · exact hplain
        · rw [hid, habsent] at hget
          cases hget
    have hstill : (mux.perform reads client action).1.ids.requests.get key =
        none := by
      rw [hfirst.2, habsent]
    have hlater := ih hrest hstill
    exact ⟨hfirst.1.append hlater.1, hlater.2.trans hfirst.2⟩

/-- A request that is answered with an error has its translation taken back. -/
theorem performAll_present {reads : MultiplexReads}
    {actions : List BridgeAction} (hsends : SendsUnder key actions)
    {table : HashMap Json PendingRequest} {pending : PendingRequest}
    (hfresh : table.get key = none)
    (hpresent : mux.ids.requests = table.insert key pending) :
    NoError client (performAll reads client actions mux).2 ∨
      (performAll reads client actions mux).1.ids.requests = table := by
  induction actions generalizing mux with
  | nil => exact Or.inl (by rintro _ ⟨⟩)
  | cons action rest ih =>
    obtain ⟨hhead, hrest⟩ := forall_mem_cons.mp hsends
    have hfirst : (NoError client (mux.perform reads client action).2 ∧
        (mux.perform reads client action).1.ids = mux.ids) ∨
        (mux.perform reads client action).1.ids.requests = table := by
      rcases hhead with ⟨value, rfl⟩ | ⟨plane, value, rfl, hid⟩
      · exact Or.inl ⟨by rintro _ ⟨⟩, rfl⟩
      · rcases toChild_cases mux reads client plane value with
          hplain | ⟨_, -, hremoved⟩
        · exact Or.inl hplain
        · right
          rw [perform, hremoved, hpresent, hid, remove_insert hfresh]
    rcases hfirst with ⟨hnone, hids⟩ | htable
    · have hstill : (mux.perform reads client action).1.ids.requests =
          table.insert key pending := by
        rw [hids, hpresent]
      rcases ih hrest hstill with hlater | htable
      · exact Or.inl (hnone.append hlater)
      · exact Or.inr htable
    · right
      have habsent : (mux.perform reads client action).1.ids.requests.get key =
          none := by
        rw [htable, hfresh]
      exact (congrArg Ids.requests
        (performAll_absent hrest habsent).2).trans htable

end Multiplexer

namespace BridgeState

variable (state : BridgeState) (method : String) {value : Json}
  (id : Option Json)

theorem get_forwarded {key name : String} (route : Route)
    (hpresent : (value.get key).isSome = true) (hname : name ≠ "params") :
    (forwarded route value).get name = value.get name := by
  have hnormalize : ∀ request : Json,
      (normalizeEnhancedGuardianConfig route.plane request).get name =
        request.get name := by
    intro request
    rw [normalizeEnhancedGuardianConfig]
    split
    · rw [Json.get_modify, if_neg hname]
    · rfl
  rw [forwarded, hnormalize]
  split
  · exact get_setField_ne hpresent hname
  · rfl

theorem routeMethod_recordAccountRead :
    (state.recordAccountRead method id).routeMethod = state.routeMethod := by
  cases id with
  | none => rfl
  | some id =>
    rw [recordAccountRead]
    split
    · rfl
    · rfl

/-- The state after a routed request was recorded. -/
def recorded (state : BridgeState) (method : String) (params : Json)
    (route : Route) (id : Option Json) : BridgeState :=
  ((state.recordAccountRead method id).openTurn method params route.plane
    id).recordPending id route.pending

theorem openTurn_otherTables (params : Json) (plane : ExecutionPlane)
    (id : Option Json) :
    (state.openTurn method params plane id).accountReads = state.accountReads ∧
      (state.openTurn method params plane id).pendingBindings =
        state.pendingBindings := by
  rw [openTurn]
  split
  · cases id with
    | none => exact ⟨rfl, rfl⟩
    | some id => exact ⟨rfl, rfl⟩
  · exact ⟨rfl, rfl⟩

theorem recordPending_otherTables (pending : Option PendingBinding) :
    (state.recordPending id pending).accountReads = state.accountReads ∧
      (state.recordPending id pending).turnRequests = state.turnRequests := by
  cases id with
  | none => exact ⟨rfl, rfl⟩
  | some id =>
    cases pending with
    | none => exact ⟨rfl, rfl⟩
    | some pending => exact ⟨rfl, rfl⟩

theorem recordAccountRead_otherTables :
    (state.recordAccountRead method id).turnRequests = state.turnRequests ∧
      (state.recordAccountRead method id).pendingBindings =
        state.pendingBindings := by
  cases id with
  | none => exact ⟨rfl, rfl⟩
  | some id =>
    rw [recordAccountRead]
    split
    · exact ⟨rfl, rfl⟩
    · exact ⟨rfl, rfl⟩

theorem recorded_eq_self {state : BridgeState} {method : String}
    {params : Json} {route : Route} (hread : method ≠ "account/read")
    (hcloses : closesOnResponse method = none) (hpending : route.pending = none)
    (id : Option Json) : state.recorded method params route id = state := by
  have hunread : state.recordAccountRead method id = state := by
    cases id with
    | none => rfl
    | some id => rw [recordAccountRead, if_neg hread]
  have hunopened : state.openTurn method params route.plane id = state := by
    rw [openTurn, hcloses]
  have hunbound : state.recordPending id none = state := by
    cases id with
    | none => rfl
    | some id => rfl
  rw [recorded, hpending, hunread, hunopened, hunbound]

/-- A request under a new id that leaves the tables as they were is of none of
the kinds that are recorded. -/
theorem unrecorded_of_sameRequests {state : BridgeState} {key : Json}
    {method : String} {params : Json} {route : Route}
    (huntracked : state.Untracked key)
    (hroute : state.routeMethod method params = .ok route)
    (hsame : (state.recorded method params route (some key)).SameRequests
      state) :
    method ≠ "account/read" ∧ closesOnResponse method = none ∧
      route.pending = none := by
  have hopened := openTurn_otherTables
    (state.recordAccountRead method (some key)) method params route.plane
    (some key)
  have hpended := recordPending_otherTables
    ((state.recordAccountRead method (some key)).openTurn method params
      route.plane (some key)) (some key) route.pending
  have hread := recordAccountRead_otherTables state method (some key)
  refine ⟨?_, ?_, ?_⟩
  · intro hmethod
    have hreads := hsame.accountReads
    rw [recorded, hpended.1, hopened.1, recordAccountRead, if_pos hmethod,
      insert_eq_self_iff, huntracked.accountReads] at hreads
    cases hreads
  · cases hcloses : closesOnResponse method with
    | none => rfl
    | some create =>
      obtain ⟨threadId, -, hthread, -, -⟩ := routeMethod_turn hcloses hroute
      have hturns := hsame.turnRequests
      rw [recorded, hpended.2, openTurn, hcloses, hthread] at hturns
      change (state.recordAccountRead method (some key)).turnRequests.insert
        key _ = _ at hturns
      rw [hread.1, insert_eq_self_iff, huntracked.turnRequests]
        at hturns
      cases hturns
  · cases hpending : route.pending with
    | none => rfl
    | some pending =>
      have hbindings := hsame.pendingBindings
      rw [recorded, hpending] at hbindings
      change HashMap.insert (BridgeState.pendingBindings _) key pending = _
        at hbindings
      rw [hopened.2, hread.2, insert_eq_self_iff,
        huntracked.pendingBindings] at hbindings
      cases hbindings

theorem idOf_forwarded (route : Route)
    (hmethod : (value.get "method").isSome = true) :
    idOf (forwarded route value) = idOf value := by
  rw [idOf, idOf, get_forwarded route hmethod (by decide)]

theorem sendsUnder_broadcast {state : BridgeState} {key official enhanced : Json}
    (hofficial : idOf official = key) (henhanced : idOf enhanced = key) :
    Multiplexer.SendsUnder key (state.broadcast official enhanced) := by
  rw [broadcast]
  intro action hmem
  split at hmem
  · rw [mem_singleton] at hmem
    exact Or.inr ⟨_, _, hmem, hofficial⟩
  · rcases mem_cons.mp hmem with rfl | hrest
    · exact Or.inr ⟨_, _, rfl, hofficial⟩
    · rw [mem_singleton] at hrest
      exact Or.inr ⟨_, _, hrest, henhanced⟩

theorem onInitialize_ok {id : Json} (hid : value.get "id" = some id) :
    ∃ actions, (state.onInitialize value).2 = .ok actions ∧
      (state.onInitialize value).1.initializeRequests =
        state.initializeRequests.insert id () := by
  rw [onInitialize, hid]
  dsimp only
  split
  · exact ⟨_, rfl, rfl⟩
  · exact ⟨_, rfl, rfl⟩

/-- How a request is taken: it is passed on unrecorded, answered, initializes
the children, is refused, or is routed and recorded. -/
theorem onClientValue_request (print : Json → String)
    (hmethod : (value.get "method").isSome = true) :
    (state.onClientValue print value = (state, .ok [.toRelay value]) ∧
      isRemoteControl (methodOf value) = true) ∨
    (state.onClientValue print value =
        (state, .ok (state.broadcast value value)) ∧
      methodOf value = "initialized") ∨
    (methodOf value = "account/rateLimits/read" ∧
      state.onClientValue print value = (state, readRateLimits value)) ∨
    (methodOf value = "initialize" ∧
      state.onClientValue print value = state.onInitialize value) ∨
    (methodOf value ≠ "initialize" ∧ methodOf value ≠ "initialized" ∧
      isRemoteControl (methodOf value) = false ∧
      ((∃ error, state.onClientValue print value =
          (state.recordAccountRead (methodOf value) (value.get "id"),
            .error error) ∧
        ∀ route, state.routeMethod (methodOf value) (paramsOf value) =
          .ok route → state.hasExited route.plane = true) ∨
      ∃ route, state.routeMethod (methodOf value) (paramsOf value) =
          .ok route ∧ state.hasExited route.plane = false ∧
        state.onClientValue print value =
          (state.recorded (methodOf value) (paramsOf value) route
            (value.get "id"), .ok [.toChild route.plane
              (forwarded route value)]))) := by
  have hsome : (value.get "method").isNone = false := by
    rw [← not_isSome, hmethod]
    rfl
  simp only [onClientValue, hsome, Bool.false_eq_true, ↓reduceIte]
  split
  · rename_i hremote
    exact Or.inl ⟨rfl, hremote⟩
  · rename_i hremote
    split
    · rename_i hinitialized
      exact Or.inr (Or.inl ⟨rfl, hinitialized⟩)
    · rename_i hinitialized
      split
      · rename_i hlimits
        exact Or.inr (Or.inr (Or.inl ⟨hlimits, rfl⟩))
      · split
        · rename_i hinitial
          exact Or.inr (Or.inr (Or.inr (Or.inl ⟨hinitial, rfl⟩)))
        · rename_i hinitial
          refine Or.inr (Or.inr (Or.inr (Or.inr ⟨hinitial, hinitialized,
            Bool.not_eq_true _ ▸ hremote, ?_⟩)))
          rw [forwardRequest, routeMethod_recordAccountRead]
          cases hroute : state.routeMethod (methodOf value) (paramsOf value) with
          | error error => exact Or.inl ⟨error, rfl, by rintro _ ⟨⟩⟩
          | ok route =>
            simp only [ensurePlaneAvailable, hasExited_recordAccountRead]
            cases hexited : state.hasExited route.plane with
            | true =>
              refine Or.inl ⟨_, rfl, ?_⟩
              rintro _ ⟨⟩
              exact hexited
            | false => exact Or.inr ⟨route, rfl, hexited, rfl⟩

end BridgeState

namespace Multiplexer

theorem tables_performAll (reads : MultiplexReads) (client : Nat)
    (actions : List BridgeAction) (mux : Multiplexer) :
    (performAll reads client actions mux).1.tables =
      { mux.tables with
        requests := (performAll reads client actions mux).1.ids.requests } := by
  rw [tables, (performAll_carries reads client actions mux).bridge]
  rfl

/-- A request without an id leaves nothing. -/
theorem tables_of_no_id {mux : Multiplexer} (hissued : mux.Issued)
    {reads : MultiplexReads} {client : Nat} {value : Json}
    (hopen : mux.clients.contains client = true)
    (hlocal : ¬ (client ≠ 0 ∧ isRemoteControl (methodOf value) = true))
    (hmethod : (value.get "method").isSome = true)
    (hid : value.get "id" = none)
    (hanswered : AnsweredWithError client (idOf value)
      (mux.onClient reads client value).2) :
    (mux.onClient reads client value).1.tables = mux.tables := by
  have hnull : idOf value = .null := by
    rw [idOf, hid]
    rfl
  have habsent : mux.ids.requests.get .null = none := by
    cases hget : mux.ids.requests.get .null with
    | none => rfl
    | some pending =>
      obtain ⟨_, _, -, heq⟩ := hissued.requests _ _ hget
      cases heq
  have hrequest : mux.ids.request client value = .ok (mux.ids, value) := by
    rw [Ids.request, ← not_isSome, hmethod, hid]
    rfl
  -- Whatever is sent under no id is not answered.
  have hsent : ∀ actions, SendsUnder .null actions →
      ¬ AnsweredWithError client (idOf value)
        (performAll reads client actions mux).2 := fun actions hsends =>
    (performAll_absent hsends habsent).1.not_answered _
  rw [onClient, hopen] at hanswered ⊢
  simp only [Bool.not_true, Bool.false_eq_true, ↓reduceIte, hrequest]
    at hanswered ⊢
  rw [if_neg hlocal] at hanswered ⊢
  rcases mux.bridge.onClientValue_request reads.bridge.print hmethod with
    ⟨heq, -⟩ | ⟨heq, -⟩ | ⟨-, heq⟩ | ⟨-, heq⟩ |
    ⟨-, -, -, ⟨error, heq, -⟩ | ⟨route, -, -, heq⟩⟩
  · rw [heq] at hanswered
    exact absurd hanswered (hsent _ (sendsUnder_toRelay .null value))
  · rw [heq] at hanswered
    exact absurd hanswered
      (hsent _ (BridgeState.sendsUnder_broadcast hnull hnull))
  · rw [heq, BridgeState.readRateLimits, hid]
  · rw [heq, BridgeState.onInitialize, hid]
  · rw [heq, hid]
    rfl
  · rw [heq] at hanswered
    dsimp only at hanswered
    have hsends := sendsUnder_toChild
      ((BridgeState.idOf_forwarded route hmethod).trans hnull) route.plane
    generalize mux.bridge.recorded _ _ _ _ = bridge at hanswered
    have hstill : ({ mux with bridge } : Multiplexer).ids.requests.get .null =
        none := habsent
    exact absurd hanswered ((performAll_absent hsends hstill).1.not_answered _)

/-- A request with an id leaves nothing exactly when it is of the kinds that
are not recorded. -/
theorem tables_of_id_iff {mux : Multiplexer} (hissued : mux.Issued)
    {reads : MultiplexReads} {client : Nat} {value id : Json}
    (hopen : mux.clients.contains client = true)
    (hlocal : ¬ (client ≠ 0 ∧ isRemoteControl (methodOf value) = true))
    (hmethod : (value.get "method").isSome = true)
    (hid : value.get "id" = some id)
    (hanswered : AnsweredWithError client (idOf value)
      (mux.onClient reads client value).2) :
    (mux.onClient reads client value).1.tables = mux.tables ↔
      methodOf value = "initialized" ∨ RoutedWithoutTrace mux.bridge value := by
  let key : Json := .str (clientRequestId client mux.ids.next)
  let translated : Json := setField "id" key value
  let pending : PendingRequest := ⟨client, id, methodOf value⟩
  have hpresent : (value.get "id").isSome = true := by
    rw [hid]
    rfl
  have hkey : translated.get "id" = some key :=
    BridgeState.get_setField hpresent
  have hidOf : idOf translated = key := by
    rw [idOf, hkey]
    rfl
  have hmethodOf : methodOf translated = methodOf value := by
    rw [methodOf, methodOf, stringField, stringField,
      get_setField_ne hpresent (by decide)]
  have hparamsOf : paramsOf translated = paramsOf value := by
    rw [paramsOf, paramsOf, get_setField_ne hpresent (by decide)]
  have htranslated : (translated.get "method").isSome = true := by
    rw [get_setField_ne hpresent (by decide), hmethod]
  have hnew := not_issuedBefore client mux.ids.next
  have huntracked : mux.bridge.Untracked key := hissued.bridge key hnew
  have hfresh : mux.ids.requests.get key = none := by
    cases hget : mux.ids.requests.get key with
    | none => rfl
    | some old => exact absurd (hissued.requests key old hget) hnew
  have hinserted : mux.ids.requests.insert key pending ≠ mux.ids.requests := by
    rw [ne_eq, insert_eq_self_iff, hfresh]
    rintro ⟨⟩
  let ids : Ids := { mux.ids with
    next := mux.ids.next + 1
    requests := mux.ids.requests.insert key pending }
  have hrequest : mux.ids.request client value = .ok (ids, translated) := by
    rw [Ids.request, ← not_isSome, hmethod, hid]
    rfl
  -- What is sent under the new id is answered by taking the id back.
  have hsent : ∀ bridge actions, SendsUnder key actions →
      AnsweredWithError client (idOf value)
        (performAll reads client actions { mux with ids, bridge }).2 →
      (performAll reads client actions { mux with ids, bridge }).1.tables =
        tables { mux with bridge } := by
    intro bridge actions hsends herror
    have hpending : ({ mux with ids, bridge } : Multiplexer).ids.requests =
        mux.ids.requests.insert key pending := rfl
    rcases performAll_present hsends hfresh hpending with hnone | htaken
    · exact absurd herror (hnone.not_answered _)
    · rw [tables_performAll, htaken]
      rfl
  rw [onClient, hopen] at hanswered ⊢
  simp only [Bool.not_true, Bool.false_eq_true, ↓reduceIte, hrequest]
    at hanswered ⊢
  rw [if_neg hlocal] at hanswered ⊢
  have hcases := mux.bridge.onClientValue_request reads.bridge.print htranslated
  rw [hmethodOf, hparamsOf, hkey] at hcases
  rcases hcases with ⟨heq, hremote⟩ | ⟨heq, hinitialized⟩ | ⟨hlimits, heq⟩ |
    ⟨hinitial, heq⟩ | ⟨hinitial, hinitialized, hremote,
      ⟨error, heq, hrefused⟩ | ⟨route, hroute, halive, heq⟩⟩
  · rw [heq] at hanswered
    refine absurd hanswered (NoError.not_answered (fun answer hmem => ?_) _)
    simp [performAll, perform, deliveredTo] at hmem
  · rw [heq] at hanswered ⊢
    refine iff_of_true (hsent _ _ ?_ hanswered) (Or.inl hinitialized)
    exact BridgeState.sendsUnder_broadcast hidOf hidOf
  · rw [heq, BridgeState.readRateLimits, hkey] at hanswered
    refine absurd hanswered (NoError.not_answered (fun answer hmem => ?_) _)
    have hlimited : methodOf value ≠ "account/read" := by
      rw [hlimits]
      decide
    have hpending : ids.requests.get key = some pending :=
      get_insert_self _ _ _
    simp [performAll, perform, toClient, Ids.response, Json.get, idOf, hpending,
      setField, Json.insertField, routeDesktopAccountRead, deliveredTo, pending,
      hlimited] at hmem
    rw [hmem]
    rfl
  · rw [heq]
    obtain ⟨actions, hok, hrecorded⟩ := mux.bridge.onInitialize_ok hkey
    generalize mux.bridge.onInitialize translated = result at hok hrecorded
    obtain ⟨bridge, outcome⟩ := result
    cases hok
    refine iff_of_false (fun htables => ?_) ?_
    · have hkept := congrArg RequestTables.initializeRequests htables
      rw [tables_performAll] at hkept
      change bridge.initializeRequests = mux.bridge.initializeRequests at hkept
      rw [hrecorded, insert_eq_self_iff, huntracked.initializeRequests]
        at hkept
      cases hkept
    · rintro (hnot | ⟨hother, -⟩)
      · rw [hinitial] at hnot
        exact absurd hnot (by decide)
      · exact hother hinitial
  · rw [heq]
    refine iff_of_false (fun htables => ?_) ?_
    · exact hinserted (congrArg RequestTables.requests htables)
    · rintro (hnot | ⟨-, -, -, route, hroute, halive, -⟩)
      · exact hinitialized hnot
      · rw [hrefused route hroute] at halive
        cases halive
  · rw [heq] at hanswered ⊢
    have hsends := sendsUnder_toChild
      ((BridgeState.idOf_forwarded route htranslated).trans hidOf) route.plane
    dsimp only at hanswered ⊢
    rw [hsent _ _ hsends hanswered]
    constructor
    · intro htables
      have hsame : (mux.bridge.recorded (methodOf value) (paramsOf value) route
          (some key)).SameRequests mux.bridge :=
        ⟨congrArg RequestTables.turnRequests htables,
          congrArg RequestTables.pendingBindings htables,
          congrArg RequestTables.accountReads htables,
          congrArg RequestTables.initializeRequests htables⟩
      obtain ⟨hread, hcloses, hpending⟩ :=
        BridgeState.unrecorded_of_sameRequests huntracked hroute hsame
      exact Or.inr ⟨hinitial, hread, hcloses, route, hroute, halive, hpending⟩
    · rintro (hnot | ⟨-, hread, hcloses, other, hother, -, hpending⟩)
      · exact absurd hnot hinitialized
      · rw [hroute] at hother
        cases hother
        rw [BridgeState.recorded_eq_self hread hcloses hpending]

/-- In every reachable state, a request that is answered with an error leaves
the tables as they were exactly when it is of the kinds that are not
recorded. -/
theorem refused_request_leaves_nothing_iff (store : ThreadRuntimeBindingStore)
    (providers : TrustedProviderSet) (officialDigest enhancedDigest : String)
    (models : TrustedModelProviderMap)
    (events : List (MultiplexReads × MultiplexEvent)) {mux : Multiplexer}
    (hreached : mux = (Multiplexer.new (.new store providers officialDigest
      enhancedDigest models)).run events)
    {reads : MultiplexReads} {client : Nat} {value : Json}
    (hmethod : (value.get "method").isSome = true)
    (hanswered : AnsweredWithError client (idOf value)
      (mux.onClient reads client value).2) :
    (mux.onClient reads client value).1.tables = mux.tables ↔
      mux.LeavesNothing client value := by
  have hissued : mux.Issued := by
    rw [hreached]
    exact (issued_new _ _ _ _ _).run events
  by_cases hopen : mux.clients.contains client = true
  · by_cases hlocal : client ≠ 0 ∧ isRemoteControl (methodOf value) = true
    · rw [onClient, hopen, if_neg (by decide), if_pos hlocal]
      exact iff_of_true rfl (Or.inr (Or.inl hlocal))
    · cases hid : value.get "id" with
      | none =>
        exact iff_of_true
          (tables_of_no_id hissued hopen hlocal hmethod hid hanswered)
          (Or.inl hid)
      | some id =>
        rw [tables_of_id_iff hissued hopen hlocal hmethod hid hanswered,
          LeavesNothing, hid]
        simp only [reduceCtorEq, false_or, hlocal]
  · rw [Bool.not_eq_true] at hopen
    rw [onClient, hopen] at hanswered
    obtain ⟨answer, hmem, -⟩ := hanswered
    cases hmem

namespace LostCore

open BridgeState.OneEnhancedThread ThreadStart

def events : List (MultiplexReads × MultiplexEvent) :=
  [(allReachable, .client 0 (request "initialize" [])),
    (allReachable, .socketClosed 0 .enhancedCodex)]

/-- The desktop has lost its connection to Enhanced. -/
def lost : Multiplexer := (Multiplexer.new state).run events

def startTurn : Json := request "turn/start" [("threadId", .str "t")]

def unavailable : Json := coreError (.str "1") coreUnavailable

theorem unavailable_answers : isResponseTo (.str "1") unavailable = true ∧
    (unavailable.get "error").isSome = true := by
  decide

/-- A read that cannot be sent leaves nothing. -/
theorem read_leaves_nothing :
    (lost.onClient allReachable 0 readThread).2 = [.toClient 0 unavailable] ∧
      (lost.onClient allReachable 0 readThread).1.tables = lost.tables := by
  have hrefused : (lost.onClient allReachable 0 readThread).2 =
      [.toClient 0 unavailable] := by
    decide
  refine ⟨hrefused, ?_⟩
  have hanswered : AnsweredWithError 0 (idOf readThread)
      (lost.onClient allReachable 0 readThread).2 := by
    rw [hrefused]
    exact ⟨unavailable, by decide, unavailable_answers⟩
  apply (refused_request_leaves_nothing_iff _ _ _ _ _ events rfl (by decide)
    hanswered).mpr
  exact Or.inr (Or.inr (Or.inr ⟨by decide, by decide, by decide,
    { plane := .enhancedCodex }, by decide, by decide, rfl⟩))

/-- A turn that cannot be sent stays open, and a refused read of an unknown
thread keeps its id translated. -/
theorem start_stays_open :
    (lost.onClient allReachable 0 startTurn).2 = [.toClient 0 unavailable] ∧
      lost.bridge.publishedOpenTurns = 0 ∧
      (lost.onClient allReachable 0 startTurn).1.bridge.publishedOpenTurns = 1 ∧
      lost.ids.requests.len = 1 ∧
      (lost.onClient allReachable 0
        (request "thread/read" [("threadId", .str "u")])).1.ids.requests.len =
          2 := by
  decide

end LostCore

end Multiplexer

end Vellum.Enhanced

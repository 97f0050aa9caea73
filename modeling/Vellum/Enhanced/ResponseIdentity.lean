/-
The responses that the connections of the multiplexer receive.  A request stays
outstanding while its translated id is pending and it was not refused; whatever
is sent as a response takes one outstanding request of its connection away.
-/
import Vellum.Enhanced.MessageHistory

namespace Vellum.Enhanced

open List Option HashMap BridgeState

/-- The requests of a client under an id that wait for a response. -/
def outstanding (requests : HashMap Json PendingRequest) (refused : List Json)
    (client : Nat) (id : Json) : Nat :=
  requests.count fun key pending =>
    decide (key ∉ refused ∧ pending.client = client ∧ pending.id = id)

namespace Delivery

/-- A response to the client under the id. -/
def answers (client : Nat) (id : Json) : Delivery → Bool
  | .toClient receiver value => decide ((value.get "method").isNone = true ∧
      receiver = client ∧ idOf value = id)
  | _ => false

end Delivery

def answersTo (client : Nat) (id : Json) (deliveries : List Delivery) : Nat :=
  deliveries.countP (Delivery.answers client id)

variable (client : Nat)

theorem answersTo_append (id : Json) (left right : List Delivery) :
    answersTo client id (left ++ right) =
      answersTo client id left + answersTo client id right :=
  countP_append

theorem answersTo_response (receiver : Nat) (id value : Json)
    (hmethod : value.get "method" = none) :
    answersTo client id [.toClient receiver value] =
      if receiver = client ∧ idOf value = id then 1 else 0 := by
  rw [answersTo, countP_singleton, Delivery.answers, hmethod]
  simp

theorem answersTo_request (receiver : Nat) (id value : Json)
    (hmethod : (value.get "method").isSome = true) :
    answersTo client id [.toClient receiver value] = 0 := by
  rw [answersTo, countP_singleton, Delivery.answers,
    ← not_isSome, hmethod]
  simp

/-- The responses of a delivery that a connection receives under an id. -/
theorem countP_responses (key : Option Json) (generation : Nat → Nat)
    (deliveries : List Delivery) (client generation' : Nat) (id : Json) :
    ((responses key generation deliveries).countP fun response =>
        response.connection = (client, generation') ∧ response.id = id) =
      if generation' = generation client then answersTo client id deliveries
      else 0 := by
  rw [responses, countP_filterMap, answersTo]
  split
  · rename_i hcurrent
    apply countP_congr
    intro delivery _
    cases delivery with
    | toClient receiver value =>
      by_cases hreceiver : receiver = client
      · subst hreceiver
        by_cases hmethod : (value.get "method").isNone = true
        · simp [Delivery.answers, hmethod, hcurrent]
        · simp [Delivery.answers, hmethod]
      · by_cases hmethod : (value.get "method").isNone = true
        · simp [Delivery.answers, hmethod, hreceiver]
        · simp [Delivery.answers, hmethod]
    | toCore _ _ _ => rfl
    | toRelay _ => rfl
  · rename_i hother
    rw [countP_eq_zero]
    intro delivery _
    cases delivery with
    | toClient receiver value =>
      by_cases hreceiver : receiver = client
      · subst hreceiver
        by_cases hmethod : (value.get "method").isNone = true
        · simp [hmethod, Ne.symm hother]
        · simp [hmethod]
      · by_cases hmethod : (value.get "method").isNone = true
        · simp [hmethod, hreceiver]
        · simp [hmethod]
    | toCore _ _ _ => rintro ⟨⟩
    | toRelay _ => rintro ⟨⟩

theorem key_of_mem_responses {key : Option Json} {generation : Nat → Nat}
    {deliveries : List Delivery} {response : Message}
    (hmem : response ∈ responses key generation deliveries) :
    response.key = key := by
  obtain ⟨delivery, -, hsome⟩ := mem_filterMap.mp hmem
  cases delivery with
  | toClient client value =>
    dsimp only at hsome
    split at hsome
    · cases hsome
      rfl
    · cases hsome
  | toCore _ _ _ => cases hsome
  | toRelay _ => cases hsome

/-! What `Ids.response` does to a message for the client. -/

namespace Ids

theorem response_request (ids : Ids) (client : Nat) {value : Json}
    (hmethod : (value.get "method").isSome = true) :
    ∃ after, ids.response client value = .ok (after, value, none) ∧
      after.requests = ids.requests := by
  rw [response, if_pos hmethod]
  split
  · exact ⟨_, rfl, rfl⟩
  · exact ⟨_, rfl, rfl⟩

/-- A message without a method is passed on exactly under the id of a pending
request of the client, and answers it. -/
theorem response_answer {ids after : Ids} {client : Nat}
    {value answer : Json} {method : Option String}
    (hnull : ids.requests.get .null = none)
    (hmethod : value.get "method" = none)
    (hok : ids.response client value = .ok (after, answer, method)) :
    ∃ pending, ids.requests.get (idOf value) = some pending ∧
      pending.client = client ∧ answer.get "method" = none ∧
      idOf answer = pending.id ∧
      after = { ids with requests := ids.requests.remove (idOf value) } := by
  rw [response, hmethod] at hok
  simp only [isSome_none, Bool.false_eq_true, ↓reduceIte] at hok
  split at hok
  · cases hok
  · rename_i pending hpending
    split at hok
    · cases hok
    · rename_i hclient
      cases hok
      have hpresent : (value.get "id").isSome = true := by
        cases hid : value.get "id" with
        | some id => rfl
        | none =>
          rw [idOf, hid] at hpending
          cases hnull.symm.trans hpending
      refine ⟨pending, hpending, of_not_not hclient, ?_, ?_, rfl⟩
      · rw [get_setField_ne hpresent (by decide), hmethod]
      · rw [idOf, get_setField hpresent]
        rfl

theorem requests_foldl_disconnect (clients : List Nat) (ids : Ids) :
    (clients.foldl disconnect ids).requests =
      ids.requests.retain fun _ pending => pending.client ∉ clients := by
  induction clients generalizing ids with
  | nil => exact (retain_true fun _ _ => rfl).symm
  | cons client rest ih =>
    rw [foldl_cons, ih, disconnect, retain_retain]
    congr
    funext _ pending
    simp [Bool.and_comm]

theorem approvals_foldl_disconnect (clients : List Nat) (ids : Ids) :
    (clients.foldl disconnect ids).approvals =
      ids.approvals.retain fun _ holder => holder ∉ clients := by
  induction clients generalizing ids with
  | nil => exact (retain_true fun _ _ => rfl).symm
  | cons client rest ih =>
    rw [foldl_cons, ih, disconnect, retain_retain]
    congr
    funext _ holder
    simp [Bool.and_comm]

end Ids

theorem outstanding_remove {requests : HashMap Json PendingRequest}
    {refused : List Json} {key : Json} {pending : PendingRequest}
    (hpending : requests.get key = some pending) (hkey : key ∉ refused)
    (client : Nat) (id : Json) :
    (if pending.client = client ∧ pending.id = id then 1 else 0) +
        outstanding (requests.remove key) refused client id =
      outstanding requests refused client id := by
  rw [outstanding, outstanding, ← count_remove_of_get hpending,
    Nat.add_comm]
  congr 1
  simp [hkey]

theorem outstanding_insert_le (requests : HashMap Json PendingRequest)
    (refused : List Json) (key : Json) (pending : PendingRequest) (client : Nat)
    (id : Json) :
    outstanding (requests.insert key pending) refused client id ≤
      outstanding requests refused client id +
        if pending.client = client ∧ pending.id = id then 1 else 0 := by
  have hinsert := count_insert_le requests key pending fun key pending =>
    decide (key ∉ refused ∧ pending.client = client ∧ pending.id = id)
  have hremove := count_remove_le requests key fun key pending =>
    decide (key ∉ refused ∧ pending.client = client ∧ pending.id = id)
  by_cases hsame : pending.client = client ∧ pending.id = id
  · rw [if_pos hsame]
    apply Nat.le_trans hinsert (Nat.add_le_add hremove _)
    split
    · exact Nat.le_refl 1
    · exact Nat.zero_le 1
  · rw [if_neg fun hcounted => hsame (of_decide_eq_true hcounted).2] at hinsert
    rw [if_neg hsame]
    exact Nat.le_trans hinsert hremove

theorem outstanding_refused_le (requests : HashMap Json PendingRequest)
    (refused : List Json) (key : Json) (pending : PendingRequest) (client : Nat)
    (id : Json) :
    outstanding (requests.insert key pending) (refused ++ [key]) client id ≤
      outstanding requests refused client id := by
  have hinsert := count_insert_le requests key pending fun k pending =>
    decide (k ∉ refused ++ [key] ∧ pending.client = client ∧ pending.id = id)
  have hremove := count_remove_le requests key fun k pending =>
    decide (k ∉ refused ++ [key] ∧ pending.client = client ∧ pending.id = id)
  have hnot : ¬ decide (key ∉ refused ++ [key] ∧ pending.client = client ∧
      pending.id = id) = true := by
    simp
  rw [if_neg hnot] at hinsert
  apply Nat.le_trans (Nat.le_trans hinsert hremove)
  apply count_mono
  intro k other hcounted
  rw [decide_eq_true_iff] at hcounted ⊢
  exact ⟨fun hmem => hcounted.1 (mem_append_left _ hmem), hcounted.2⟩

namespace Multiplexer

/-- The messages that take outstanding requests away in turn: no response is
under the id of a refused request. -/
structure Settles (later earlier : Multiplexer) (refused : List Json)
    (deliveries : List Delivery) : Prop where
  carries : later.Carries earlier
  counted : ∀ client id, answersTo client id deliveries +
      outstanding later.ids.requests refused client id ≤
    outstanding earlier.ids.requests refused client id

variable {state : BridgeState} {mux : Multiplexer} {refused : List Json}
  {n : Nat} (reads : MultiplexReads) (client : Nat) {value : Json}
  {after : BridgeState} {actions : List BridgeAction}

theorem Settles.of_same {later earlier : Multiplexer}
    {deliveries : List Delivery} (hcarries : later.Carries earlier)
    (hsame : later.ids.requests = earlier.ids.requests)
    (hsilent : ∀ client id, answersTo client id deliveries = 0) :
    later.Settles earlier refused deliveries where
  carries := hcarries
  counted client id := by
    rw [hsame, hsilent]
    exact Nat.le_of_eq (Nat.zero_add _)

theorem Settles.trans {first second third : Multiplexer}
    {left right : List Delivery} (hlater : third.Settles second refused right)
    (hearlier : second.Settles first refused left) :
    third.Settles first refused (left ++ right) where
  carries := ⟨hlater.carries.bridge.trans hearlier.carries.bridge,
    hlater.carries.ids.trans hearlier.carries.ids⟩
  counted client id := by
    have hfirst := hearlier.counted client id
    have hsecond := hlater.counted client id
    rw [answersTo_append]
    omega

/-- A response goes out and takes its request away, or nothing happens. -/
theorem settles_answer (hnull : mux.ids.requests.get .null = none)
    (hmethod : value.get "method" = none) (hrefused : idOf value ∉ refused)
    {client : Nat} {after : Ids} {answer : Json} {method : Option String}
    (hok : mux.ids.response client value = .ok (after, answer, method))
    {sent : Json}
    (hsent : ∀ key, key ≠ "result" →
      sent.get key = answer.get key) :
    ({ mux with ids := after } : Multiplexer).Settles mux refused
      [.toClient client sent] := by
  obtain ⟨pending, hpending, hclient, hplain, hid, rfl⟩ :=
    Ids.response_answer hnull hmethod hok
  refine ⟨⟨rfl, Ids.response_shrinks hok⟩, fun receiver id => ?_⟩
  have hsame : idOf sent = idOf answer := by
    rw [idOf, idOf, hsent "id" (by decide)]
  rw [answersTo_response _ _ _ _
    ((hsent "method" (by decide)).trans hplain), hsame, hid, ← hclient]
  exact Nat.le_of_eq (outstanding_remove hpending hrefused receiver id)

theorem refuse_settles (hnull : mux.ids.requests.get .null = none)
    (client : Nat) {id : Json} (hrefused : id ∉ refused) (message : String) :
    (mux.refuse client id message).1.Settles mux refused
      (mux.refuse client id message).2 := by
  rw [refuse]
  split
  · rename_i hok
    exact settles_answer hnull rfl hrefused hok fun _ _ => rfl
  · exact Settles.of_same ⟨rfl, Ids.Shrinks.refl _⟩ rfl fun _ _ => rfl

theorem get_routeDesktopAccountRead {key : String} (hkey : key ≠ "result")
    (client : Nat) (method relayOrigin : Option String) (answer : Json) :
    (routeDesktopAccountRead client method relayOrigin answer).get key =
      answer.get key := by
  rw [routeDesktopAccountRead]
  split
  · exact get_routeDesktopBackendToRelay hkey _ _
  · rfl

theorem toClient_settles (hnull : mux.ids.requests.get .null = none)
    (reads : MultiplexReads) (client : Nat)
    (hrefused : value.get "method" = none → idOf value ∉ refused) :
    (mux.toClient reads client value).1.Settles mux refused
      (mux.toClient reads client value).2 := by
  rw [toClient]
  cases hmethod : value.get "method" with
  | some method =>
    have hsome : (value.get "method").isSome = true := by rw [hmethod]; rfl
    obtain ⟨after, hok, hsame⟩ := Ids.response_request mux.ids client
      hsome
    have hshrinks := Ids.response_shrinks hok
    rw [hok]
    refine Settles.of_same ⟨rfl, hshrinks⟩ hsame fun receiver id => ?_
    apply answersTo_request
    rw [get_routeDesktopAccountRead (by decide), hsome]
  | none =>
    split
    · rename_i hok
      exact settles_answer hnull hmethod (hrefused hmethod) hok
        fun key hkey => get_routeDesktopAccountRead hkey _ _ _ _
    · exact Settles.of_same ⟨rfl, Ids.Shrinks.refl _⟩ rfl fun _ _ => rfl

theorem toChild_settles (hnull : mux.ids.requests.get .null = none)
    (reads : MultiplexReads) (client : Nat) (plane : ExecutionPlane)
    (hrefused : idOf value ∉ refused) :
    (mux.toChild reads client plane value).1.Settles mux refused
      (mux.toChild reads client plane value).2 := by
  rw [toChild]
  split
  · split
    · exact refuse_settles hnull client hrefused _
    · exact Settles.of_same ⟨rfl, Ids.Shrinks.refl _⟩ rfl fun _ _ => rfl
  · split
    · have hsettles := @refuse_settles { mux with
        failedSockets := mux.failedSockets.insert (client, plane) () } _
        hnull client _ hrefused coreConnectionFailed
      exact ⟨⟨hsettles.carries.bridge, hsettles.carries.ids⟩,
        hsettles.counted⟩
    · split
      · exact Settles.of_same ⟨rfl, Ids.Shrinks.refl _⟩ rfl fun _ _ => rfl
      · refine Settles.of_same ⟨rfl, Ids.Shrinks.refl _⟩ rfl fun _ _ => ?_
        exact answersTo_request _ _ _ _ rfl

theorem performAll_singleton (action : BridgeAction) (mux : Multiplexer) :
    performAll reads client [action] mux = mux.perform reads client action := by
  simp [performAll]

/-- An action that answers no refused request. -/
def Harmless (refused : List Json) : BridgeAction → Prop
  | .toChild _ value => idOf value ∉ refused
  | .toClient value => value.get "method" = none → idOf value ∉ refused
  | .toRelay _ => True

theorem performAll_settles
    (hharmless : ∀ action ∈ actions, Harmless refused action)
    (hnull : mux.ids.requests.get .null = none) :
    (performAll reads client actions mux).1.Settles mux refused
      (performAll reads client actions mux).2 := by
  induction actions generalizing mux with
  | nil => exact Settles.of_same ⟨rfl, Ids.Shrinks.refl _⟩ rfl fun _ _ => rfl
  | cons action rest ih =>
    obtain ⟨hhead, hrest⟩ := forall_mem_cons.mp hharmless
    have hfirst : (mux.perform reads client action).1.Settles mux refused
        (mux.perform reads client action).2 := by
      cases action with
      | toChild plane value =>
        exact toChild_settles hnull reads client plane hhead
      | toClient value => exact toClient_settles hnull reads client hhead
      | toRelay value =>
        exact Settles.of_same ⟨rfl, Ids.Shrinks.refl _⟩ rfl fun _ _ => rfl
    have hstill : (mux.perform reads client action).1.ids.requests.get .null =
        none := by
      cases hget : (mux.perform reads client action).1.ids.requests.get
          .null with
      | none => rfl
      | some pending =>
        have hbefore := hfirst.carries.ids.requests _ _ hget
        rw [hnull] at hbefore
        cases hbefore
    exact (ih hrest hstill).trans hfirst

/-! No action answers a refused request. -/

theorem null_notMem (hissued : ∀ key ∈ refused, IssuedBefore n key) :
    Json.null ∉ refused := by
  intro hmem
  obtain ⟨_, _, -, heq⟩ := hissued _ hmem
  cases heq

theorem take_toList_append {text : String} (hlong : n ≤ text.toList.length)
    (rest : String) : (text ++ rest).toList.take n = text.toList.take n := by
  rw [String.toList_append, take_append_of_le_length hlong]

theorem shadowInitializeId_ne (m client n : Nat) :
    BridgeState.shadowInitializeId m ≠ clientRequestId client n := by
  intro heq
  have hclient : clientRequestId client n =
      "vellum:client:" ++ (toString client ++ (":" ++ toString n)) := by
    simp only [clientRequestId, String.append_assoc]
  have hfront := congrArg (fun text => text.toList.take 8) (heq.trans hclient)
  have hshadow : 8 ≤ "vellum:shadow:initialize:".toList.length := by decide
  have hlong : 8 ≤ "vellum:client:".toList.length := by decide
  have hdiffers := (take_toList_append hshadow _).symm.trans
    (hfront.trans (take_toList_append hlong _))
  exact absurd hdiffers (by decide)

theorem shadow_notMem (hissued : ∀ key ∈ refused, IssuedBefore n key)
    (m : Nat) : Json.str (BridgeState.shadowInitializeId m) ∉ refused := by
  intro hmem
  obtain ⟨client, k, -, heq⟩ := hissued _ hmem
  exact shadowInitializeId_ne m client k (Json.str.inj heq)

theorem broadcast_harmless {official enhanced : Json}
    (hofficial : idOf official ∉ refused)
    (henhanced : idOf enhanced ∉ refused) :
    ∀ action ∈ state.broadcast official enhanced, Harmless refused action := by
  intro action hmem
  rw [BridgeState.broadcast] at hmem
  split at hmem
  · rw [mem_singleton] at hmem
    rw [hmem]
    exact hofficial
  · rcases mem_cons.mp hmem with rfl | hrest
    · exact hofficial
    · rw [mem_singleton] at hrest
      rw [hrest]
      exact henhanced

theorem onInitialize_harmless (hid : idOf value ∉ refused)
    (hshadow : ∀ n, Json.str (BridgeState.shadowInitializeId n) ∉ refused)
    (hok : state.onInitialize value = (after, .ok actions)) :
    ∀ action ∈ actions, Harmless refused action := by
  rw [BridgeState.onInitialize] at hok
  split at hok
  · cases hok
  · rename_i id hget
    dsimp only at hok
    split at hok
    · cases hok
      exact broadcast_harmless hid hid
    · cases hok
      apply broadcast_harmless hid
      rw [idOf, get_setField (by rw [hget]; rfl)]
      exact hshadow _

theorem onClientValue_request_harmless
    (hmethod : (value.get "method").isSome = true) (hid : idOf value ∉ refused)
    (hshadow : ∀ n, Json.str (BridgeState.shadowInitializeId n) ∉ refused)
    {print : Json → String}
    (hok : state.onClientValue print value = (after, .ok actions)) :
    ∀ action ∈ actions, Harmless refused action := by
  rcases state.onClientValue_request print hmethod with
    ⟨heq, -⟩ | ⟨heq, -⟩ | ⟨-, heq⟩ | ⟨-, heq⟩ |
    ⟨-, -, -, ⟨error, heq, -⟩ | ⟨route, -, -, heq⟩⟩
  · cases heq.symm.trans hok
    simp [Harmless]
  · cases heq.symm.trans hok
    exact broadcast_harmless hid hid
  · rw [heq, BridgeState.readRateLimits] at hok
    split at hok
    · cases hok
    · rename_i id hget
      cases hok
      have hsame : idOf value = id := by
        rw [idOf, hget]
        rfl
      intro action hmem
      rw [mem_singleton] at hmem
      rw [hmem, ← hsame]
      exact fun _ => hid
  · exact onInitialize_harmless hid hshadow (heq.symm.trans hok)
  · cases heq.symm.trans hok
  · cases heq.symm.trans hok
    intro action hmem
    rw [mem_singleton] at hmem
    rw [hmem, Harmless, idOf_forwarded route hmethod]
    exact hid

/-- The answer of a client goes to the core under the id of the core's
request. -/
theorem onClientValue_answer (hmethod : value.get "method" = none)
    {print : Json → String}
    (hok : state.onClientValue print value = (after, .ok actions)) :
    ∃ plane original,
      state.serverRequests.get (idOf value) = some (plane, original) ∧
      after = { state with
        serverRequests := state.serverRequests.remove (idOf value) } ∧
      actions = [.toChild plane (setField "id" original value)] ∧
      (value.get "id").isSome = true := by
  rw [BridgeState.onClientValue, hmethod, BridgeState.routeClientResponse]
    at hok
  simp only [isNone_none, ↓reduceIte] at hok
  split at hok
  · cases hok
  · rename_i id hget
    have hid : idOf value = id := by
      rw [idOf, hget]
      rfl
    split at hok
    · cases hok
    · rename_i plane original hrequest
      split at hok
      · cases hok
      · cases hok
        refine ⟨plane, original, ?_, ?_, rfl, ?_⟩
        · rw [hid, hrequest]
        · rw [hid]
        · rw [hget]
          rfl

theorem onNotification_actions {createdAt : String → Int}
    {plane : ExecutionPlane} {method : String}
    (hok : (state.onNotification createdAt plane method value).2 =
      .ok actions) : actions = [] ∨ actions = [.toClient value] := by
  rw [BridgeState.onNotification] at hok
  split at hok
  · cases hok
    exact Or.inl rfl
  · split at hok
    · cases hok
    · dsimp only at hok
      rw [BridgeState.deliverNotification] at hok
      split at hok
      · split at hok
        · cases hok
        · split at hok
          · cases hok
            exact Or.inl rfl
          · cases hok
            exact Or.inr rfl
      · split at hok
        · cases hok
          exact Or.inl rfl
        · cases hok
          exact Or.inr rfl

/-- The actions for a line of a core: nothing, or one message for the client,
which is a request of the core, a notification or the answer to what the line
answers. -/
theorem onChildValue_actions {reads : BridgeReads} {plane : ExecutionPlane}
    (hok : state.onChildValue reads plane value = (after, .ok actions)) :
    actions = [] ∨ ∃ sent, actions = [.toClient sent] ∧
      (((value.get "method").isSome = true ∧ (sent.get "method").isSome = true ∧
          ∃ id, value.get "id" = some id ∧
            (after, sent) = ({ state with
                nextServerRequest := state.nextServerRequest + 1
                serverRequests := state.serverRequests.insert
                  (.str (BridgeState.serverRequestId plane
                    state.nextServerRequest)) (plane, id) },
              setField "id" (.str (BridgeState.serverRequestId plane
                state.nextServerRequest)) value)) ∨
        ((sent.get "method").isSome = true ∧ sent.get "id" = none) ∨
        (value.get "method" = none ∧ sent.get "method" = none ∧
          idOf sent = idOf value)) := by
  rcases state.onChildValue_cases reads plane value with
    ⟨id, hmethod, hid, heq⟩ | ⟨method, hmethod, hid, heq⟩ |
    ⟨id, hmethod, hid, heq⟩ | ⟨hmethod, hid, heq⟩
  · rw [heq, BridgeState.onServerRequest] at hok
    cases hok
    have hpresent : (value.get "id").isSome = true := by
      rw [hid]
      rfl
    refine Or.inr ⟨_, rfl, Or.inl ⟨hmethod, ?_, id, hid, rfl⟩⟩
    rw [get_setField_ne hpresent (by decide), hmethod]
  · have hactions := onNotification_actions (by rw [← heq, hok])
    rcases hactions with rfl | rfl
    · exact Or.inl rfl
    · refine Or.inr ⟨value, rfl, Or.inr (Or.inl ⟨?_, hid⟩)⟩
      cases hget : value.get "method" with
      | some method => rfl
      | none =>
        rw [stringField, hget] at hmethod
        cases hmethod
  · have hresult : (state.onResponse reads plane id value).2 = .ok actions := by
      rw [← heq, hok]
    have hvalue : idOf value = id := by
      rw [idOf, hid]
      rfl
    rcases state.onResponse_cases reads plane hid hmethod with
      ⟨answer, hanswer, hresponse, -⟩ | ⟨error, hfailed, -⟩ | ⟨hshadow, -⟩
    · cases hanswer.symm.trans hresult
      rw [isResponseTo, Bool.and_eq_true, isNone_iff_eq_none,
        decide_eq_true_iff] at hresponse
      refine Or.inr ⟨answer, rfl, Or.inr (Or.inr ⟨hmethod, hresponse.1, ?_⟩)⟩
      rw [hvalue, idOf, hresponse.2]
      rfl
    · cases hfailed.symm.trans hresult
    · have hactions := Except.ok.inj (hshadow.symm.trans hresult)
      rw [BridgeState.shadowAnswer] at hactions
      split at hactions
      · exact Or.inr ⟨_, hactions.symm, Or.inr (Or.inl ⟨rfl, rfl⟩)⟩
      · exact Or.inl hactions.symm
  · cases heq.symm.trans hok
    cases hplain : value.get "method" with
    | some method =>
      refine Or.inr ⟨value, rfl, Or.inr (Or.inl ⟨?_, hid⟩)⟩
      rw [hplain]
      rfl
    | none => exact Or.inr ⟨value, rfl, Or.inr (Or.inr ⟨rfl, hplain, rfl⟩)⟩

/-- A line that is taken keeps its id, or it is a request that becomes pending
under a new one. -/
theorem request_cases {client : Nat}
    (hlocal : ¬ (client ≠ 0 ∧ isRemoteControl (methodOf value) = true))
    {ids : Ids} {translated : Json}
    (hok : mux.ids.request client value = .ok (ids, translated)) :
    (mux.translatedId client value = none ∧ translated = value ∧
      ids.requests = mux.ids.requests ∧ ids.next = mux.ids.next) ∨
    ∃ id, value.get "id" = some id ∧ (value.get "method").isSome = true ∧
      mux.translatedId client value =
        some (.str (clientRequestId client mux.ids.next)) ∧
      translated =
        setField "id" (.str (clientRequestId client mux.ids.next)) value ∧
      ids = { mux.ids with
        next := mux.ids.next + 1
        requests := mux.ids.requests.insert
          (.str (clientRequestId client mux.ids.next))
          ⟨client, id, methodOf value⟩ } := by
  rw [translatedId, if_neg hlocal]
  rw [Ids.request] at hok
  split at hok
  · rename_i hmethod
    rw [isNone_iff_eq_none] at hmethod
    split at hok
    · cases hok
      refine Or.inl ⟨?_, rfl, rfl, rfl⟩
      rw [hmethod]
      rfl
    · cases hok
  · rename_i hmethod
    rw [Bool.not_eq_true, ← not_isSome, Bool.not_eq_false'] at hmethod
    split at hok
    · rename_i hid
      cases hok
      refine Or.inl ⟨?_, rfl, rfl, rfl⟩
      rw [hid, hmethod]
      rfl
    · rename_i id hid
      cases hok
      refine Or.inr ⟨id, hid, hmethod, ?_, rfl, rfl⟩
      rw [hid, hmethod]
      rfl

end Multiplexer

theorem History.generation_record {history : History} {mux : Multiplexer}
    {arrival : Arrival} (hcloses : mux.closes arrival.event = []) :
    (history.record mux arrival).generation = history.generation := by
  funext client
  rw [record, hcloses]
  rfl

/-- What a line of a client does to the pending requests: it may become pending
under a new id, and what is answered at once is taken away again. -/
structure Takes (mux later : Multiplexer) (history : History) (client : Nat)
    (message : Message) (refused : List Json) (deliveries : List Delivery) :
    Prop where
  next : ∀ key, IssuedBefore mux.ids.next key →
    IssuedBefore later.ids.next key
  key : ∀ key, message.key = some key →
    ¬ IssuedBefore mux.ids.next key ∧ IssuedBefore later.ids.next key
  requests : ∀ key pending, later.ids.requests.get key = some pending →
    mux.ids.requests.get key = some pending ∨
      message = ⟨some key, (pending.client,
        history.generation pending.client), pending.id⟩
  newlyRefused : ∀ key ∈ refused, IssuedBefore later.ids.next key
  counted : ∀ receiver id, answersTo receiver id deliveries +
      outstanding later.ids.requests (history.refused ++ refused) receiver id ≤
    outstanding mux.ids.requests history.refused receiver id +
      if client = receiver ∧ message.id = id then 1 else 0

namespace Takes

variable {mux : Multiplexer} {history : History} {later : Multiplexer}
  {message : Message} {deliveries : List Delivery}

/-- The line does not become pending; nothing or an error answers it. -/
theorem of_same {client : Nat}
    (hrequests : later.ids.requests = mux.ids.requests)
    (hnext : later.ids.next = mux.ids.next) (hkey : message.key = none)
    (hanswers : ∀ receiver id, answersTo receiver id deliveries ≤
      if client = receiver ∧ message.id = id then 1 else 0) :
    Takes mux later history client message [] deliveries where
  next key hissued := by
    rw [hnext]
    exact hissued
  key key hsome := by
    rw [hkey] at hsome
    cases hsome
  requests key pending hget := by
    rw [hrequests] at hget
    exact Or.inl hget
  newlyRefused := by rintro _ ⟨⟩
  counted receiver id := by
    have hbound := hanswers receiver id
    rw [hrequests, append_nil]
    omega

theorem new_request (client : Nat) (ids : Ids) (id : Json) (method : String)
    (refused : List Json)
    (hids : ids = { mux.ids with
      next := mux.ids.next + 1
      requests := mux.ids.requests.insert
        (.str (clientRequestId client mux.ids.next)) ⟨client, id, method⟩ })
    (hmessage : message = ⟨some (.str (clientRequestId client mux.ids.next)),
      (client, history.generation client), id⟩)
    (hrefused : ∀ key ∈ refused,
      key = .str (clientRequestId client mux.ids.next))
    (hcounted : ∀ receiver id, answersTo receiver id deliveries +
        outstanding ids.requests (history.refused ++ refused) receiver id ≤
      outstanding mux.ids.requests history.refused receiver id +
        if client = receiver ∧ message.id = id then 1 else 0)
    (hlater : later.ids = ids) :
    Takes mux later history client message refused deliveries where
  next key hissued := by
    rw [hlater, hids]
    exact hissued.succ
  key key hsome := by
    rw [hmessage] at hsome
    cases hsome
    rw [hlater, hids]
    exact ⟨not_issuedBefore _ _, client, mux.ids.next, Nat.lt_succ_self _, rfl⟩
  requests key pending hget := by
    rw [hlater, hids, get_insert] at hget
    split at hget
    · rename_i hkey
      cases hget
      right
      rw [hmessage, hkey]
    · exact Or.inl hget
  newlyRefused key hmem := by
    rw [hlater, hids, hrefused key hmem]
    exact ⟨client, mux.ids.next, Nat.lt_succ_self _, rfl⟩
  counted := by
    rw [hlater]
    exact hcounted

/-- What is carried out of the line may answer requests. -/
theorem settled {middle : Multiplexer} {client : Nat}
    (htaken : Takes mux middle history client message [] [])
    (hsettled : later.Settles middle history.refused deliveries) :
    Takes mux later history client message [] deliveries where
  next key hissued := by
    rw [hsettled.carries.ids.next]
    exact htaken.next key hissued
  key key hsome := by
    rw [hsettled.carries.ids.next]
    exact htaken.key key hsome
  requests key pending hget :=
    htaken.requests key pending (hsettled.carries.ids.requests key pending hget)
  newlyRefused := by rintro _ ⟨⟩
  counted receiver id := by
    have htook := htaken.counted receiver id
    have hleft := hsettled.counted receiver id
    rw [append_nil] at htook ⊢
    rw [answersTo, countP_nil] at htook
    omega

end Takes

/-- What is pending, refused and answered agrees with what was seen. -/
structure RequestsAgree (mux : Multiplexer) (history : History) : Prop where
  issued : mux.Issued
  sentIssued : ∀ request ∈ history.sent, ∀ key, request.key = some key →
    IssuedBefore mux.ids.next key
  refusedIssued : ∀ key ∈ history.refused, IssuedBefore mux.ids.next key
  pending : ∀ key pending, mux.ids.requests.get key = some pending →
    ⟨some key, (pending.client, history.generation pending.client),
      pending.id⟩ ∈ history.sent
  settled : ∀ response ∈ history.received, ∀ key, response.key = some key →
    mux.ids.requests.get key = none
  keys_nodup : (history.sent.filterMap Message.key).Nodup
  own : ∀ response ∈ history.received, response.key.isSome = true →
    response ∈ history.sent
  once : (history.received.filterMap Message.key).Nodup
  counted : ∀ client generation id,
    (history.received.countP fun response =>
        response.connection = (client, generation) ∧ response.id = id) +
      (if generation = history.generation client then
        outstanding mux.ids.requests history.refused client id else 0) ≤
      history.sent.countP fun request =>
        request.connection = (client, generation) ∧ request.id = id

namespace RequestsAgree

variable {mux : Multiplexer} {history : History} {reads : MultiplexReads}
  {client generation : Nat} {value : Json}

theorem responsesMatch (hagree : RequestsAgree mux history) :
    history.ResponsesMatch where
  keys_nodup := hagree.keys_nodup
  own := hagree.own
  once := hagree.once
  counted connection id :=
    Nat.le_of_add_right_le (hagree.counted connection.1 connection.2 id)

theorem null_absent (hagree : RequestsAgree mux history) :
    mux.ids.requests.get .null = none := by
  cases hget : mux.ids.requests.get .null with
  | none => rfl
  | some pending =>
    obtain ⟨_, _, -, heq⟩ := hagree.issued.requests _ _ hget
    cases heq

/-- An event that answers at most the request whose id it carries. -/
theorem answer {later : Multiplexer} {after : History}
    (hagree : RequestsAgree mux history) (hissued : later.Issued)
    {deliveries : List Delivery} {key : Option Json}
    (hshrinks : later.ids.Shrinks mux.ids)
    (hcounted : ∀ client id, answersTo client id deliveries +
        outstanding later.ids.requests history.refused client id ≤
      outstanding mux.ids.requests history.refused client id)
    (hanswer : responses key history.generation deliveries = [] ∨
      ∃ k pending, key = some k ∧ mux.ids.requests.get k = some pending ∧
        later.ids.requests.get k = none ∧
        responses key history.generation deliveries = [⟨key, (pending.client,
          history.generation pending.client), pending.id⟩])
    (hgeneration : after.generation = history.generation)
    (hsent : after.sent = history.sent)
    (hrefused : after.refused = history.refused)
    (hreceived : after.received =
      history.received ++ responses key history.generation deliveries) :
    RequestsAgree later after where
  issued := hissued
  sentIssued := by
    rw [hsent, hshrinks.next]
    exact hagree.sentIssued
  refusedIssued := by
    rw [hrefused, hshrinks.next]
    exact hagree.refusedIssued
  pending k pending hget := by
    rw [hsent, hgeneration]
    exact hagree.pending k pending (hshrinks.requests k pending hget)
  settled response hmem k hkey := by
    have hstays : mux.ids.requests.get k = none →
        later.ids.requests.get k = none := by
      intro hnone
      cases hget : later.ids.requests.get k with
      | none => rfl
      | some pending =>
        have hbefore := hshrinks.requests k pending hget
        rw [hnone] at hbefore
        cases hbefore
    rw [hreceived, mem_append] at hmem
    rcases hmem with hold | hnew
    · exact hstays (hagree.settled response hold k hkey)
    · rcases hanswer with hnil | ⟨k', pending, rfl, -, hgone, hone⟩
      · rw [hnil] at hnew
        cases hnew
      · rw [hone, mem_singleton] at hnew
        subst hnew
        cases hkey
        exact hgone
  keys_nodup := by
    rw [hsent]
    exact hagree.keys_nodup
  own response hmem hkey := by
    rw [hsent]
    rw [hreceived, mem_append] at hmem
    rcases hmem with hold | hnew
    · exact hagree.own response hold hkey
    · rcases hanswer with hnil | ⟨k, pending, rfl, hpending, -, hone⟩
      · rw [hnil] at hnew
        cases hnew
      · rw [hone, mem_singleton] at hnew
        rw [hnew]
        exact hagree.pending k pending hpending
  once := by
    rw [hreceived, filterMap_append]
    rcases hanswer with hnil | ⟨k, pending, rfl, hpending, -, hone⟩
    · rw [hnil, filterMap_nil, append_nil]
      exact hagree.once
    · rw [hone]
      apply hagree.once.append (nodup_singleton _)
      intro k' hold hnew
      cases mem_singleton.mp hnew
      obtain ⟨response, hmem, hkey⟩ := mem_filterMap.mp hold
      have hnone := hagree.settled response hmem k hkey
      rw [hpending] at hnone
      cases hnone
  counted client generation id := by
    have hbefore := hagree.counted client generation id
    have hstep := hcounted client id
    rw [hreceived, hsent, hrefused, hgeneration, countP_append,
      countP_responses]
    split at hbefore
    · rename_i hcurrent
      rw [if_pos hcurrent, if_pos hcurrent]
      omega
    · rename_i hother
      rw [if_neg hother, if_neg hother]
      exact hbefore

/-- A line of a client, which may become pending, with the errors that the loop
answers at once. -/
theorem request {mux later : Multiplexer} {history after : History}
    (hagree : RequestsAgree mux history) (hissued : later.Issued)
    {client : Nat} {message : Message} {refused : List Json}
    {deliveries : List Delivery}
    (htaken : Takes mux later history client message refused deliveries)
    (hconnection : message.connection = (client, history.generation client))
    (hgeneration : after.generation = history.generation)
    (hsent : after.sent = history.sent ++ [message])
    (hrefused : after.refused = history.refused ++ refused)
    (hreceived : after.received =
      history.received ++ responses none history.generation deliveries) :
    RequestsAgree later after where
  issued := hissued
  sentIssued request hmem key hsome := by
    rw [hsent, mem_append, mem_singleton] at hmem
    rcases hmem with hold | rfl
    · exact htaken.next key (hagree.sentIssued request hold key hsome)
    · exact (htaken.key key hsome).2
  refusedIssued key hmem := by
    rw [hrefused, mem_append] at hmem
    rcases hmem with hold | hnew
    · exact htaken.next key (hagree.refusedIssued key hold)
    · exact htaken.newlyRefused key hnew
  pending key pending hget := by
    rw [hsent, hgeneration]
    rcases htaken.requests key pending hget with hold | hnew
    · exact mem_append_left _ (hagree.pending key pending hold)
    · rw [hnew]
      exact mem_append_right _ (mem_singleton_self _)
  settled response hmem key hsome := by
    rw [hreceived, mem_append] at hmem
    rcases hmem with hold | hnew
    · cases hget : later.ids.requests.get key with
      | none => rfl
      | some pending =>
        rcases htaken.requests key pending hget with hbefore | hmessage
        · rw [hagree.settled response hold key hsome] at hbefore
          cases hbefore
        · have hasked := hagree.own response hold (by rw [hsome]; rfl)
          have hissuedKey := hagree.sentIssued response hasked key hsome
          have hfresh := htaken.key key (by rw [hmessage])
          exact absurd hissuedKey hfresh.1
    · rw [key_of_mem_responses hnew] at hsome
      cases hsome
  keys_nodup := by
    rw [hsent, filterMap_append]
    cases hmessage : message.key with
    | none =>
      rw [filterMap_cons_none hmessage, filterMap_nil,
        append_nil]
      exact hagree.keys_nodup
    | some key =>
      rw [filterMap_cons_some hmessage, filterMap_nil]
      apply hagree.keys_nodup.append (nodup_singleton _)
      intro other hold hnew
      rw [mem_singleton] at hnew
      subst hnew
      obtain ⟨request, hmem, hsome⟩ := mem_filterMap.mp hold
      exact (htaken.key other hmessage).1
        (hagree.sentIssued request hmem other hsome)
  own response hmem hsome := by
    rw [hreceived, mem_append] at hmem
    rcases hmem with hold | hnew
    · rw [hsent]
      exact mem_append_left _ (hagree.own response hold hsome)
    · rw [key_of_mem_responses hnew] at hsome
      cases hsome
  once := by
    have hnone : (responses none history.generation deliveries).filterMap
        Message.key = [] := by
      rw [filterMap_eq_nil_iff]
      intro response hmem
      exact key_of_mem_responses hmem
    rw [hreceived, filterMap_append, hnone, append_nil]
    exact hagree.once
  counted receiver generation id := by
    have hbefore := hagree.counted receiver generation id
    have hstep := htaken.counted receiver id
    rw [hreceived, hsent, hrefused, hgeneration, countP_append,
      countP_responses, countP_append, countP_singleton]
    split at hbefore
    · rename_i hcurrent
      have hsame : (message.connection = (receiver, generation) ∧
          message.id = id) ↔ client = receiver ∧ message.id = id := by
        rw [hconnection, hcurrent, Prod.mk.injEq]
        constructor
        · rintro ⟨⟨hclient, -⟩, hid⟩
          exact ⟨hclient, hid⟩
        · rintro ⟨rfl, hid⟩
          exact ⟨⟨rfl, rfl⟩, hid⟩
      rw [if_pos hcurrent, if_pos hcurrent]
      simp only [decide_eq_true_eq, hsame]
      omega
    · rename_i hother
      rw [if_neg hother, if_neg hother]
      omega

/-- Closing connections takes their requests back; the next connection with
their number is another one. -/
theorem close {later : Multiplexer} {after : History}
    (hagree : RequestsAgree mux history) (hissued : later.Issued)
    {closed : List Nat} (hnext : later.ids.next = mux.ids.next)
    (hrequests : later.ids.requests =
      mux.ids.requests.retain fun _ pending => pending.client ∉ closed)
    (hgeneration : after.generation = fun client =>
      if client ∈ closed then history.generation client + 1
      else history.generation client) (hsent : after.sent = history.sent)
    (hrefused : after.refused = history.refused)
    (hreceived : after.received = history.received) :
    RequestsAgree later after where
  issued := hissued
  sentIssued := by
    rw [hsent, hnext]
    exact hagree.sentIssued
  refusedIssued := by
    rw [hrefused, hnext]
    exact hagree.refusedIssued
  pending key pending hget := by
    rw [hrequests, get_retain, filter_eq_some_iff,
      decide_eq_true_iff] at hget
    rw [hsent, hgeneration]
    dsimp only
    rw [if_neg hget.2]
    exact hagree.pending key pending hget.1
  settled response hmem key hsome := by
    rw [hreceived] at hmem
    rw [hrequests, get_retain, hagree.settled response hmem key hsome]
    rfl
  keys_nodup := by
    rw [hsent]
    exact hagree.keys_nodup
  own := by
    rw [hreceived, hsent]
    exact hagree.own
  once := by
    rw [hreceived]
    exact hagree.once
  counted client generation id := by
    have hbefore := hagree.counted client generation id
    rw [hreceived, hsent, hrefused, hgeneration, hrequests]
    dsimp only
    by_cases hclosed : client ∈ closed
    · have hnone : outstanding (mux.ids.requests.retain fun _ pending =>
          pending.client ∉ closed) history.refused client id = 0 := by
        apply count_retain_eq_zero
        intro key pending hcounted
        rw [decide_eq_true_iff] at hcounted
        rw [hcounted.2.1, decide_eq_false_iff_not, not_not]
        exact hclosed
      rw [hnone, ite_self]
      omega
    · have hkept := count_retain_le mux.ids.requests
        (fun _ pending => pending.client ∉ closed)
        (fun key pending => decide (key ∉ history.refused ∧
          pending.client = client ∧ pending.id = id))
      simp only [if_neg hclosed]
      split at hbefore
      · rename_i hcurrent
        rw [if_pos hcurrent]
        exact Nat.le_trans (Nat.add_le_add_left hkept _) hbefore
      · rename_i hother
        rw [if_neg hother]
        exact hbefore

theorem new (bridge : BridgeState)
    (hissued : (Multiplexer.new bridge).Issued) :
    RequestsAgree (Multiplexer.new bridge) History.empty where
  issued := hissued
  sentIssued := by rintro _ ⟨⟩
  refusedIssued := by rintro _ ⟨⟩
  pending := by rintro _ _ ⟨⟩
  settled := by rintro _ ⟨⟩
  keys_nodup := nodup_nil
  own := by rintro _ ⟨⟩
  once := nodup_nil
  counted client generation id := by
    have hnone : 0 + (if generation = 0 then 0 else 0) = 0 :=
      (Nat.zero_add _).trans (ite_self 0)
    exact Nat.le_of_eq hnone

/-- The message for the client that a line of a core or of the relay makes is
the answer to what the line answers, or no response. -/
theorem toClient_responses (hnull : mux.ids.requests.get .null = none)
    (history : History) (reads : MultiplexReads) (client : Nat) {sent k : Json}
    (hplain : sent.get "method" = none → idOf sent = k) :
    responses (some k) history.generation
        (mux.toClient reads client sent).2 = [] ∨
      ∃ k' pending, some k = some k' ∧
        mux.ids.requests.get k' = some pending ∧
        (mux.toClient reads client sent).1.ids.requests.get k' = none ∧
        responses (some k) history.generation
            (mux.toClient reads client sent).2 =
          [⟨some k, (pending.client, history.generation pending.client),
            pending.id⟩] := by
  rw [Multiplexer.toClient]
  cases hmethod : sent.get "method" with
  | some method =>
    have hsome : (sent.get "method").isSome = true := by
      rw [hmethod]
      rfl
    obtain ⟨after, hok, -⟩ := Ids.response_request mux.ids client
      hsome
    rw [hok]
    left
    rw [responses, filterMap_cons_none, filterMap_nil]
    dsimp only
    rw [Multiplexer.get_routeDesktopAccountRead (by decide),
      if_neg (by rw [hmethod]; exact Bool.false_ne_true)]
  | none =>
    split
    · rename_i after answer method hok
      obtain ⟨pending, hpending, hclient, hanswer, hid, hafter⟩ :=
        Ids.response_answer hnull hmethod hok
      have hroute := fun (key : String) (hkey : key ≠ "result") =>
        Multiplexer.get_routeDesktopAccountRead hkey client method
          reads.bridge.relayOrigin answer
      have hkey : idOf sent = k := hplain hmethod
      refine Or.inr ⟨k, pending, rfl, ?_, ?_, ?_⟩
      · rw [← hkey, hpending]
      · rw [hafter, ← hkey]
        exact get_remove_self _ _
      · have hresponse : idOf (Multiplexer.routeDesktopAccountRead client
            method reads.bridge.relayOrigin answer) = pending.id := by
          rw [idOf, hroute "id" (by decide), ← hid]
          rfl
        rw [responses, filterMap_cons_some, filterMap_nil]
        dsimp only
        rw [if_pos (by rw [hroute "method" (by decide), hanswer]; rfl),
          hresponse, hclient]
    · exact Or.inl rfl

section

variable (hagree : RequestsAgree mux history)
include hagree

theorem child_step {plane : ExecutionPlane}
    (hinorder : (Observed.mk mux history).InOrder
      ⟨reads, .child client plane value, generation⟩) :
    RequestsAgree (mux.step reads (.child client plane value)).1
      (history.record mux ⟨reads, .child client plane value, generation⟩) := by
  have hissued := hagree.issued.step reads (.child client plane value)
  have hsettled : (mux.onChild reads client plane value).1.ids.Shrinks mux.ids ∧
      (∀ receiver id,
        answersTo receiver id (mux.onChild reads client plane value).2 +
          outstanding (mux.onChild reads client plane value).1.ids.requests
            history.refused receiver id ≤
        outstanding mux.ids.requests history.refused receiver id) ∧
      (responses (some (idOf value)) history.generation
          (mux.onChild reads client plane value).2 = [] ∨
        ∃ k pending, some (idOf value) = some k ∧
          mux.ids.requests.get k = some pending ∧
          (mux.onChild reads client plane value).1.ids.requests.get k = none ∧
          responses (some (idOf value)) history.generation
              (mux.onChild reads client plane value).2 =
            [⟨some (idOf value), (pending.client,
              history.generation pending.client), pending.id⟩]) := by
    have hnothing : ∀ receiver id, answersTo receiver id [] +
        outstanding mux.ids.requests history.refused receiver id ≤
          outstanding mux.ids.requests history.refused receiver id :=
      fun _ _ => Nat.le_of_eq (Nat.zero_add _)
    rw [Multiplexer.onChild]
    split
    · exact ⟨Ids.Shrinks.refl _, hnothing, Or.inl rfl⟩
    · split
      · exact ⟨Ids.Shrinks.refl _, hnothing, Or.inl rfl⟩
      · rename_i bridge actions hok
        rcases Multiplexer.onChildValue_actions hok with
          rfl | ⟨sent, rfl, hsent⟩
        · exact ⟨Ids.Shrinks.refl _, hnothing, Or.inl rfl⟩
        · have hplain : sent.get "method" = none →
              value.get "method" = none ∧ idOf sent = idOf value := by
            intro hnone
            rcases hsent with ⟨-, hsome, -⟩ | ⟨hsome, -⟩ | ⟨hvalue, -, hid⟩
            · rw [hnone] at hsome
              cases hsome
            · rw [hnone] at hsome
              cases hsome
            · exact ⟨hvalue, hid⟩
          have hrefused : sent.get "method" = none →
              idOf sent ∉ history.refused := by
            intro hnone
            obtain ⟨hvalue, hid⟩ := hplain hnone
            rw [Observed.InOrder] at hinorder
            dsimp only at hinorder
            rw [if_pos (by rw [hvalue]; rfl)] at hinorder
            rw [hid]
            exact hinorder
          have hnull : ({ mux with bridge } : Multiplexer).ids.requests.get
              .null = none := hagree.null_absent
          have hsettles :=
            Multiplexer.toClient_settles hnull reads client hrefused
          rw [Multiplexer.performAll_singleton]
          exact ⟨hsettles.carries.ids, hsettles.counted,
            toClient_responses hnull history reads client
              fun hnone => (hplain hnone).2⟩
  obtain ⟨hshrinks, hcounted, hanswer⟩ := hsettled
  exact hagree.answer hissued hshrinks hcounted hanswer
    (History.generation_record rfl) (append_nil _) (append_nil _) rfl

theorem control_step
    (hinorder : (Observed.mk mux history).InOrder
      ⟨reads, .control value, generation⟩) :
    RequestsAgree (mux.step reads (.control value)).1
      (history.record mux ⟨reads, .control value, generation⟩) := by
  -- The relay's line is delivered as a message for the desktop would be.
  have hcontrol : ∀ other : MultiplexReads, other.bridge.relayOrigin = none →
      mux.onControl value = mux.toClient other 0 value := by
    intro other hnone
    have hroute : ∀ method answer, Multiplexer.routeDesktopAccountRead 0 method
        none answer = answer := by
      intro method answer
      rw [Multiplexer.routeDesktopAccountRead]
      split
      · rfl
      · rfl
    rw [Multiplexer.onControl, Multiplexer.toClient, hnone]
    simp only [hroute]
  let other : MultiplexReads :=
    { reads with bridge := { reads.bridge with relayOrigin := none } }
  have hrefused : value.get "method" = none →
      idOf value ∉ history.refused := by
    intro hnone
    rw [Observed.InOrder] at hinorder
    dsimp only at hinorder
    rw [if_pos (by rw [hnone]; rfl)] at hinorder
    exact hinorder
  have hsettles := Multiplexer.toClient_settles hagree.null_absent other 0
    hrefused
  have hanswer := toClient_responses hagree.null_absent history other 0
    fun _ => Eq.refl (idOf value)
  rw [← hcontrol other rfl] at hsettles hanswer
  exact hagree.answer (hagree.issued.step reads (.control value))
    hsettles.carries.ids hsettles.counted hanswer
    (History.generation_record rfl) (append_nil _) (append_nil _) rfl

/-- An event without a message. -/
theorem silent_step (arrival : Arrival)
    (hids : (mux.step arrival.reads arrival.event).1.ids = mux.ids)
    (hresponses : responses (answeredKey arrival.event) history.generation
      (mux.step arrival.reads arrival.event).2 = [])
    (hcloses : mux.closes arrival.event = [])
    (hsent : history.sentBy mux arrival.event = [])
    (hrefused : History.refusedBy mux arrival.reads arrival.event = []) :
    RequestsAgree (mux.step arrival.reads arrival.event).1
      (history.record mux arrival) := by
  have hshrinks : (mux.step arrival.reads arrival.event).1.ids.Shrinks
      mux.ids := by
    rw [hids]
    exact Ids.Shrinks.refl _
  have hcounted : ∀ client id, answersTo client id [] +
      outstanding (mux.step arrival.reads arrival.event).1.ids.requests
        history.refused client id ≤
      outstanding mux.ids.requests history.refused client id := by
    intro client id
    rw [hids]
    exact Nat.le_of_eq (Nat.zero_add _)
  have hnone : responses none history.generation [] = [] := rfl
  apply hagree.answer (hagree.issued.step arrival.reads arrival.event)
    hshrinks hcounted (Or.inl hnone)
    (History.generation_record hcloses)
  · rw [History.record, hsent]
    exact append_nil _
  · rw [History.record, hrefused]
    exact append_nil _
  · rw [History.record, hresponses]
    rfl

theorem close_step {event : MultiplexEvent}
    (hclosing : (∃ client, event = .closed client) ∨ event = .relayClosed) :
    RequestsAgree (mux.step reads event).1
      (history.record mux ⟨reads, event, generation⟩) := by
  have hissued := hagree.issued.step reads event
  rcases hclosing with ⟨client, rfl⟩ | rfl
  · exact hagree.close hissued rfl
      (Ids.requests_foldl_disconnect [client] mux.ids) rfl
      (append_nil _) (append_nil _) (append_nil _)
  · exact hagree.close hissued
      (Ids.foldl_disconnect_shrinks _ mux.ids).next
      (Ids.requests_foldl_disconnect _ mux.ids) rfl
      (append_nil _) (append_nil _) (append_nil _)

/-- The line of a client: refused by the loop or by the bridge, or carried
out. -/
theorem client_takes (reads : MultiplexReads)
    (hinorder : (Observed.mk mux history).InOrder
      ⟨reads, .client client value, generation⟩)
    (hopen : mux.clients.contains client = true) :
    Takes mux (mux.onClient reads client value).1 history client
      ⟨mux.translatedId client value, (client, history.generation client),
        idOf value⟩
      (History.refusedBy mux reads (.client client value))
      (mux.onClient reads client value).2 := by
  have herror : ∀ code message receiver id, answersTo receiver id
      [.toClient client (jsonRpcError (idOf value) code message)] ≤
        if client = receiver ∧ idOf value = id then 1 else 0 := by
    intro code message receiver id
    rw [answersTo_response _ _ _ _ rfl]
    exact Nat.le_refl _
  rw [Multiplexer.onClient, hopen, History.refusedBy, hopen]
  simp only [Bool.not_true, Bool.false_eq_true, ↓reduceIte]
  split
  · rename_i hremote
    have hnone : mux.translatedId client value = none := if_pos hremote
    rw [hnone]
    exact Takes.of_same rfl rfl rfl (herror _ _)
  · rename_i hlocal
    split
    · rename_i error hrequest
      have hnone : mux.translatedId client value = none := by
        rw [Multiplexer.translatedId, if_neg hlocal]
        rw [Ids.request] at hrequest
        split at hrequest
        · rename_i hmethod
          rw [isNone_iff_eq_none] at hmethod
          rw [hmethod]
          rfl
        · split at hrequest
          · cases hrequest
          · cases hrequest
      rw [hnone]
      exact Takes.of_same rfl rfl rfl (herror _ _)
    · rename_i ids translated hrequest
      rcases Multiplexer.request_cases hlocal hrequest with
        ⟨hnone, htranslated, hsame, hnext⟩ |
        ⟨id, hid, hmethod, hsome, rfl, hids⟩
      · rw [hnone, htranslated]
        split
        · exact Takes.of_same hsame hnext rfl (herror _ _)
        · rename_i bridge actions hok
          have hharmless : ∀ action ∈ actions,
              Multiplexer.Harmless history.refused action := by
            cases hmethod : value.get "method" with
            | none =>
              obtain ⟨plane, original, hasked, -, rfl, hpresent⟩ :=
                Multiplexer.onClientValue_answer hmethod hok
              intro action hmem
              rw [mem_singleton] at hmem
              rw [hmem, Multiplexer.Harmless, idOf,
                get_setField hpresent]
              exact hinorder hmethod plane original hasked
            | some method =>
              have hsome : (value.get "method").isSome = true := by
                rw [hmethod]
                rfl
              have hid : value.get "id" = none := by
                rw [Multiplexer.translatedId, if_neg hlocal, hsome] at hnone
                cases hid : value.get "id" with
                | none => rfl
                | some id =>
                  rw [hid] at hnone
                  cases hnone
              apply Multiplexer.onClientValue_request_harmless hsome ?_
                (Multiplexer.shadow_notMem hagree.refusedIssued) hok
              rw [idOf, hid]
              exact Multiplexer.null_notMem hagree.refusedIssued
          have hnull : ({ mux with ids, bridge } : Multiplexer).ids.requests.get
              .null = none := by
            change ids.requests.get .null = none
            rw [hsame, hagree.null_absent]
          exact Takes.settled (Takes.of_same hsame hnext rfl
            fun _ _ => Nat.zero_le _)
            (Multiplexer.performAll_settles reads client hharmless hnull)
      · have hvalue : idOf value = id := by
          rw [idOf, hid]
          rfl
        have hpresent : (value.get "id").isSome = true := by
          rw [hid]
          rfl
        let key : Json := .str (clientRequestId client mux.ids.next)
        rw [hsome]
        dsimp only
        generalize hres : mux.bridge.onClientValue reads.bridge.print
          (setField "id" key value) = result
        obtain ⟨bridge, outcome⟩ := result
        cases outcome with
        | error error =>
          apply Takes.new_request client ids id (methodOf value) [key] hids
            (by rw [hvalue]) (fun _ hmem => mem_singleton.mp hmem) ?_ rfl
          intro receiver other
          have hrefused := outstanding_refused_le mux.ids.requests
            history.refused key ⟨client, id, methodOf value⟩ receiver other
          have hanswer := herror (-32070) error.text receiver other
          rw [hids, Nat.add_comm]
          exact Nat.add_le_add hrefused hanswer
        | ok actions =>
          have hfresh : idOf (setField "id" key value) ∉ history.refused := by
            rw [idOf, get_setField hpresent]
            intro hmem
            exact not_issuedBefore _ _ (hagree.refusedIssued key hmem)
          have htranslated : ((setField "id" key value).get
              "method").isSome = true := by
            rw [get_setField_ne hpresent (by decide), hmethod]
          have hharmless := Multiplexer.onClientValue_request_harmless
            htranslated hfresh
            (Multiplexer.shadow_notMem hagree.refusedIssued) hres
          have hnull : ids.requests.get .null = none := by
            rw [hids, get_insert, if_neg (by rintro ⟨⟩), hagree.null_absent]
          have hmiddle : Takes mux { mux with ids, bridge } history client
              ⟨some key, (client, history.generation client), idOf value⟩ []
              [] := by
            apply Takes.new_request client ids id (methodOf value) [] hids
              (by rw [hvalue]) (by rintro _ ⟨⟩) ?_ rfl
            intro receiver other
            have hinsert := outstanding_insert_le mux.ids.requests
              history.refused key ⟨client, id, methodOf value⟩ receiver other
            rw [hids, append_nil, hvalue]
            exact Nat.le_trans (Nat.le_of_eq (Nat.zero_add _)) hinsert
          have hnull' : ({ mux with ids, bridge } :
              Multiplexer).ids.requests.get .null = none := hnull
          exact hmiddle.settled
            (Multiplexer.performAll_settles reads client hharmless hnull')

theorem client_step
    (hinorder : (Observed.mk mux history).InOrder
      ⟨reads, .client client value, generation⟩) :
    RequestsAgree (mux.step reads (.client client value)).1
      (history.record mux ⟨reads, .client client value, generation⟩) := by
  cases hopen : mux.clients.contains client with
  | false =>
    have hnothing : mux.step reads (.client client value) = (mux, []) := by
      rw [Multiplexer.step, Multiplexer.onClient, hopen]
      rfl
    refine silent_step hagree ⟨reads, .client client value, generation⟩
      ?_ ?_ rfl ?_ ?_
    · rw [hnothing]
    · rw [hnothing]
      rfl
    · rw [History.sentBy, hopen]
      rfl
    · rw [History.refusedBy, hopen]
  | true =>
    apply hagree.request (hagree.issued.step reads (.client client value))
      (client_takes hagree reads hinorder hopen) rfl
      (History.generation_record rfl) ?_ rfl rfl
    rw [History.record, History.sentBy, hopen]
    rfl

end

/-- One event. -/
theorem step {observed : Observed}
    (hagree : RequestsAgree observed.mux observed.history) {arrival : Arrival}
    (hinorder : observed.InOrder arrival) :
    RequestsAgree (observed.step arrival).mux
      (observed.step arrival).history := by
  obtain ⟨reads, event, generation⟩ := arrival
  cases event with
  | client client value => exact client_step hagree hinorder
  | child client plane value => exact child_step hagree hinorder
  | control value => exact control_step hagree hinorder
  | opened client => exact silent_step hagree _ rfl rfl rfl rfl rfl
  | closed client => exact close_step hagree (Or.inl ⟨client, rfl⟩)
  | relayClosed => exact close_step hagree (Or.inr rfl)
  | exited plane => exact silent_step hagree _ rfl rfl rfl rfl rfl
  | socketClosed client plane =>
    refine silent_step hagree _ ?_ ?_ rfl rfl rfl
    · dsimp only
      rw [Multiplexer.step, Multiplexer.onSocketClosed]
      split
      · rfl
      · rfl
    · dsimp only
      rw [Multiplexer.step, Multiplexer.onSocketClosed]
      split
      · rfl
      · rfl

end RequestsAgree

end Vellum.Enhanced

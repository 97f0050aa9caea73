/-
The requests of the cores to the frontends.  A request waits under the id of
the bridge until the connection it was delivered to answers; the core's own id
comes back from the bridge's table then.
-/
import Vellum.Enhanced.ResponseIdentity

namespace Vellum.Enhanced

open List Option HashMap

/-- An id that the bridge gave to a request of a core before. -/
def TokenBefore (n : Nat) (token : Json) : Prop :=
  ∃ plane m, m < n ∧ token = .str (BridgeState.serverRequestId plane m)

theorem serverRequestId_inj {plane plane' : ExecutionPlane} {m n : Nat}
    (heq : BridgeState.serverRequestId plane m =
      BridgeState.serverRequestId plane' n) : m = n := by
  have hlist := congrArg String.toList heq
  simp only [BridgeState.serverRequestId, String.toList_append,
    Nat.toString_eq_repr, Nat.toList_repr, append_assoc] at hlist
  have hrest := append_cancel_left hlist
  have hlength : ∀ plane : ExecutionPlane,
      plane.asStr.toList.length = 14 := by
    intro plane
    cases plane with
    | officialCodex => decide
    | enhancedCodex => decide
  obtain ⟨-, hdigits⟩ := append_inj hrest
    ((hlength plane).trans (hlength plane').symm)
  exact Text.toDigits_inj (append_cancel_left hdigits)

theorem not_tokenBefore (plane : ExecutionPlane) (n : Nat) :
    ¬ TokenBefore n (.str (BridgeState.serverRequestId plane n)) := by
  rintro ⟨other, m, hlt, heq⟩
  exact Nat.ne_of_gt hlt (serverRequestId_inj (Json.str.inj heq))

theorem TokenBefore.mono {m n : Nat} (hle : m ≤ n) {token : Json}
    (hbefore : TokenBefore m token) : TokenBefore n token := by
  obtain ⟨plane, k, hlt, heq⟩ := hbefore
  exact ⟨plane, k, Nat.lt_of_lt_of_le hlt hle, heq⟩

namespace BridgeState

/-- The waiting requests of the cores are as before. -/
structure KeepsServerRequests (later earlier : BridgeState) : Prop where
  requests : later.serverRequests = earlier.serverRequests
  next : earlier.nextServerRequest ≤ later.nextServerRequest

theorem KeepsServerRequests.refl (state : BridgeState) :
    state.KeepsServerRequests state := ⟨rfl, Nat.le_refl _⟩

theorem KeepsServerRequests.trans {first second third : BridgeState}
    (hlater : third.KeepsServerRequests second)
    (hearlier : second.KeepsServerRequests first) :
    third.KeepsServerRequests first where
  requests := hlater.requests.trans hearlier.requests
  next := Nat.le_trans hearlier.next hlater.next

theorem closeTurn_keepsServerRequests (state : BridgeState)
    (threadId : String) :
    (state.closeTurn threadId).KeepsServerRequests state := by
  rw [closeTurn]
  split
  · exact ⟨rfl, Nat.le_refl _⟩
  · exact .refl state

theorem markChildExited_keepsServerRequests (state : BridgeState)
    (plane : ExecutionPlane) :
    (state.markChildExited plane).KeepsServerRequests state := by
  cases plane with
  | officialCodex => exact ⟨rfl, Nat.le_refl _⟩
  | enhancedCodex => exact ⟨rfl, Nat.le_refl _⟩

theorem recordAccountRead_keepsServerRequests (state : BridgeState)
    (method : String) (id : Option Json) :
    (state.recordAccountRead method id).KeepsServerRequests state := by
  cases id with
  | none => exact .refl state
  | some id =>
    rw [recordAccountRead]
    split
    · exact ⟨rfl, Nat.le_refl _⟩
    · exact .refl state

theorem openTurn_keepsServerRequests (state : BridgeState) (method : String)
    (params : Json) (plane : ExecutionPlane) (id : Option Json) :
    (state.openTurn method params plane id).KeepsServerRequests state := by
  rw [openTurn]
  split
  · cases id with
    | none => exact ⟨rfl, Nat.le_refl _⟩
    | some id => exact ⟨rfl, Nat.le_refl _⟩
  · exact .refl state

theorem recordPending_keepsServerRequests (state : BridgeState)
    (id : Option Json) (pending : Option PendingBinding) :
    (state.recordPending id pending).KeepsServerRequests state := by
  cases id with
  | none => exact .refl state
  | some id =>
    cases pending with
    | none => exact .refl state
    | some pending => exact ⟨rfl, Nat.le_refl _⟩

theorem onInitialize_keepsServerRequests (state : BridgeState)
    (value : Json) :
    (state.onInitialize value).1.KeepsServerRequests state := by
  rw [onInitialize]
  split
  · exact .refl state
  · dsimp only
    split
    · exact ⟨rfl, Nat.le_refl _⟩
    · exact ⟨rfl, Nat.le_succ _⟩

theorem onClientValue_keepsServerRequests (state : BridgeState)
    (print : Json → String) {value : Json}
    (hmethod : (value.get "method").isSome = true) :
    (state.onClientValue print value).1.KeepsServerRequests state := by
  have hread := state.recordAccountRead_keepsServerRequests (methodOf value)
    (value.get "id")
  rcases state.onClientValue_request print hmethod with
    ⟨heq, -⟩ | ⟨heq, -⟩ | ⟨-, heq⟩ | ⟨-, heq⟩ |
    ⟨-, -, -, ⟨error, heq, -⟩ | ⟨route, -, -, heq⟩⟩
  · rw [heq]
    exact .refl state
  · rw [heq]
    exact .refl state
  · rw [heq]
    exact .refl state
  · rw [heq]
    exact state.onInitialize_keepsServerRequests value
  · rw [heq]
    exact hread
  · rw [heq]
    exact (recordPending_keepsServerRequests _ _ _).trans
      ((openTurn_keepsServerRequests _ _ _ _ _).trans hread)

theorem onNotification_keepsServerRequests (state : BridgeState)
    (createdAt : String → Int) (plane : ExecutionPlane) (method : String)
    (value : Json) :
    (state.onNotification createdAt plane method value).1.KeepsServerRequests
      state := by
  apply onNotification_keeps _ _ _ _ _ KeepsServerRequests.refl
    KeepsServerRequests.trans closeTurn_keepsServerRequests
  rw [bindSpawnedAgentThreads]
  split
  · exact .refl state
  · exact .refl state
  · exact ⟨rfl, Nat.le_refl _⟩

theorem settleTurnRequest_keepsServerRequests (state : BridgeState)
    (id value : Json) :
    (state.settleTurnRequest id value).KeepsServerRequests state := by
  rw [settleTurnRequest]
  split
  · exact .refl state
  · dsimp only
    split
    · exact (closeTurn_keepsServerRequests _ _).trans ⟨rfl, Nat.le_refl _⟩
    · exact ⟨rfl, Nat.le_refl _⟩

theorem bindPending_keepsServerRequests (state : BridgeState)
    (createdAt : String → Int) (plane : ExecutionPlane) (id value : Json) :
    (state.bindPending createdAt plane id value).1.KeepsServerRequests
      state := by
  rw [bindPending]
  split
  · exact .refl state
  · dsimp only
    split
    · exact ⟨rfl, Nat.le_refl _⟩
    · split
      · exact ⟨rfl, Nat.le_refl _⟩
      · split
        · exact ⟨rfl, Nat.le_refl _⟩
        · split
          · exact ⟨rfl, Nat.le_refl _⟩
          · split
            · exact ⟨rfl, Nat.le_refl _⟩
            · exact ⟨rfl, Nat.le_refl _⟩

theorem onResponse_keepsServerRequests (state : BridgeState)
    (reads : BridgeReads) (plane : ExecutionPlane) (id value : Json) :
    (state.onResponse reads plane id value).1.KeepsServerRequests state := by
  rw [onResponse]
  split
  · exact ⟨rfl, Nat.le_refl _⟩
  · exact (bindPending_keepsServerRequests _ _ _ _ _).trans
      ((settleTurnRequest_keepsServerRequests _ _ _).trans
        ⟨rfl, Nat.le_refl _⟩)

theorem onChildValue_keepsServerRequests (state : BridgeState)
    (reads : BridgeReads) (plane : ExecutionPlane) {value : Json}
    (hother : value.get "method" = none ∨ value.get "id" = none) :
    (state.onChildValue reads plane value).1.KeepsServerRequests state := by
  rcases state.onChildValue_cases reads plane value with
    ⟨id, hmethod, hid, -⟩ | ⟨method, -, -, heq⟩ | ⟨id, -, -, heq⟩ | ⟨-, -, heq⟩
  · rcases hother with hnone | hnone
    · rw [hnone] at hmethod
      cases hmethod
    · rw [hnone] at hid
      cases hid
  · rw [heq]
    exact onNotification_keepsServerRequests _ _ _ _ _
  · rw [heq]
    exact onResponse_keepsServerRequests _ _ _ _ _
  · rw [heq]
    exact .refl state

end BridgeState

/-! What is sent for a request or an answer of a client. -/

theorem replies_append (token : Json) (generation : Nat → Nat)
    (left right : List Delivery) :
    replies token generation (left ++ right) =
      replies token generation left ++ replies token generation right :=
  filterMap_append

theorem Ids.approvals_response {ids after : Ids} {client : Nat}
    {value answer : Json} {method : Option String}
    (hmethod : value.get "method" = none)
    (hok : ids.response client value = .ok (after, answer, method)) :
    after.approvals = ids.approvals := by
  rw [Ids.response, hmethod] at hok
  simp only [isSome_none, Bool.false_eq_true, ↓reduceIte] at hok
  split at hok
  · cases hok
  · split at hok
    · cases hok
    · cases hok
      rfl

namespace Multiplexer

/-- A message for a core is passed on, or the client gets an error. -/
theorem toChild_passes (mux : Multiplexer) (reads : MultiplexReads)
    (client : Nat) (plane : ExecutionPlane) (value : Json) :
    (mux.toChild reads client plane value).1.ids.approvals =
        mux.ids.approvals ∧
      ((mux.toChild reads client plane value).2 =
          [.toCore client plane value] ∨
        ∀ token generation, replies token generation
          (mux.toChild reads client plane value).2 = []) := by
  have hrefuse : ∀ (other : Multiplexer) (message : String),
      (other.refuse client (idOf value) message).1.ids.approvals =
          other.ids.approvals ∧
        ∀ token generation, replies token generation
          (other.refuse client (idOf value) message).2 = [] := by
    intro other message
    rw [refuse]
    split
    · rename_i hok
      exact ⟨Ids.approvals_response rfl hok, fun _ _ => rfl⟩
    · exact ⟨rfl, fun _ _ => rfl⟩
  rw [toChild]
  split
  · split
    · exact ⟨(hrefuse _ _).1, Or.inr (hrefuse _ _).2⟩
    · exact ⟨rfl, Or.inr fun _ _ => rfl⟩
  · split
    · exact ⟨(hrefuse _ _).1, Or.inr (hrefuse _ _).2⟩
    · split
      · exact ⟨rfl, Or.inl rfl⟩
      · exact ⟨rfl, Or.inr fun _ _ => rfl⟩

/-- What a request of a client is carried out by: requests to cores, and
responses. -/
def Forwards : BridgeAction → Prop
  | .toChild _ value => (value.get "method").isSome = true
  | .toClient value => value.get "method" = none
  | .toRelay _ => True

theorem performAll_forwards (reads : MultiplexReads) (client : Nat)
    {actions : List BridgeAction}
    (hforwards : ∀ action ∈ actions, Forwards action) (mux : Multiplexer) :
    (performAll reads client actions mux).1.ids.approvals =
        mux.ids.approvals ∧
      ∀ token generation, replies token generation
        (performAll reads client actions mux).2 = [] := by
  induction actions generalizing mux with
  | nil => exact ⟨rfl, fun _ _ => rfl⟩
  | cons action rest ih =>
    obtain ⟨hhead, hrest⟩ := forall_mem_cons.mp hforwards
    have hfirst : (mux.perform reads client action).1.ids.approvals =
          mux.ids.approvals ∧
        ∀ token generation, replies token generation
          (mux.perform reads client action).2 = [] := by
      cases action with
      | toRelay value => exact ⟨rfl, fun _ _ => rfl⟩
      | toClient value =>
        rw [perform, toClient]
        split
        · rename_i hok
          exact ⟨Ids.approvals_response hhead hok, fun _ _ => rfl⟩
        · exact ⟨rfl, fun _ _ => rfl⟩
      | toChild plane value =>
        obtain ⟨hsame, hpassed | hnone⟩ :=
          toChild_passes mux reads client plane value
        · refine ⟨hsame, fun token generation => ?_⟩
          rw [perform, hpassed, replies]
          apply filterMap_cons_none
          dsimp only
          rw [← not_isSome, hhead]
          rfl
        · exact ⟨hsame, hnone⟩
    have hlater := ih hrest (mux.perform reads client action).1
    refine ⟨hlater.1.trans hfirst.1, fun token generation => ?_⟩
    change replies token generation
      ((mux.perform reads client action).2 ++ (performAll reads client rest
        (mux.perform reads client action).1).2) = []
    rw [replies_append, hfirst.2, hlater.2, append_nil]

theorem onClientValue_forwards {state : BridgeState} {value : Json}
    (hmethod : (value.get "method").isSome = true) {print : Json → String}
    {after : BridgeState} {actions : List BridgeAction}
    (hok : state.onClientValue print value = (after, .ok actions)) :
    ∀ action ∈ actions, Forwards action := by
  have hbroadcast : ∀ other : Json, (other.get "method").isSome = true →
      ∀ action ∈ state.broadcast value other, Forwards action := by
    intro other hother action hmem
    rw [BridgeState.broadcast] at hmem
    split at hmem
    · rw [mem_singleton] at hmem
      rw [hmem]
      exact hmethod
    · rcases mem_cons.mp hmem with rfl | hrest
      · exact hmethod
      · rw [mem_singleton] at hrest
        rw [hrest]
        exact hother
  rcases state.onClientValue_request print hmethod with
    ⟨heq, -⟩ | ⟨heq, -⟩ | ⟨-, heq⟩ | ⟨-, heq⟩ |
    ⟨-, -, -, ⟨error, heq, -⟩ | ⟨route, -, -, heq⟩⟩
  · cases heq.symm.trans hok
    simp [Forwards]
  · cases heq.symm.trans hok
    exact hbroadcast value hmethod
  · rw [heq, BridgeState.readRateLimits] at hok
    split at hok
    · cases hok
    · cases hok
      intro action hmem
      rw [mem_singleton] at hmem
      rw [hmem]
      rfl
  · rw [heq, BridgeState.onInitialize] at hok
    split at hok
    · cases hok
    · rename_i id hid
      have hpresent : (value.get "id").isSome = true := by
        rw [hid]
        rfl
      dsimp only at hok
      split at hok
      · cases hok
        exact hbroadcast value hmethod
      · cases hok
        apply hbroadcast
        rw [get_setField_ne hpresent (by decide), hmethod]
  · cases heq.symm.trans hok
  · cases heq.symm.trans hok
    intro action hmem
    rw [mem_singleton] at hmem
    rw [hmem, Forwards, BridgeState.get_forwarded route hmethod (by decide),
      hmethod]

theorem toClient_quiet {mux : Multiplexer}
    (hnull : mux.ids.requests.get .null = none) (reads : MultiplexReads)
    (client : Nat) {sent : Json}
    (hplain : sent.get "id" = none ∨ sent.get "method" = none) :
    (mux.toClient reads client sent).1.bridge = mux.bridge ∧
      (mux.toClient reads client sent).1.ids.approvals = mux.ids.approvals ∧
      ∀ core plane id generation, serverRequests core plane id generation
        (mux.toClient reads client sent).2 = [] := by
  have hsilent : ∀ (answer : Json) (method : Option String),
      ((answer.get "method").isSome && (answer.get "id").isSome) = false →
      ∀ core plane id generation, serverRequests core plane id generation
        [.toClient client (routeDesktopAccountRead client method
          reads.bridge.relayOrigin answer)] = [] := by
    intro answer method hnot core plane id generation
    apply filterMap_cons_none
    dsimp only
    rw [get_routeDesktopAccountRead (by decide),
      get_routeDesktopAccountRead (by decide), hnot]
    rfl
  rw [toClient]
  split
  · rename_i after answer method hok
    cases hmethod : sent.get "method" with
    | none =>
      obtain ⟨_, -, -, hanswer, -, hafter⟩ :=
        Ids.response_answer hnull hmethod hok
      refine ⟨rfl, ?_, hsilent answer method ?_⟩
      · rw [hafter]
      · rw [hanswer]
        rfl
    | some name =>
      have hid : sent.get "id" = none := by
        rcases hplain with hid | hnone
        · exact hid
        · rw [hmethod] at hnone
          cases hnone
      rw [Ids.response, if_pos (by rw [hmethod]; rfl), hid] at hok
      cases hok
      refine ⟨rfl, rfl, hsilent sent none ?_⟩
      rw [hid, isSome_none, Bool.and_false]
  · exact ⟨rfl, rfl, fun _ _ _ _ => rfl⟩

end Multiplexer

/-- The waiting requests of the cores and who may answer them agree with what
was seen. -/
structure ServerRequestsAgree (mux : Multiplexer) (history : History) :
    Prop where
  issued : ∀ token entry, mux.bridge.serverRequests.get token = some entry →
    TokenBefore mux.bridge.nextServerRequest token
  askedIssued : ∀ request ∈ history.asked,
    TokenBefore mux.bridge.nextServerRequest request.token
  waiting : ∀ token client plane id,
    mux.ids.approvals.get token = some client →
    mux.bridge.serverRequests.get token = some (plane, id) →
    ⟨token, (client, history.generation client), history.generation client,
      plane, id⟩ ∈ history.asked
  tokens_nodup : (history.asked.map ServerMessage.token).Nodup
  own : ∀ reply ∈ history.replied, reply ∈ history.asked
  answered : ∀ reply ∈ history.replied,
    mux.bridge.serverRequests.get reply.token = none
  once : (history.replied.map ServerMessage.token).Nodup

namespace ServerRequestsAgree

variable {mux : Multiplexer} {history : History} {reads : MultiplexReads}
  {client generation : Nat} {plane : ExecutionPlane} {value : Json}

theorem repliesMatch (hagree : ServerRequestsAgree mux history) :
    history.RepliesMatch where
  tokens_nodup := hagree.tokens_nodup
  own := hagree.own
  once := hagree.once

/-- Nothing is asked and nothing is answered. -/
theorem keep {later : Multiplexer} {after : History}
    (hagree : ServerRequestsAgree mux history)
    (hrequests : ∀ token entry,
      later.bridge.serverRequests.get token = some entry →
      mux.bridge.serverRequests.get token = some entry)
    (hnext : mux.bridge.nextServerRequest ≤ later.bridge.nextServerRequest)
    (hwaiting : ∀ token client plane id,
      later.ids.approvals.get token = some client →
      later.bridge.serverRequests.get token = some (plane, id) →
      mux.ids.approvals.get token = some client ∧
        after.generation client = history.generation client)
    (hasked : after.asked = history.asked)
    (hreplied : after.replied = history.replied) :
    ServerRequestsAgree later after where
  issued token entry hget :=
    (hagree.issued token entry (hrequests token entry hget)).mono hnext
  askedIssued request hmem := by
    rw [hasked] at hmem
    exact (hagree.askedIssued request hmem).mono hnext
  waiting token client plane id happroval hget := by
    obtain ⟨hbefore, hgeneration⟩ :=
      hwaiting token client plane id happroval hget
    rw [hasked, hgeneration]
    exact hagree.waiting token client plane id hbefore
      (hrequests token (plane, id) hget)
  tokens_nodup := by
    rw [hasked]
    exact hagree.tokens_nodup
  own := by
    rw [hasked, hreplied]
    exact hagree.own
  answered reply hmem := by
    rw [hreplied] at hmem
    cases hget : later.bridge.serverRequests.get reply.token with
    | none => rfl
    | some entry =>
      have hbefore := hrequests _ _ hget
      rw [hagree.answered reply hmem] at hbefore
      cases hbefore
  once := by
    rw [hreplied]
    exact hagree.once

/-- A request of a core is delivered under a new id. -/
theorem ask {later : Multiplexer} {after : History}
    (hagree : ServerRequestsAgree mux history) {token : Json} {id : Json}
    (htoken : token = .str (BridgeState.serverRequestId plane
      mux.bridge.nextServerRequest))
    (hrequests : later.bridge.serverRequests =
      mux.bridge.serverRequests.insert token (plane, id))
    (hnext : later.bridge.nextServerRequest = mux.bridge.nextServerRequest + 1)
    (happrovals : later.ids.approvals = mux.ids.approvals.insert token client)
    (hgeneration : after.generation = history.generation)
    (hasked : after.asked = history.asked ++
      [⟨token, (client, history.generation client),
        history.generation client, plane, id⟩])
    (hreplied : after.replied = history.replied) :
    ServerRequestsAgree later after := by
  have hfresh : ¬ TokenBefore mux.bridge.nextServerRequest token := by
    rw [htoken]
    exact not_tokenBefore _ _
  have hnow : TokenBefore later.bridge.nextServerRequest token := by
    rw [htoken, hnext]
    exact ⟨plane, _, Nat.lt_succ_self _, rfl⟩
  have hmono : mux.bridge.nextServerRequest ≤ later.bridge.nextServerRequest := by
    rw [hnext]
    exact Nat.le_succ _
  constructor
  · intro other entry hget
    rw [hrequests, get_insert] at hget
    split at hget
    · rename_i hsame
      rw [hsame]
      exact hnow
    · exact (hagree.issued other entry hget).mono hmono
  · intro request hmem
    rw [hasked, mem_append, mem_singleton] at hmem
    rcases hmem with hold | rfl
    · exact (hagree.askedIssued request hold).mono hmono
    · exact hnow
  · intro other holder plane' id' happroval hget
    rw [hrequests, get_insert] at hget
    rw [happrovals, get_insert] at happroval
    rw [hasked, hgeneration]
    split at hget
    · rename_i hsame
      rw [if_pos hsame] at happroval
      cases hget
      cases happroval
      rw [hsame]
      exact mem_append_right _ (mem_singleton_self _)
    · rename_i hother
      rw [if_neg hother] at happroval
      exact mem_append_left _
        (hagree.waiting other holder plane' id' happroval hget)
  · rw [hasked, map_append]
    apply hagree.tokens_nodup.append (nodup_singleton _)
    intro other hold hnew
    cases mem_singleton.mp hnew
    obtain ⟨request, hmem, hsame⟩ := List.mem_map.mp hold
    have hbefore := hagree.askedIssued request hmem
    rw [hsame] at hbefore
    exact hfresh hbefore
  · intro reply hmem
    rw [hreplied] at hmem
    rw [hasked]
    exact mem_append_left _ (hagree.own reply hmem)
  · intro reply hmem
    rw [hreplied] at hmem
    have hne : reply.token ≠ token := by
      intro hsame
      apply hfresh
      rw [← hsame]
      exact hagree.askedIssued reply (hagree.own reply hmem)
    rw [hrequests, get_insert, if_neg hne]
    exact hagree.answered reply hmem
  · rw [hreplied]
    exact hagree.once

/-- The connection that was asked answers. -/
theorem reply {mux later : Multiplexer} {history after : History}
    (hagree : ServerRequestsAgree mux history) {token : Json} {client : Nat}
    {plane : ExecutionPlane} {id : Json}
    (happroval : mux.ids.approvals.get token = some client)
    (hrequest : mux.bridge.serverRequests.get token = some (plane, id))
    (hrequests : later.bridge.serverRequests =
      mux.bridge.serverRequests.remove token)
    (hnext : later.bridge.nextServerRequest = mux.bridge.nextServerRequest)
    (happrovals : ∀ other holder, later.ids.approvals.get other = some holder →
      mux.ids.approvals.get other = some holder)
    (hgeneration : after.generation = history.generation)
    (hasked : after.asked = history.asked)
    (hreplied : after.replied = history.replied ++
      [⟨token, (client, history.generation client),
        history.generation client, plane, id⟩]) :
    ServerRequestsAgree later after := by
  have hold : ∀ other entry,
      later.bridge.serverRequests.get other = some entry →
      mux.bridge.serverRequests.get other = some entry := by
    intro other entry hget
    rw [hrequests] at hget
    exact get_of_remove hget
  have hkept : ServerRequestsAgree later
      { after with replied := history.replied } :=
    hagree.keep hold (Nat.le_of_eq hnext.symm)
      (fun other holder _ _ hget _ =>
        ⟨happrovals other holder hget, congrFun hgeneration holder⟩)
      hasked rfl
  constructor
  · exact hkept.issued
  · exact hkept.askedIssued
  · exact hkept.waiting
  · exact hkept.tokens_nodup
  · intro reply hmem
    rw [hreplied, mem_append, mem_singleton] at hmem
    rcases hmem with hbefore | rfl
    · exact hkept.own reply hbefore
    · rw [hasked]
      exact hagree.waiting token client plane id happroval hrequest
  · intro reply hmem
    rw [hreplied, mem_append, mem_singleton] at hmem
    rcases hmem with hbefore | rfl
    · exact hkept.answered reply hbefore
    · rw [hrequests]
      exact get_remove_self _ _
  · rw [hreplied, map_append]
    apply hagree.once.append (nodup_singleton _)
    intro other hbefore hnew
    cases mem_singleton.mp hnew
    obtain ⟨reply, hmem, hsame⟩ := List.mem_map.mp hbefore
    have hnone := hagree.answered reply hmem
    rw [hsame, hrequest] at hnone
    cases hnone

theorem new (bridge : BridgeState)
    (hempty : bridge.serverRequests = HashMap.empty) :
    ServerRequestsAgree (Multiplexer.new bridge) History.empty where
  issued token entry hget := by
    rw [show (Multiplexer.new bridge).bridge = bridge from rfl, hempty] at hget
    cases hget
  askedIssued := by rintro _ ⟨⟩
  waiting := by intros; contradiction
  tokens_nodup := nodup_nil
  own := by rintro _ ⟨⟩
  answered := by rintro _ ⟨⟩
  once := nodup_nil

/-- An event that leaves the tables, or closes connections. -/
theorem quiet_step (hagree : ServerRequestsAgree mux history)
    (arrival : Arrival)
    (hkeeps : (mux.step arrival.reads arrival.event).1.bridge.KeepsServerRequests
      mux.bridge)
    (happrovals : (mux.step arrival.reads arrival.event).1.ids.approvals =
      mux.ids.approvals.retain fun _ holder =>
        holder ∉ mux.closes arrival.event)
    (hasked : history.askedBy arrival
      (mux.step arrival.reads arrival.event).2 = [])
    (hreplied : history.repliedBy arrival.event
      (mux.step arrival.reads arrival.event).2 = []) :
    ServerRequestsAgree (mux.step arrival.reads arrival.event).1
      (history.record mux arrival) := by
  apply hagree.keep
  · intro token entry hget
    rw [hkeeps.requests] at hget
    exact hget
  · exact hkeeps.next
  · intro token client plane id hget _
    rw [happrovals, get_retain, filter_eq_some_iff,
      decide_eq_true_iff] at hget
    exact ⟨hget.1, if_neg hget.2⟩
  · rw [History.record, hasked]
    exact append_nil _
  · rw [History.record, hreplied]
    exact append_nil _

theorem control_step (hagree : ServerRequestsAgree mux history)
    (hinorder : (Observed.mk mux history).InOrder
      ⟨reads, .control value, generation⟩) :
    ServerRequestsAgree (mux.step reads (.control value)).1
      (history.record mux ⟨reads, .control value, generation⟩) := by
  have hstep : (mux.onControl value).1.bridge = mux.bridge ∧
      ((mux.onControl value).1.ids.approvals = mux.ids.approvals ∨
        (value.get "method").isSome = true ∧
          (mux.onControl value).1.ids.approvals =
            mux.ids.approvals.insert (idOf value) 0) := by
    rw [Multiplexer.onControl]
    split
    · rename_i after answer method hok
      refine ⟨rfl, ?_⟩
      cases hmethod : value.get "method" with
      | none => exact Or.inl (Ids.approvals_response hmethod hok)
      | some name =>
        rw [Ids.response, if_pos (by rw [hmethod]; rfl)] at hok
        split at hok
        · rename_i id hid
          cases hok
          refine Or.inr ⟨rfl, ?_⟩
          rw [idOf, hid]
          rfl
        · cases hok
          exact Or.inl rfl
    · exact ⟨rfl, Or.inl rfl⟩
  obtain ⟨hbridge, happrovals⟩ := hstep
  apply hagree.keep
  · intro token entry hget
    rw [Multiplexer.step, hbridge] at hget
    exact hget
  · exact Nat.le_of_eq (by rw [Multiplexer.step, hbridge])
  · intro token client plane id happroval hget
    rw [Multiplexer.step, hbridge] at hget
    rw [Multiplexer.step] at happroval
    refine ⟨?_, congrFun (History.generation_record rfl) client⟩
    rcases happrovals with hsame | ⟨hmethod, hinserted⟩
    · rw [hsame] at happroval
      exact happroval
    · rw [Observed.InOrder] at hinorder
      dsimp only at hinorder
      rw [if_neg (by rw [← not_isSome, hmethod]; exact Bool.false_ne_true)]
        at hinorder
      rw [hinserted, get_insert] at happroval
      split at happroval
      · rename_i hsame
        rw [hsame, hinorder] at hget
        cases hget
      · exact happroval
  · exact append_nil _
  · exact append_nil _

/-- A line of a core that is no request of it. -/
theorem child_step_other (hagree : ServerRequestsAgree mux history)
    (hnull : mux.ids.requests.get .null = none)
    (hother : value.get "method" = none ∨ value.get "id" = none) :
    ServerRequestsAgree (mux.step reads (.child client plane value)).1
      (history.record mux ⟨reads, .child client plane value, generation⟩) := by
  have hkept := BridgeState.onChildValue_keepsServerRequests mux.bridge
    { reads.bridge with relayOrigin := none } plane hother
  have hstep : (mux.onChild reads client plane value).1.bridge.KeepsServerRequests
        mux.bridge ∧
      (mux.onChild reads client plane value).1.ids.approvals =
        mux.ids.approvals ∧
      ∀ core id, serverRequests core plane id history.generation
        (mux.onChild reads client plane value).2 = [] := by
    rw [Multiplexer.onChild]
    split
    · exact ⟨.refl _, rfl, fun _ _ => rfl⟩
    · split
      · rename_i hresult
        rw [hresult] at hkept
        exact ⟨hkept, rfl, fun _ _ => rfl⟩
      · rename_i bridge actions hresult
        rw [hresult] at hkept
        rcases Multiplexer.onChildValue_actions hresult with
          rfl | ⟨sent, rfl, hsent⟩
        · exact ⟨hkept, rfl, fun _ _ => rfl⟩
        · have hplain : sent.get "id" = none ∨ sent.get "method" = none := by
            rcases hsent with ⟨hmethod, -, id, hid, -⟩ | ⟨-, hid⟩ | ⟨-, hnone, -⟩
            · rcases hother with hnone | hnone
              · rw [hnone] at hmethod
                cases hmethod
              · rw [hnone] at hid
                cases hid
            · exact Or.inl hid
            · exact Or.inr hnone
          have hclient : ({ mux with bridge } : Multiplexer).ids.requests.get
              .null = none := hnull
          obtain ⟨hbridge, happrovals, hnone⟩ :=
            Multiplexer.toClient_quiet hclient reads client hplain
          rw [Multiplexer.performAll_singleton]
          refine ⟨?_, happrovals, fun core id => hnone core plane id _⟩
          rw [Multiplexer.perform, hbridge]
          exact hkept
  obtain ⟨hkeeps, happrovals, hnone⟩ := hstep
  refine quiet_step hagree ⟨reads, .child client plane value, generation⟩
    hkeeps ?_ (hnone _ _) rfl
  rw [Multiplexer.step, happrovals]
  exact (retain_true fun _ _ => rfl).symm

/-- A core asks. -/
theorem child_step_request (hagree : ServerRequestsAgree mux history)
    {id : Json} (hmethod : (value.get "method").isSome = true)
    (hid : value.get "id" = some id)
    (hinorder : (Observed.mk mux history).InOrder
      ⟨reads, .child client plane value, generation⟩) :
    ServerRequestsAgree (mux.step reads (.child client plane value)).1
      (history.record mux ⟨reads, .child client plane value, generation⟩) := by
  have hpresent : (value.get "id").isSome = true := by
    rw [hid]
    rfl
  cases hopen : mux.clients.contains client with
  | false =>
    have hnothing : mux.step reads (.child client plane value) =
        (mux, []) := by
      rw [Multiplexer.step, Multiplexer.onChild, hopen]
      rfl
    refine quiet_step hagree ⟨reads, .child client plane value, generation⟩
      ?_ ?_ ?_ rfl
    · rw [hnothing]
      exact .refl _
    · rw [hnothing]
      exact (retain_true fun _ _ => rfl).symm
    · rw [hnothing]
      rfl
  | true =>
    have hcurrent : generation = history.generation client := by
      rw [Observed.InOrder] at hinorder
      dsimp only at hinorder
      rw [if_neg (by rw [← not_isSome, hmethod]
                     exact Bool.false_ne_true)] at hinorder
      exact hinorder hpresent hopen
    let token : Json := .str (BridgeState.serverRequestId plane
      mux.bridge.nextServerRequest)
    let sent : Json := setField "id" token value
    have hsentId : sent.get "id" = some token :=
      BridgeState.get_setField hpresent
    have hsentMethod : (sent.get "method").isSome = true := by
      rw [get_setField_ne hpresent (by decide), hmethod]
    have hasked : mux.bridge.onChildValue
        { reads.bridge with relayOrigin := none } plane value =
          mux.bridge.onServerRequest plane id value := by
      cases hname : value.get "method" with
      | none =>
        rw [hname] at hmethod
        cases hmethod
      | some name => rw [BridgeState.onChildValue, hname, hid]
    have hstep : mux.step reads (.child client plane value) =
        ({ mux with
            bridge := (mux.bridge.onServerRequest plane id value).1
            ids := { mux.ids with
              approvals := mux.ids.approvals.insert token client } },
          [.toClient client sent]) := by
      have hroute : Multiplexer.routeDesktopAccountRead client none
          reads.bridge.relayOrigin sent = sent := if_neg (by simp)
      rw [Multiplexer.step, Multiplexer.onChild, hopen, hasked]
      simp only [Bool.not_true, Bool.false_eq_true, ↓reduceIte,
        BridgeState.onServerRequest]
      rw [Multiplexer.performAll_singleton, Multiplexer.perform,
        Multiplexer.toClient, Ids.response, if_pos hsentMethod, hsentId]
      dsimp only
      rw [hroute]
    refine @ask mux history client plane _ _ hagree token id rfl ?_ ?_ ?_
      (History.generation_record rfl) ?_
      (append_nil _)
    · rw [hstep]
      rfl
    · rw [hstep]
      rfl
    · rw [hstep]
    · have hvalue : idOf value = id := by
        rw [idOf, hid]
        rfl
      have htoken : idOf sent = token := by
        rw [idOf, hsentId]
        rfl
      have hseen : serverRequests (history.generation client) plane id
          history.generation [.toClient client sent] =
            [⟨token, (client, history.generation client),
              history.generation client, plane, id⟩] := by
        apply filterMap_cons_some
        dsimp only
        rw [hsentMethod, hsentId, htoken]
        rfl
      rw [History.record, hstep, ← hseen, hcurrent, ← hvalue]
      rfl

end ServerRequestsAgree

end Vellum.Enhanced

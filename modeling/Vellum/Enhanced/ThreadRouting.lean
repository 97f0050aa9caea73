/-
Routing by the binding of a thread, over any interleaving of the client, the
two children and their exits.  A binding is never changed, so the plane that
serves a thread is fixed for the rest of the launch.
-/
import Vellum.Enhanced.BridgeState
import Vellum.Library.StepRun

namespace Vellum.Enhanced

open List Option

/-- What reaches the bridge. -/
inductive BridgeEvent where
  | client (line : Except String Json)
  | child (plane : ExecutionPlane) (line : Except String Json)
  | exited (plane : ExecutionPlane)

namespace BridgeState

def step (state : BridgeState) (reads : BridgeReads) :
    BridgeEvent → BridgeState × Outcome
  | .client line => state.onClientLine reads.print line
  | .child plane line => state.onChildLine reads plane line
  | .exited plane => (state.markChildExited plane, .ok [])

/-- Replay events, each with what it reads. -/
def run (state : BridgeState) : List (BridgeReads × BridgeEvent) → BridgeState
  | [] => state
  | (reads, event) :: rest => run (state.step reads event).1 rest

/-- A later state of the launch: the same configuration, and every binding
still there. -/
structure Extends (later earlier : BridgeState) : Prop where
  providers : later.providers = earlier.providers
  officialDigest : later.officialDigest = earlier.officialDigest
  enhancedDigest : later.enhancedDigest = earlier.enhancedDigest
  modelProviderMap : later.modelProviderMap = earlier.modelProviderMap
  store : later.store.Extends earlier.store

namespace Extends

theorem refl (state : BridgeState) : state.Extends state :=
  ⟨rfl, rfl, rfl, rfl, ThreadRuntimeBindingStore.Extends.refl _⟩

theorem trans {first second third : BridgeState}
    (hlater : third.Extends second) (hearlier : second.Extends first) :
    third.Extends first where
  providers := hlater.providers.trans hearlier.providers
  officialDigest := hlater.officialDigest.trans hearlier.officialDigest
  enhancedDigest := hlater.enhancedDigest.trans hearlier.enhancedDigest
  modelProviderMap := hlater.modelProviderMap.trans hearlier.modelProviderMap
  store := hlater.store.trans hearlier.store

theorem effectiveBinding {later earlier : BridgeState}
    (hextends : later.Extends earlier) (binding : ThreadRuntimeBinding) :
    later.effectiveBinding binding = earlier.effectiveBinding binding := by
  rw [BridgeState.effectiveBinding, BridgeState.effectiveBinding, bridgeOnly,
    bridgeOnly, hextends.enhancedDigest, hextends.officialDigest]

/-- A thread that is bound stays bound as it is. -/
theorem requireBinding {later earlier : BridgeState}
    (hextends : later.Extends earlier) {threadId : String}
    {binding : ThreadRuntimeBinding}
    (hbound : earlier.requireBinding threadId = .ok binding) :
    later.requireBinding threadId = .ok binding := by
  rw [BridgeState.requireBinding] at hbound ⊢
  cases hget : earlier.store.get threadId with
  | none =>
    rw [hget] at hbound
    cases hbound
  | some stored =>
    rw [hget] at hbound
    rw [hextends.store threadId stored hget, ← hbound]
    simp only [hextends.effectiveBinding]

end Extends

/-! What each part of a line leaves of the bindings. -/

section

variable (state : BridgeState) (print : Json → String)
  (createdAt : String → Int) (reads : BridgeReads) (method : String)
  (id : Option Json) (plane : ExecutionPlane) {params : Json} (value : Json)
  {threadId : String} {binding : ThreadRuntimeBinding} {out : Json}
  {actions : List BridgeAction}

theorem closeTurn_extends (threadId : String) :
    (state.closeTurn threadId).Extends state := by
  rw [closeTurn]
  split
  · exact ⟨rfl, rfl, rfl, rfl, ThreadRuntimeBindingStore.Extends.refl _⟩
  · exact Extends.refl state

theorem recordTurnRequest_extends (request : TurnRequest) :
    (state.recordTurnRequest id request).Extends state := by
  cases id with
  | none => exact Extends.refl state
  | some id =>
    exact ⟨rfl, rfl, rfl, rfl, ThreadRuntimeBindingStore.Extends.refl _⟩

theorem openTurn_extends (params : Json) (plane : ExecutionPlane)
    (id : Option Json) :
    (state.openTurn method params plane id).Extends state := by
  rw [openTurn]
  split
  · have hrequest := recordTurnRequest_extends state id ⟨‹_›, ‹_›⟩
    exact ⟨hrequest.providers, hrequest.officialDigest,
      hrequest.enhancedDigest, hrequest.modelProviderMap, hrequest.store⟩
  · exact Extends.refl state

theorem markChildExited_extends :
    (state.markChildExited plane).Extends state := by
  cases plane with
  | officialCodex =>
    exact ⟨rfl, rfl, rfl, rfl, ThreadRuntimeBindingStore.Extends.refl _⟩
  | enhancedCodex =>
    exact ⟨rfl, rfl, rfl, rfl, ThreadRuntimeBindingStore.Extends.refl _⟩

theorem recordAccountRead_extends :
    (state.recordAccountRead method id).Extends state := by
  cases id with
  | none => exact Extends.refl state
  | some id =>
    rw [recordAccountRead]
    split
    · exact ⟨rfl, rfl, rfl, rfl, ThreadRuntimeBindingStore.Extends.refl _⟩
    · exact Extends.refl state

theorem recordPending_extends (pending : Option PendingBinding) :
    (state.recordPending id pending).Extends state := by
  cases id with
  | none => exact Extends.refl state
  | some id =>
    cases pending with
    | none => exact Extends.refl state
    | some pending =>
      exact ⟨rfl, rfl, rfl, rfl, ThreadRuntimeBindingStore.Extends.refl _⟩

theorem routeClientResponse_extends :
    (state.routeClientResponse print value).1.Extends state := by
  rw [routeClientResponse]
  split
  · exact Extends.refl state
  · split
    · exact Extends.refl state
    · dsimp only
      split
      · exact ⟨rfl, rfl, rfl, rfl, ThreadRuntimeBindingStore.Extends.refl _⟩
      · exact ⟨rfl, rfl, rfl, rfl, ThreadRuntimeBindingStore.Extends.refl _⟩

theorem onInitialize_extends : (state.onInitialize value).1.Extends state := by
  rw [onInitialize]
  split
  · exact Extends.refl state
  · dsimp only
    split
    · exact ⟨rfl, rfl, rfl, rfl, ThreadRuntimeBindingStore.Extends.refl _⟩
    · exact ⟨rfl, rfl, rfl, rfl, ThreadRuntimeBindingStore.Extends.refl _⟩

theorem forwardRequest_extends :
    (state.forwardRequest method value).1.Extends state := by
  have hread := recordAccountRead_extends state method (value.get "id")
  rw [forwardRequest]
  split
  · exact hread
  · split
    · exact hread
    · exact (recordPending_extends _ _ _).trans
        ((openTurn_extends _ _ _ _ _).trans hread)

theorem onClientLine_extends (line : Except String Json) :
    (state.onClientLine print line).1.Extends state := by
  cases line with
  | error message => exact Extends.refl state
  | ok value =>
    simp only [onClientLine, onClientValue]
    split
    · exact routeClientResponse_extends state print value
    · split
      · exact Extends.refl state
      · split
        · exact Extends.refl state
        · split
          · exact Extends.refl state
          · split
            · exact onInitialize_extends state value
            · exact forwardRequest_extends state _ value

theorem inheritChildBindings_extends (parent : ThreadRuntimeBinding)
    (createdAt : String → Int) (children : List String)
    (store : ThreadRuntimeBindingStore) :
    (inheritChildBindings parent createdAt children store).1.Extends store := by
  induction children generalizing store with
  | nil => exact ThreadRuntimeBindingStore.Extends.refl store
  | cons child rest ih =>
    rw [inheritChildBindings, inheritChildBinding]
    cases hinsert : store.insertImmutable
        (childBinding parent child (createdAt child)) with
    | error error => exact ThreadRuntimeBindingStore.Extends.refl store
    | ok after =>
      exact (ih after).trans
        (ThreadRuntimeBindingStore.insertImmutable_extends hinsert)

theorem bindSpawnedAgentThreads_extends (notification : Json) :
    (state.bindSpawnedAgentThreads createdAt plane notification).1.Extends
      state := by
  rw [bindSpawnedAgentThreads]
  split
  · exact Extends.refl state
  · exact Extends.refl state
  · exact ⟨rfl, rfl, rfl, rfl, inheritChildBindings_extends _ _ _ _⟩

/-- A notification keeps what the binding of the announced threads and the end
of a turn keep. -/
theorem onNotification_keeps {r : BridgeState → BridgeState → Prop}
    (method : String) (hrefl : ∀ state, r state state)
    (htrans : ∀ {first second third}, r third second → r second first →
      r third first)
    (hclose : ∀ (state : BridgeState) (threadId : String),
      r (state.closeTurn threadId) state)
    (hbind : r (state.bindSpawnedAgentThreads createdAt plane value).1 state) :
    r (state.onNotification createdAt plane method value).1 state := by
  have hcompleted : ∀ state : BridgeState,
      r (state.closeCompletedTurn method value) state := by
    intro state
    rw [closeCompletedTurn]
    split
    · split
      · exact hclose state _
      · exact hrefl state
    · exact hrefl state
  rw [onNotification]
  split
  · exact hrefl state
  · split
    · rename_i heq
      rw [heq] at hbind
      exact hbind
    · rename_i heq
      rw [heq] at hbind
      exact htrans (hcompleted _) hbind

theorem onNotification_extends (method : String) (value : Json) :
    (state.onNotification createdAt plane method value).1.Extends state :=
  onNotification_keeps _ _ _ _ method Extends.refl Extends.trans
    closeTurn_extends (bindSpawnedAgentThreads_extends _ _ _ _)

theorem settleTurnRequest_extends (id value : Json) :
    (state.settleTurnRequest id value).Extends state := by
  rw [settleTurnRequest]
  split
  · exact Extends.refl state
  · dsimp only
    split
    · exact (closeTurn_extends _ _).trans
        ⟨rfl, rfl, rfl, rfl, ThreadRuntimeBindingStore.Extends.refl _⟩
    · exact ⟨rfl, rfl, rfl, rfl, ThreadRuntimeBindingStore.Extends.refl _⟩

theorem bindPending_extends (id value : Json) :
    (state.bindPending createdAt plane id value).1.Extends state := by
  have hremoved : ∀ table, { state with pendingBindings := table }.Extends state :=
    fun _ => ⟨rfl, rfl, rfl, rfl, ThreadRuntimeBindingStore.Extends.refl _⟩
  rw [bindPending]
  split
  · exact Extends.refl state
  · dsimp only
    split
    · exact hremoved _
    · split
      · exact hremoved _
      · split
        · exact hremoved _
        · split
          · exact hremoved _
          · split
            · rename_i hinsert
              exact ⟨rfl, rfl, rfl, rfl,
                ThreadRuntimeBindingStore.insertImmutable_extends hinsert⟩
            · exact hremoved _

theorem onResponse_extends (id value : Json) :
    (state.onResponse reads plane id value).1.Extends state := by
  rw [onResponse]
  split
  · exact ⟨rfl, rfl, rfl, rfl, ThreadRuntimeBindingStore.Extends.refl _⟩
  · exact (bindPending_extends _ _ _ _ _).trans
      ((settleTurnRequest_extends _ _ _).trans
        ⟨rfl, rfl, rfl, rfl, ThreadRuntimeBindingStore.Extends.refl _⟩)

theorem onChildLine_extends (line : Except String Json) :
    (state.onChildLine reads plane line).1.Extends state := by
  cases line with
  | error message => exact Extends.refl state
  | ok value =>
    simp only [onChildLine, onChildValue]
    split
    · exact ⟨rfl, rfl, rfl, rfl, ThreadRuntimeBindingStore.Extends.refl _⟩
    · exact onNotification_extends state _ plane _ value
    · exact onResponse_extends state reads plane _ value
    · exact Extends.refl state

theorem step_extends (event : BridgeEvent) :
    (state.step reads event).1.Extends state := by
  cases event with
  | client line => exact onClientLine_extends state reads.print line
  | child plane line => exact onChildLine_extends state reads plane line
  | exited plane => exact markChildExited_extends state plane

theorem run_extends (events : List (BridgeReads × BridgeEvent))
    (state : BridgeState) : (state.run events).Extends state := by
  induction events generalizing state with
  | nil => exact Extends.refl state
  | cons head rest ih =>
    obtain ⟨reads, event⟩ := head
    exact (ih _).trans (step_extends state reads event)

/-! Where a request about a bound thread goes. -/

/-- The requests the thread they name has no say in. -/
def isServedElsewhere (method : String) : Bool :=
  isRemoteControl method || isOfficialThreadMetadata method ||
    isGlobal method ||
    ["initialized", "account/rateLimits/read", "thread/start"].contains method

/-- The thread a request is about. -/
def requestedThread (value : Json) : Option String :=
  if (value.get "method").isNone || isServedElsewhere (methodOf value) then none
  else findThreadId (paramsOf value)

theorem findThreadId_of_requiredString
    (hrequired : requiredString params "threadId" = .ok threadId) :
    findThreadId params = some threadId := by
  rw [requiredString] at hrequired
  cases hfield : params.get "threadId" with
  | none =>
    have hnone : nonBlank (stringField "threadId" params) = none := by
      rw [stringField, hfield]
      rfl
    rw [hnone] at hrequired
    cases hrequired
  | some field =>
    rw [findThreadId, hfield]
    rw [stringField, hfield, bind_some, nonBlank] at hrequired
    cases hfilter : field.asStr.filter fun text => !isBlank text with
    | none =>
      rw [hfilter] at hrequired
      cases hrequired
    | some text =>
      rw [hfilter] at hrequired
      cases hrequired
      exact (filter_eq_some_iff.mp hfilter).1

/-- The requests that a thread's provider is looked at for. -/
def ReopensThread (method : String) : Prop :=
  method = "thread/resume" ∨ method = "thread/fork"

instance : DecidablePred ReopensThread :=
  fun _ => inferInstanceAs (Decidable (_ ∨ _))

theorem routeMethod_of_not_reopens {state : BridgeState} {method : String}
    (hmethod : isServedElsewhere method = false)
    (hthread : findThreadId params = some threadId)
    (hbound : state.store.get threadId = some binding)
    (hreopens : ¬ ReopensThread method) :
    state.routeMethod method params =
      .ok { plane := (state.effectiveBinding binding).plane } := by
  simp only [isServedElsewhere, Bool.or_eq_false_iff] at hmethod
  obtain ⟨⟨⟨-, hmetadata⟩, hglobal⟩, hother⟩ := hmethod
  obtain ⟨hresume, hfork⟩ := not_or.mp hreopens
  have hstart : method ≠ "thread/start" := by
    rintro rfl
    revert hother
    decide
  rw [routeMethod, if_neg hstart, if_neg hresume, if_neg hfork, hmetadata,
    hglobal, hthread]
  simp only [requireBinding, hbound, Bool.or_self, Bool.false_eq_true, ↓reduceIte]

/-- A resume or a fork of a bound thread fails for want of the thread's id or
by the check of its provider only. -/
theorem routeMethod_of_reopens {state : BridgeState} {method : String}
    (hthread : findThreadId params = some threadId)
    (hbound : state.store.get threadId = some binding)
    (hreopens : ReopensThread method) :
    (∃ error, requiredString params "threadId" = .error error ∧
      state.routeMethod method params = .error error) ∨
    (∃ error, state.ensureProviderDoesNotSwitch params
        (state.effectiveBinding binding) = .error error ∧
      state.routeMethod method params = .error error) ∨
    ∃ pending childProviderId, state.ensureProviderDoesNotSwitch params
        (state.effectiveBinding binding) = .ok childProviderId ∧
      state.routeMethod method params =
        .ok ⟨(state.effectiveBinding binding).plane, pending,
          childProviderId⟩ := by
  cases hrequired : requiredString params "threadId" with
  | error error =>
    refine Or.inl ⟨error, rfl, ?_⟩
    rcases hreopens with rfl | rfl
    · simp [routeMethod, routeResume, hrequired]
    · simp [routeMethod, routeFork, hrequired]
  | ok required =>
    rw [findThreadId_of_requiredString hrequired] at hthread
    cases hthread
    right
    cases hswitch : state.ensureProviderDoesNotSwitch params
        (state.effectiveBinding binding) with
    | error error =>
      refine Or.inl ⟨error, rfl, ?_⟩
      rcases hreopens with rfl | rfl
      · simp [routeMethod, routeResume, hrequired, hbound, hswitch]
      · simp [routeMethod, routeFork, requireBinding, hrequired, hbound,
          hswitch]
    | ok childProviderId =>
      right
      rcases hreopens with rfl | rfl
      · exact ⟨none, childProviderId, rfl, by
          simp [routeMethod, routeResume, hrequired, hbound, hswitch]⟩
      · exact ⟨_, childProviderId, rfl, by
          simp [routeMethod, routeFork, requireBinding, hrequired, hbound,
            hswitch]
          rfl⟩

theorem hasExited_recordAccountRead :
    (state.recordAccountRead method id).hasExited = state.hasExited := by
  funext plane
  cases id with
  | none => rfl
  | some id =>
    rw [recordAccountRead]
    split
    · cases plane with
      | officialCodex => rfl
      | enhancedCodex => rfl
    · rfl

theorem onClientValue_of_requestedThread {value : Json}
    (hrequested : requestedThread value = some threadId) :
    state.onClientValue print value =
        state.forwardRequest (methodOf value) value ∧
      isServedElsewhere (methodOf value) = false ∧
      findThreadId (paramsOf value) = some threadId := by
  rw [requestedThread] at hrequested
  split at hrequested
  · cases hrequested
  · rename_i hcond
    rw [Bool.or_eq_true, not_or, Bool.not_eq_true, Bool.not_eq_true] at hcond
    obtain ⟨hpresent, helsewhere⟩ := hcond
    have hserved := helsewhere
    simp only [isServedElsewhere, isGlobal, Bool.or_eq_false_iff,
      contains_eq_mem, mem_cons, not_mem_nil, or_false,
      decide_eq_false_iff_not, not_or] at hserved
    obtain ⟨⟨⟨hremote, -⟩, hglobal⟩, hother⟩ := hserved
    refine ⟨?_, helsewhere, hrequested⟩
    simp only [onClientValue, hpresent, hremote, hother.1, hother.2.1,
      hglobal.1, Bool.false_eq_true, ↓reduceIte]

/-- What a request about a thread of a binding comes to: it is forwarded to a
child that is alive, or refused because the child has exited, or, for a resume
or a fork, for want of the thread's id or by the check of its provider. -/
inductive Served (state : BridgeState) (plane : ExecutionPlane)
    (binding : ThreadRuntimeBinding) (value : Json) : Outcome → Prop
  | asItIs (hmethod : ¬ ReopensThread (methodOf value))
      (halive : state.hasExited plane = false) :
      Served state plane binding value
        (.ok [.toChild plane (forwarded { plane } value)])
  | reopened {childProviderId : Option String}
      (hmethod : ReopensThread (methodOf value))
      (hprovider : state.ensureProviderDoesNotSwitch (paramsOf value)
        (state.effectiveBinding binding) = .ok childProviderId)
      (halive : state.hasExited plane = false) :
      Served state plane binding value
        (.ok [.toChild plane (forwarded { plane, childProviderId } value)])
  | exited (hexited : state.hasExited plane = true) :
      Served state plane binding value (.error (.runtimeUnavailable plane))
  | threadMissing {error : BridgeError}
      (hmethod : ReopensThread (methodOf value))
      (hmissing : requiredString (paramsOf value) "threadId" = .error error) :
      Served state plane binding value (.error error)
  | providerSwitched {error : BridgeError}
      (hmethod : ReopensThread (methodOf value))
      (hswitch : state.ensureProviderDoesNotSwitch (paramsOf value)
        (state.effectiveBinding binding) = .error error) :
      Served state plane binding value (.error error)

theorem ensureProviderDoesNotSwitch_recordAccountRead :
    (state.recordAccountRead method id).ensureProviderDoesNotSwitch =
      state.ensureProviderDoesNotSwitch := by
  funext params binding
  rw [ensureProviderDoesNotSwitch, ensureProviderDoesNotSwitch,
    (recordAccountRead_extends state method id).modelProviderMap]

theorem onClientLine_of_bound {state : BridgeState} {value : Json}
    (hrequested : requestedThread value = some threadId)
    (hbound : state.store.get threadId = some binding) :
    Served state (state.effectiveBinding binding).plane binding value
      (state.onClientLine print (.ok value)).2 := by
  obtain ⟨hforward, hserved, hthread⟩ :=
    onClientValue_of_requestedThread state print hrequested
  have hread := recordAccountRead_extends state (methodOf value)
    (value.get "id")
  have hkept := hread.store threadId binding hbound
  have heffective := hread.effectiveBinding binding
  have hexited := hasExited_recordAccountRead state (methodOf value)
    (value.get "id")
  have hprovider := ensureProviderDoesNotSwitch_recordAccountRead state
    (methodOf value) (value.get "id")
  rw [onClientLine, hforward, forwardRequest]
  by_cases hreopens : ReopensThread (methodOf value)
  · rcases routeMethod_of_reopens hthread hkept hreopens with
      ⟨error, hmissing, hroute⟩ | ⟨error, hswitch, hroute⟩ |
      ⟨pending, childProviderId, hswitch, hroute⟩
    · rw [hroute]
      exact .threadMissing hreopens hmissing
    · rw [hroute]
      rw [hprovider, heffective] at hswitch
      exact .providerSwitched hreopens hswitch
    · rw [hprovider, heffective] at hswitch
      simp only [hroute, heffective, ensurePlaneAvailable, hexited]
      by_cases hgone : state.hasExited (state.effectiveBinding binding).plane
      · rw [if_pos hgone]
        exact .exited hgone
      · rw [if_neg hgone]
        exact .reopened hreopens hswitch (Bool.not_eq_true _ ▸ hgone)
  · rw [routeMethod_of_not_reopens hserved hthread hkept hreopens]
    simp only [heffective, ensurePlaneAvailable, hexited]
    by_cases hgone : state.hasExited (state.effectiveBinding binding).plane
    · rw [if_pos hgone]
      exact .exited hgone
    · rw [if_neg hgone]
      exact .asItIs hreopens (Bool.not_eq_true _ ▸ hgone)

/-! Where a notification about a thread comes from. -/

def isNotification (value : Json) : Bool :=
  (stringField "method" value).isSome && (value.get "id").isNone

def notifiedThread (value : Json) : Option String :=
  (value.get "params").bind findThreadId

theorem notificationOwnerThreadId_of_notifiedThread {method : String}
    {value : Json} (hthread : notifiedThread value = some threadId) :
    notificationOwnerThreadId method value = some threadId := by
  obtain ⟨params, hparams, hfind⟩ := bind_eq_some_iff.mp hthread
  rw [notificationOwnerThreadId, hparams, bind_some, hfind]
  rfl

theorem get_setField {name : String} {field value : Json} {key : String}
    (hpresent : (value.get key).isSome = true) :
    (setField name field value).get name = some field := by
  cases value with
  | obj fields => rw [setField, Json.get_insertField, if_pos rfl]
  | null => cases hpresent
  | bool _ => cases hpresent
  | num _ => cases hpresent
  | str _ => cases hpresent
  | arr _ => cases hpresent

theorem get_routeDesktopBackendToRelay {key : String} (hkey : key ≠ "result")
    (relayOrigin : Option String) (response : Json) :
    (routeDesktopBackendToRelay relayOrigin response).get key =
      response.get key := by
  cases relayOrigin with
  | none => rfl
  | some origin =>
    rw [routeDesktopBackendToRelay, Json.get_modify, if_neg hkey]

/-- A response reaches the client as it is, or as an error for the same id. -/
theorem bindPending_ok {state : BridgeState} {createdAt : String → Int}
    {plane : ExecutionPlane} {id value : Json}
    (hok : (state.bindPending createdAt plane id value).2 = .ok actions) :
    actions = [.toClient value] ∨
      ∃ message, actions = [.toClient (jsonRpcError id (-32071) message)] := by
  rw [bindPending] at hok
  split at hok
  · exact Or.inl (Except.ok.inj hok).symm
  · dsimp only at hok
    split at hok
    · cases hok
    · split at hok
      · exact Or.inl (Except.ok.inj hok).symm
      · split at hok
        · cases hok
        · split at hok
          · cases hok
          · split at hok
            · exact Or.inl (Except.ok.inj hok).symm
            · exact Or.inr ⟨_, (Except.ok.inj hok).symm⟩

theorem onResponse_ok {state : BridgeState} {reads : BridgeReads}
    {plane : ExecutionPlane} {id value : Json}
    (hmethod : value.get "method" = none)
    (hok : (state.onResponse reads plane id value).2 = .ok actions)
    (hout : .toClient out ∈ actions) :
    isNotification out = false ∨ notifiedThread out = none := by
  rw [onResponse] at hok
  split at hok
  · cases hok
    rw [shadowAnswer] at hout
    split at hout
    · rw [mem_singleton] at hout
      cases hout
      exact Or.inr rfl
    · cases hout
  · left
    rcases bindPending_ok hok with rfl | ⟨message, rfl⟩
    · rw [mem_singleton] at hout
      cases hout
      have hnone : ∀ answer : Json, answer.get "method" = none →
          isNotification answer = false := by
        intro answer hget
        rw [isNotification, stringField, hget]
        rfl
      apply hnone
      split
      · rw [get_routeDesktopBackendToRelay (by decide), hmethod]
      · exact hmethod
    · rw [mem_singleton] at hout
      cases hout
      rfl

/-- The four shapes of a line: a request of the child, a notification, a
response, and what is none of them. -/
theorem onChildValue_cases :
    (∃ id, (value.get "method").isSome = true ∧ value.get "id" = some id ∧
      state.onChildValue reads plane value =
        state.onServerRequest plane id value) ∨
    (∃ method, stringField "method" value = some method ∧
      value.get "id" = none ∧ state.onChildValue reads plane value =
        state.onNotification reads.createdAt plane method value) ∨
    (∃ id, value.get "method" = none ∧ value.get "id" = some id ∧
      state.onChildValue reads plane value =
        state.onResponse reads plane id value) ∨
    (stringField "method" value = none ∧ value.get "id" = none ∧
      state.onChildValue reads plane value = (state, .ok [.toClient value])) := by
  rw [onChildValue]
  cases hmethod : value.get "method" with
  | none =>
    cases hid : value.get "id" with
    | none =>
      refine Or.inr (Or.inr (Or.inr ⟨?_, rfl, rfl⟩))
      rw [stringField, hmethod]
      rfl
    | some id => exact Or.inr (Or.inr (Or.inl ⟨id, rfl, rfl, rfl⟩))
  | some method =>
    cases hid : value.get "id" with
    | some id => exact Or.inl ⟨id, rfl, rfl, rfl⟩
    | none =>
      cases hstr : method.asStr with
      | some text =>
        have heq : method = .str text := by
          cases method with
          | str _ => exact congrArg Json.str (some.inj hstr)
          | null | bool _ | num _ | arr _ | obj _ => cases hstr
        subst heq
        refine Or.inr (Or.inl ⟨text, ?_, rfl, rfl⟩)
        rw [stringField, hmethod]
        rfl
      | none =>
        refine Or.inr (Or.inr (Or.inr ⟨?_, rfl, ?_⟩))
        · rw [stringField, hmethod, bind_some, hstr]
        · cases method with
          | str _ => cases hstr
          | null | bool _ | num _ | arr _ | obj _ => rfl

/-- The store is as the notification left it when its owner is looked up. -/
theorem onNotification_ok {state : BridgeState} {createdAt : String → Int}
    {plane : ExecutionPlane} {method : String} {value : Json}
    (hok : (state.onNotification createdAt plane method value).2 = .ok actions)
    (hout : .toClient out ∈ actions) :
    out = value ∧
      (state.onNotification createdAt plane method value).1.deliverNotification
        plane method value = .ok [.toClient value] := by
  rw [onNotification] at hok ⊢
  split at hok
  · cases hok
    cases hout
  · rename_i hcond
    rw [if_neg hcond]
    split at hok
    · cases hok
    · rename_i after heq
      dsimp only at hok ⊢
      have hdeliver := hok
      rw [deliverNotification] at hdeliver
      split at hdeliver
      · split at hdeliver
        · cases hdeliver
        · split at hdeliver
          · cases hdeliver
            cases hout
          · cases hdeliver
            rw [mem_singleton] at hout
            cases hout
            exact ⟨rfl, hok⟩
      · split at hdeliver
        · cases hdeliver
          cases hout
        · cases hdeliver
          rw [mem_singleton] at hout
          cases hout
          exact ⟨rfl, hok⟩

/-- A notification about a thread comes from the thread's plane. -/
theorem onChildLine_notification {state : BridgeState} {reads : BridgeReads}
    {plane : ExecutionPlane} {line : Except String Json}
    (hok : (state.onChildLine reads plane line).2 = .ok actions)
    (hout : .toClient out ∈ actions) (hnotification : isNotification out = true)
    (hthread : notifiedThread out = some threadId) :
    ∃ binding, (state.onChildLine reads plane line).1.requireBinding threadId =
      .ok binding ∧ binding.plane = plane := by
  cases line with
  | error message => cases hok
  | ok value =>
    rw [onChildLine] at hok ⊢
    rw [isNotification, Bool.and_eq_true, isNone_iff_eq_none]
      at hnotification
    rcases onChildValue_cases state reads plane value with
      ⟨id, hmethod, hid, heq⟩ | ⟨method, hmethod, hid, heq⟩ |
      ⟨id, hmethod, hid, heq⟩ | ⟨hmethod, hid, heq⟩
    · rw [heq] at hok
      cases hok
      rw [mem_singleton] at hout
      cases hout
      have hpresent : (value.get "id").isSome = true := by
        rw [hid]
        rfl
      rw [get_setField hpresent] at hnotification
      cases hnotification.2
    · rw [heq] at hok ⊢
      obtain ⟨rfl, hdeliver⟩ := onNotification_ok hok hout
      rw [deliverNotification,
        notificationOwnerThreadId_of_notifiedThread hthread] at hdeliver
      dsimp only at hdeliver
      split at hdeliver
      · cases hdeliver
      · rename_i binding hrequire
        refine ⟨binding, hrequire, ?_⟩
        by_contra hne
        rw [if_pos hne] at hdeliver
        cases hdeliver
    · rw [heq] at hok
      rcases onResponse_ok hmethod hok hout with hnot | hnone
      · rw [isNotification, hnotification.1, hnotification.2] at hnot
        cases hnot
      · rw [hnone] at hthread
        cases hthread
    · rw [heq] at hok
      cases hok
      rw [mem_singleton] at hout
      cases hout
      rw [hmethod] at hnotification
      cases hnotification.1

/-- The plane a launch serves a bound thread on. -/
def servingPlane (state : BridgeState) (binding : ThreadRuntimeBinding) :
    ExecutionPlane :=
  if state.bridgeOnly then .officialCodex else binding.plane

theorem effectiveBinding_plane (binding : ThreadRuntimeBinding) :
    (state.effectiveBinding binding).plane = state.servingPlane binding := by
  rw [effectiveBinding, servingPlane]
  split
  · rfl
  · rfl

end

/-- In every run a stored binding stays, a request about a bound thread goes to
the plane the launch serves it on and to no child that has exited, or is
refused for one of the stated reasons, and a notification about a thread
reaches the client from the plane of its thread only. -/
theorem routing_follows_bindings (state : BridgeState)
    (events : List (BridgeReads × BridgeEvent)) (reads : BridgeReads) :
    (∀ threadId binding, state.store.get threadId = some binding →
      (state.run events).store.get threadId = some binding ∧
      ∀ value, requestedThread value = some threadId →
        Served (state.run events) (state.servingPlane binding) binding value
          ((state.run events).onClientLine reads.print (.ok value)).2) ∧
    ∀ plane line actions out threadId,
      ((state.run events).onChildLine reads plane line).2 = .ok actions →
      .toClient out ∈ actions → isNotification out = true →
      notifiedThread out = some threadId →
      ∃ binding, ((state.run events).onChildLine reads plane line).1.store.get
          threadId = some binding ∧
        state.servingPlane binding = plane := by
  have hrun := run_extends events state
  constructor
  · intro threadId binding hbound
    have hkept := hrun.store threadId binding hbound
    refine ⟨hkept, fun value hrequested => ?_⟩
    have hplane : ((state.run events).effectiveBinding binding).plane =
        state.servingPlane binding := by
      rw [hrun.effectiveBinding, effectiveBinding_plane]
    have hforward := onClientLine_of_bound reads.print hrequested hkept
    rw [hplane] at hforward
    exact hforward
  · intro plane line actions out threadId hok hout hnotification hthread
    obtain ⟨effective, hrequire, hplane⟩ :=
      onChildLine_notification hok hout hnotification hthread
    have hlater :=
      (onChildLine_extends (state.run events) reads plane line).trans hrun
    rw [requireBinding] at hrequire
    split at hrequire
    · rename_i binding hget
      refine ⟨binding, hget, ?_⟩
      rw [← effectiveBinding_plane, ← hlater.effectiveBinding,
        Except.ok.inj hrequire, hplane]
    · cases hrequire

namespace OneEnhancedThread

def enhancedThread : ThreadRuntimeBinding :=
  .new "t" .enhancedCodex "enhanced-digest" "acme" "acme-large" "t" 0

/-- A launch with both cores, and one thread that Enhanced serves. -/
def state : BridgeState :=
  .new (KeyedTable.put KeyedTable.empty enhancedThread) ⟨[], ["acme"]⟩
    "official-digest" "enhanced-digest" HashMap.empty

def reads : BridgeReads := ⟨fun _ => "", none, fun _ => 0⟩

def request (method : String) (params : List (String × Json)) : Json :=
  .obj [("id", .str "1"), ("method", .str method), ("params", .obj params)]

def readThread : Json := request "thread/read" [("threadId", .str "t")]

/-- A new thread is started where its provider says, whatever thread the
request names. -/
def startNaming : Json :=
  request "thread/start"
    [("threadId", .str "t"), ("modelProvider", .str "openai")]

def itemStarted : Json :=
  .obj [("method", .str "item/started"),
    ("params", .obj [("threadId", .str "t")])]

/-- After Official has exited, a read of the thread goes to Enhanced, and a
notification about it that reaches the client came from there. -/
theorem read_goes_to_enhanced :
    let later := state.run [(reads, .exited .officialCodex)]
    (later.onClientLine reads.print (.ok readThread)).2 =
      .ok [.toChild .enhancedCodex (forwarded ⟨.enhancedCodex, none, none⟩
        readThread)] ∧
    ∃ binding, (later.onChildLine reads .enhancedCodex
        (.ok itemStarted)).1.store.get "t" = some binding ∧
      state.servingPlane binding = .enhancedCodex := by
  obtain ⟨hrequests, hnotifications⟩ := routing_follows_bindings state
    [(reads, .exited .officialCodex)] reads
  constructor
  · have hthread := (hrequests "t" enhancedThread (by decide)).2 readThread
      (by decide)
    generalize (state.run [(reads, .exited .officialCodex)]).onClientLine
      reads.print (.ok readThread) = answer at hthread ⊢
    have hmethod : ¬ ReopensThread (methodOf readThread) := by decide
    obtain ⟨after, outcome⟩ := answer
    cases hthread with
    | asItIs _ _ => rfl
    | reopened hreopens _ _ => exact absurd hreopens hmethod
    | exited hexited => exact absurd hexited (by decide)
    | threadMissing hreopens _ => exact absurd hreopens hmethod
    | providerSwitched hreopens _ => exact absurd hreopens hmethod
  · exact hnotifications .enhancedCodex (.ok itemStarted)
      [.toClient itemStarted] itemStarted "t" (by decide)
      (mem_singleton_self _) (by decide) (by decide)

/-- A request that names a thread bound to Enhanced is forwarded to
Official. -/
theorem start_ignores_the_thread :
    state.store.get "t" = some enhancedThread ∧
      findThreadId (paramsOf startNaming) = some "t" ∧
      state.servingPlane enhancedThread = .enhancedCodex ∧
      ∃ sent, (state.onClientLine reads.print (.ok startNaming)).2 =
        .ok [.toChild .officialCodex sent] := by
  refine ⟨by decide, by decide, by decide, ?_, ?_⟩
  · exact request "thread/start"
      [("threadId", .str "t"), ("modelProvider", .str "vellum-official")]
  · decide

end OneEnhancedThread

end BridgeState

end Vellum.Enhanced

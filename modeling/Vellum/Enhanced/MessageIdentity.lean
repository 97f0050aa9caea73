/-
Runs of the multiplexer.  As long as every event is in order, responses reach
the connections that asked, answers reach the cores that asked, and what comes
late from a closed connection is not seen by the next one with its number.
-/
import Vellum.Enhanced.ServerRequestIdentity

namespace Vellum.Enhanced

open HashMap

/-- The line of a client leaves the requests of the cores. -/
structure Quiet (mux later : Multiplexer) (deliveries : List Delivery) :
    Prop where
  requests : ∀ token entry,
    later.bridge.serverRequests.get token = some entry →
    mux.bridge.serverRequests.get token = some entry
  next : mux.bridge.nextServerRequest ≤ later.bridge.nextServerRequest
  approvals : ∀ token holder, later.ids.approvals.get token = some holder →
    mux.ids.approvals.get token = some holder
  replies : ∀ token generation, replies token generation deliveries = []

/-- The line of a client answers the request of a core. -/
structure Answers (mux later : Multiplexer) (client : Nat) (value : Json)
    (deliveries : List Delivery) (plane : ExecutionPlane) (id : Json) :
    Prop where
  approval : mux.ids.approvals.get (idOf value) = some client
  request : mux.bridge.serverRequests.get (idOf value) = some (plane, id)
  requests : later.bridge.serverRequests =
    mux.bridge.serverRequests.remove (idOf value)
  next : later.bridge.nextServerRequest = mux.bridge.nextServerRequest
  approvals : ∀ token holder, later.ids.approvals.get token = some holder →
    mux.ids.approvals.get token = some holder
  replies : ∀ token generation, replies token generation deliveries =
    [⟨token, (client, generation client), generation client, plane, id⟩]

theorem Quiet.refl (mux : Multiplexer) {deliveries : List Delivery}
    (hnone : ∀ token generation, Enhanced.replies token generation
      deliveries = []) : Quiet mux mux deliveries where
  requests _ _ hget := hget
  next := Nat.le_refl _
  approvals _ _ hget := hget
  replies := hnone

namespace BridgeState

/-- An answer takes its request away, or nothing happens. -/
theorem onClientValue_answer_shrinks (state : BridgeState)
    (print : Json → String) {value : Json}
    (hmethod : value.get "method" = none) :
    (∀ token entry,
        (state.onClientValue print value).1.serverRequests.get token =
          some entry → state.serverRequests.get token = some entry) ∧
      (state.onClientValue print value).1.nextServerRequest =
        state.nextServerRequest := by
  rw [onClientValue, hmethod, routeClientResponse]
  simp only [Option.isNone_none, ↓reduceIte]
  split
  · exact ⟨fun _ _ hget => hget, rfl⟩
  · split
    · exact ⟨fun _ _ hget => hget, rfl⟩
    · split
      · exact ⟨fun _ _ hget => get_of_remove hget, rfl⟩
      · exact ⟨fun _ _ hget => get_of_remove hget, rfl⟩

end BridgeState

namespace Multiplexer

theorem toChild_answers (mux : Multiplexer) (reads : MultiplexReads)
    {client : Nat} {value : Json} {plane : ExecutionPlane} {id : Json}
    {ids : Ids} {bridge : BridgeState}
    (hmethod : value.get "method" = none)
    (hpresent : (value.get "id").isSome = true)
    (happroval : mux.ids.approvals.get (idOf value) = some client)
    (hids : ids.approvals = mux.ids.approvals.remove (idOf value))
    (hrequest : mux.bridge.serverRequests.get (idOf value) = some (plane, id))
    (hbridge : bridge = { mux.bridge with
      serverRequests := mux.bridge.serverRequests.remove (idOf value) }) :
    let after := toChild { mux with ids, bridge } reads client plane
      (setField "id" id value)
    Quiet mux after.1 after.2 ∨
      Answers mux after.1 client value after.2 plane id := by
  intro after
  have hcarries : after.1.bridge = bridge :=
    (perform_carries { mux with ids, bridge } reads client
      (.toChild plane (setField "id" id value))).bridge
  obtain ⟨hsame, hpassed⟩ := toChild_passes { mux with ids, bridge } reads
    client plane (setField "id" id value)
  have happrovals : ∀ token holder,
      after.1.ids.approvals.get token = some holder →
      mux.ids.approvals.get token = some holder := by
    intro token holder hget
    rw [hsame] at hget
    change ids.approvals.get token = some holder at hget
    rw [hids] at hget
    exact get_of_remove hget
  rcases hpassed with hsent | hnone
  · refine .inr ⟨happroval, hrequest, ?_, ?_, happrovals, ?_⟩
    · rw [hcarries, hbridge]
    · rw [hcarries, hbridge]
    · intro token generation
      have hplain : ((setField "id" id value).get "method").isNone = true := by
        rw [get_setField_ne hpresent (by decide), hmethod]
        rfl
      have hid : idOf (setField "id" id value) = id := by
        rw [idOf, BridgeState.get_setField hpresent]
        rfl
      rw [show after.2 = _ from hsent, replies]
      apply List.filterMap_cons_some
      dsimp only
      rw [if_pos hplain, hid]
  · refine .inl ⟨?_, ?_, happrovals, hnone⟩
    · intro token entry hget
      rw [hcarries, hbridge] at hget
      exact get_of_remove hget
    · rw [hcarries, hbridge]

/-- The line of a client leaves the requests of the cores or answers one. -/
theorem onClient_cases (mux : Multiplexer) (reads : MultiplexReads)
    (client : Nat) (value : Json) :
    Quiet mux (mux.onClient reads client value).1
        (mux.onClient reads client value).2 ∨
      ∃ plane id, Answers mux (mux.onClient reads client value).1 client value
        (mux.onClient reads client value).2 plane id := by
  rw [onClient]
  split
  · exact .inl (.refl mux fun _ _ => rfl)
  · split
    · exact .inl (.refl mux fun _ _ => rfl)
    · split
      · exact .inl (.refl mux fun _ _ => rfl)
      · rename_i ids translated hrequest
        rw [Ids.request] at hrequest
        split at hrequest
        · rename_i hnone
          rw [Option.isNone_iff_eq_none] at hnone
          split at hrequest
          · rename_i hholder
            have hids : ids.approvals =
                mux.ids.approvals.remove (idOf value) := by
              cases hrequest
              rfl
            have hvalue : translated = value := by
              cases hrequest
              rfl
            have hshrinks := mux.bridge.onClientValue_answer_shrinks
              reads.bridge.print hnone
            rw [hvalue]
            split
            · rename_i bridge error hfailed
              rw [hfailed] at hshrinks
              refine .inl ⟨hshrinks.1, Nat.le_of_eq hshrinks.2.symm, ?_,
                fun _ _ => rfl⟩
              intro token holder hget
              rw [hids] at hget
              exact get_of_remove hget
            · rename_i bridge actions hok
              obtain ⟨plane, id, hasked, hbridge, hactions, hpresent⟩ :=
                onClientValue_answer hnone hok
              rw [hactions, performAll_singleton, perform]
              rcases toChild_answers mux reads hnone hpresent hholder hids
                hasked hbridge with hquiet | hanswers
              · exact .inl hquiet
              · exact .inr ⟨plane, id, hanswers⟩
          · cases hrequest
        · rename_i hsome
          rw [Bool.not_eq_true, ← Option.not_isSome, Bool.not_eq_false']
            at hsome
          have hids : ids.approvals = mux.ids.approvals ∧
              (translated.get "method").isSome = true := by
            split at hrequest
            · cases hrequest
              exact ⟨rfl, hsome⟩
            · rename_i id hid
              cases hrequest
              refine ⟨rfl, ?_⟩
              rw [get_setField_ne (by rw [hid]; rfl) (by decide), hsome]
          have hkeeps := mux.bridge.onClientValue_keepsServerRequests
            reads.bridge.print hids.2
          split
          · rename_i bridge error hfailed
            rw [hfailed] at hkeeps
            refine .inl ⟨?_, hkeeps.next, ?_, fun _ _ => rfl⟩
            · intro token entry hget
              rw [hkeeps.requests] at hget
              exact hget
            · intro token holder hget
              rw [hids.1] at hget
              exact hget
          · rename_i bridge actions hok
            rw [hok] at hkeeps
            have hsent := performAll_forwards reads client
              (onClientValue_forwards hids.2 hok) { mux with ids, bridge }
            have hcarries := (performAll_carries reads client actions
              { mux with ids, bridge }).bridge
            refine .inl ⟨?_, ?_, ?_, hsent.2⟩
            · intro token entry hget
              rw [hcarries, hkeeps.requests] at hget
              exact hget
            · rw [hcarries]
              exact hkeeps.next
            · intro token holder hget
              rw [hsent.1] at hget
              change ids.approvals.get token = some holder at hget
              rw [hids.1] at hget
              exact hget

end Multiplexer

namespace ServerRequestsAgree

theorem client_step {mux : Multiplexer} {history : History}
    (hagree : ServerRequestsAgree mux history) (reads : MultiplexReads)
    (client generation : Nat) (value : Json) :
    ServerRequestsAgree (mux.step reads (.client client value)).1
      (history.record mux ⟨reads, .client client value, generation⟩) := by
  have hgeneration : (history.record mux
      ⟨reads, .client client value, generation⟩).generation =
        history.generation := History.generation_record rfl
  rcases mux.onClient_cases reads client value with
    hquiet | ⟨plane, id, hanswers⟩
  · apply hagree.keep hquiet.requests hquiet.next
    · exact fun token holder _ _ hget _ =>
        ⟨hquiet.approvals token holder hget, congrFun hgeneration holder⟩
    · exact List.append_nil _
    · rw [History.record, History.repliedBy]
      dsimp only
      rw [Multiplexer.step, hquiet.replies, List.append_nil]
  · apply hagree.reply hanswers.approval hanswers.request hanswers.requests
      hanswers.next hanswers.approvals hgeneration (List.append_nil _)
    rw [History.record, History.repliedBy]
    dsimp only
    rw [Multiplexer.step, hanswers.replies]

/-- One event. -/
theorem step {observed : Observed}
    (hagree : ServerRequestsAgree observed.mux observed.history)
    (hnull : observed.mux.ids.requests.get .null = none) {arrival : Arrival}
    (hinorder : observed.InOrder arrival) :
    ServerRequestsAgree (observed.step arrival).mux
      (observed.step arrival).history := by
  obtain ⟨reads, event, generation⟩ := arrival
  have hopen : observed.mux.ids.approvals =
      observed.mux.ids.approvals.retain fun _ holder => holder ∉ [] :=
    (retain_true fun _ _ => rfl).symm
  cases event with
  | client client value => exact hagree.client_step reads client _ value
  | control value => exact hagree.control_step hinorder
  | child client plane value =>
    cases hmethod : value.get "method" with
    | none => exact hagree.child_step_other hnull (.inl hmethod)
    | some method =>
      cases hid : value.get "id" with
      | none => exact hagree.child_step_other hnull (.inr hid)
      | some id =>
        exact hagree.child_step_request (by rw [hmethod]; rfl) hid
          hinorder
  | opened client => exact hagree.quiet_step _ (.refl _) hopen rfl rfl
  | closed client =>
    exact hagree.quiet_step ⟨reads, .closed client, generation⟩ (.refl _)
      (Ids.approvals_foldl_disconnect [client] observed.mux.ids) rfl rfl
  | relayClosed =>
    exact hagree.quiet_step ⟨reads, .relayClosed, generation⟩ (.refl _)
      (Ids.approvals_foldl_disconnect _ observed.mux.ids) rfl rfl
  | exited plane =>
    exact hagree.quiet_step ⟨reads, .exited plane, generation⟩
      (observed.mux.bridge.markChildExited_keepsServerRequests plane) hopen
      rfl rfl
  | socketClosed client plane =>
    have hsame : (observed.mux.onSocketClosed client plane).1.bridge =
          observed.mux.bridge ∧
        (observed.mux.onSocketClosed client plane).1.ids =
          observed.mux.ids := by
      rw [Multiplexer.onSocketClosed]
      split
      · exact ⟨rfl, rfl⟩
      · exact ⟨rfl, rfl⟩
    refine hagree.quiet_step ⟨reads, .socketClosed client plane, generation⟩
      ?_ ?_ rfl rfl
    · rw [Multiplexer.step, hsame.1]
      exact .refl _
    · rw [Multiplexer.step, hsame.2]
      exact hopen

end ServerRequestsAgree

namespace Observed

/-- A line of a core leaves the sockets alone. -/
theorem sockets_onChild (mux : Multiplexer) (reads : MultiplexReads)
    (client : Nat) (plane : ExecutionPlane) (value : Json) :
    (mux.onChild reads client plane value).1.sockets = mux.sockets ∧
      (mux.onChild reads client plane value).1.failedSockets =
        mux.failedSockets := by
  rw [Multiplexer.onChild]
  split
  · exact ⟨rfl, rfl⟩
  · split
    · exact ⟨rfl, rfl⟩
    · rename_i bridge actions hok
      rcases Multiplexer.onChildValue_actions hok with rfl | ⟨sent, rfl, -⟩
      · exact ⟨rfl, rfl⟩
      · rw [Multiplexer.performAll_singleton, Multiplexer.perform,
          Multiplexer.toClient]
        split
        · exact ⟨rfl, rfl⟩
        · exact ⟨rfl, rfl⟩

theorem late_event_vanishes {observed : Observed} {arrival : Arrival}
    (hinorder : observed.InOrder arrival) :
    observed.LateEventVanishes arrival := by
  obtain ⟨reads, event, generation⟩ := arrival
  intro client hlate plane
  obtain ⟨hevent, hearlier⟩ := hlate
  rcases hevent with ⟨core, value, rfl⟩ | ⟨core, rfl⟩
  · have hsame := sockets_onChild observed.mux reads client core value
    rw [Observed.step]
    dsimp only
    rw [Multiplexer.step, hsame.1, hsame.2]
    exact ⟨rfl, rfl⟩
  · have hclosed : observed.mux.clients.contains client = false := by
      cases hopen : observed.mux.clients.contains client with
      | false => rfl
      | true =>
        have hnow : generation = observed.history.generation client :=
          hinorder hopen
        exact absurd hearlier (Nat.not_lt.mpr (Nat.le_of_eq hnow.symm))
    rw [Observed.step]
    dsimp only
    rw [Multiplexer.step, Multiplexer.onSocketClosed, hclosed]
    exact ⟨rfl, rfl⟩

/-- What is claimed of the messages seen so far and of the next event. -/
structure IdentitiesKept (observed : Observed) : Prop where
  responses : observed.history.ResponsesMatch
  replies : observed.history.RepliesMatch

/-- Late events vanish wherever they happen in the run. -/
def LateEventsVanish (observed : Observed) : List Arrival → Prop
  | [] => True
  | arrival :: rest =>
    observed.LateEventVanishes arrival ∧
      (observed.step arrival).LateEventsVanish rest

theorem run_agrees {observed : Observed} {arrivals : List Arrival}
    (hrequests : RequestsAgree observed.mux observed.history)
    (hserver : ServerRequestsAgree observed.mux observed.history)
    (hinorder : observed.AllInOrder arrivals) :
    RequestsAgree (observed.run arrivals).mux
        (observed.run arrivals).history ∧
      ServerRequestsAgree (observed.run arrivals).mux
        (observed.run arrivals).history := by
  induction arrivals generalizing observed with
  | nil => exact ⟨hrequests, hserver⟩
  | cons arrival rest ih =>
    exact ih (hrequests.step hinorder.1)
      (hserver.step hrequests.null_absent hinorder.1) hinorder.2

theorem late_events_vanish {observed : Observed} {arrivals : List Arrival}
    (hinorder : observed.AllInOrder arrivals) :
    observed.LateEventsVanish arrivals := by
  induction arrivals generalizing observed with
  | nil => trivial
  | cons arrival rest ih =>
    exact ⟨late_event_vanishes hinorder.1, ih hinorder.2⟩

/-- Messages keep their identity in every run whose events are in order. -/
theorem identities_kept (store : ThreadRuntimeBindingStore)
    (providers : TrustedProviderSet) (officialDigest enhancedDigest : String)
    (models : TrustedModelProviderMap) (arrivals : List Arrival)
    (hinorder : (Observed.new (.new store providers officialDigest
      enhancedDigest models)).AllInOrder arrivals) :
    ((Observed.new (.new store providers officialDigest enhancedDigest
        models)).run arrivals).IdentitiesKept ∧
      (Observed.new (.new store providers officialDigest enhancedDigest
        models)).LateEventsVanish arrivals := by
  obtain ⟨hrequests, hserver⟩ := run_agrees
    (.new _ (Multiplexer.issued_new store providers officialDigest
      enhancedDigest models)) (.new _ rfl) hinorder
  exact ⟨⟨hrequests.responsesMatch, hserver.repliesMatch⟩,
    late_events_vanish hinorder⟩

namespace ReusedNumber

open BridgeState.OneEnhancedThread ThreadStart

def arrival (event : MultiplexEvent) : Arrival :=
  ⟨allReachable, event, 0⟩

/-- A connection asks, gets its answer and is closed; its number is used
again. -/
def orderly : List Arrival :=
  [arrival (.opened 1),
    arrival (.client 1 (request "initialize" [])),
    arrival (.child 1 .officialCodex (answered "vellum:client:1:0" named)),
    arrival (.closed 1),
    arrival (.opened 1)]

/-- The end of the first connection's socket comes behind the second one. -/
def belated : List Arrival :=
  [arrival (.opened 1),
    arrival (.client 1 (request "initialize" [])),
    arrival (.closed 1),
    arrival (.opened 1),
    arrival (.socketClosed 1 .officialCodex)]

theorem orderly_keeps_identities :
    ((Observed.new state).run orderly).IdentitiesKept ∧
      (Observed.new state).LateEventsVanish orderly := by
  refine identities_kept _ _ _ _ _ orderly ⟨trivial, ?_, ?_, trivial,
    trivial, trivial⟩
  · exact fun hmethod => absurd hmethod (by decide)
  · exact (by decide : Json.str "vellum:client:1:0" ∉ ([] : List Json))

/-- The second connection's socket counts as failed. -/
theorem belated_end_marks_the_next_connection :
    ¬ ∀ (store : ThreadRuntimeBindingStore) (providers : TrustedProviderSet)
      (officialDigest enhancedDigest : String)
      (models : TrustedModelProviderMap) (arrivals : List Arrival),
      ((Observed.new (.new store providers officialDigest enhancedDigest
          models)).run arrivals).IdentitiesKept ∧
        (Observed.new (.new store providers officialDigest enhancedDigest
          models)).LateEventsVanish arrivals := by
  intro hall
  have hlate : (Observed.new state).LateEventsVanish belated :=
    (hall _ _ _ _ _ belated).2
  have hmark := (hlate.2.2.2.2.1 1
    ⟨.inr ⟨.officialCodex, rfl⟩, by decide⟩ .officialCodex).2
  exact absurd hmark (by decide)

end ReusedNumber

end Observed

end Vellum.Enhanced

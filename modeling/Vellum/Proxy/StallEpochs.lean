/-
Stall epochs over a run of requests.  An epoch ends with the first genuine
progress behind a recovery marker; in each epoch there should be one warning
and, when it did not help, one escalation.  Every request rebuilds its state
from the markers and operations of the whole history, and the markers only tell
how many recoveries there were in all, so a later epoch starts where the first
one ended.
-/
import Vellum.Proxy.TaskStall

namespace Vellum.Proxy

open List

/-- An item of the history that no request injected. -/
structure PlainItem where
  id : String := ""
  observation : Option CompletedToolObservation := none
  notMarker : stallMarkerCount id = none

/-- The history as the stall guard reads it. -/
inductive StallItem where
  | marker (count : Nat)
  | plain (item : PlainItem)

namespace StallItem

def id : StallItem → String
  | .marker count => stallMarkerStem ++ toString count
  | .plain item => item.id

def observation : StallItem → Option CompletedToolObservation
  | .marker _ => none
  | .plain item => item.observation

end StallItem

/-- The observation with the place of its item in the history. -/
def CompletedToolObservation.placed (observation : CompletedToolObservation)
    (index : Nat) : CompletedToolObservation :=
  { observation with
    operation := { observation.operation with sourceIndex := index } }

section

variable (sha256Hex : String → String) (policy : TaskStallPolicy)

def foldHistory : TaskStallState → Nat → List StallItem → TaskStallState
  | state, _, [] => state
  | state, index, item :: rest =>
    match item.observation with
    | none => foldHistory state (index + 1) rest
    | some observation =>
      foldHistory
        (reduceTaskStallObservation sha256Hex state
          (observation.placed index) policy).1
        (index + 1) rest

/-- The stall state of a request: from the default state, the markers of the
history and then all its operations. -/
def rebuildStall (history : List StallItem) : TaskStallState :=
  let found := stallRecoveryMarkers (history.map StallItem.id)
  foldHistory sha256Hex policy
    (reconcileStallRecovery (TaskStallState.migrate {}) found.1 found.2) 0 history

/-- The recovery that a request asks for. -/
def stallAction (history : List StallItem) : Option StallRecoveryAction :=
  decideTaskStallRecovery (rebuildStall sha256Hex policy history) policy

/-- The history once the request has injected the marker of its recovery. -/
def injectMarker (history : List StallItem) : List StallItem :=
  match stallAction sha256Hex policy history with
  | none => history
  | some action => history ++ [.marker action.recoveryCount]

/-- The histories that the requests of a run see, each with its own new
items. -/
def stallRequests : List StallItem → List (List PlainItem) →
    List (List StallItem)
  | _, [] => []
  | history, items :: rest =>
    (history ++ items.map .plain) ::
      stallRequests (injectMarker sha256Hex policy
        (history ++ items.map .plain)) rest

/-! What an epoch is. -/

/-- The history read once, from its front: the progress seen so far, the
recoveries of the current epoch and of all epochs, and the results that brought
no progress since the last progress and since the last marker. -/
structure EpochView where
  progress : ProgressView := { tracker := {}, revision := 0, last := none }
  actions : Nat := 0
  markers : Nat := 0
  sinceProgress : Nat := 0
  sinceMarker : Nat := 0

namespace EpochView

/-- The view with its tracker ready for the next observation. -/
def ready (view : EpochView) : ProgressView :=
  { view.progress with
    tracker := view.progress.tracker.setCapacity policy.progressHistoryCapacity
    genuine := false }

def result (view : EpochView) (observation : CompletedToolObservation) :
    EpochView :=
  if policy.mode = .off || !observation.operation.completed then view
  else
    let progress := ProgressView.observe sha256Hex (view.ready policy)
      observation
    if progress.genuine then
      { progress, markers := view.markers }
    else if isStatusPoll observation.operation then { view with progress }
    else
      { view with
        progress
        sinceProgress := view.sinceProgress + 1
        sinceMarker := view.sinceMarker + 1 }

def item (view : EpochView) : StallItem → EpochView
  | .marker _ =>
    { view with
      actions := view.actions + 1
      markers := view.markers + 1
      sinceMarker := 0 }
  | .plain item =>
    match item.observation with
    | none => view
    | some observation => view.result sha256Hex policy observation

end EpochView

def epochView (history : List StallItem) : EpochView :=
  history.foldl (EpochView.item sha256Hex policy) {}

/-- The recovery an epoch calls for: a warning once enough results brought no
progress, an escalation once the patience after it is used up, and then none. -/
def expectedLevel (view : EpochView) : Option StallRecoveryState :=
  if policy.mode ≠ .recover then none
  else
    match view.actions with
    | 0 =>
      if policy.recoveryAfterToolResults.toNat ≤ view.sinceProgress then
        some .warned
      else none
    | 1 =>
      if policy.postRecoveryPatience.toNat ≤ view.sinceMarker then
        some .escalated
      else none
    | _ => none

/-- The request does what the epoch it is in calls for. -/
structure LawfulRequest (history : List StallItem) : Prop where
  level : (rebuildStall sha256Hex policy history).epochRecoveryLevel =
    (epochView sha256Hex policy history).actions
  action : (stallAction sha256Hex policy history).map
      StallRecoveryAction.level =
    expectedLevel policy (epochView sha256Hex policy history)

/-- An epoch with one recovery is the first that has any. -/
def FirstEpoch (history : List StallItem) : Prop :=
  (epochView sha256Hex policy history).actions = 1 →
    (epochView sha256Hex policy history).markers = 1

/-! The rebuilt state against the view. -/

/-- The largest count the state can hold. -/
def counterMax : Nat := 2 ^ 32 - 1

/-- The state has read what the view has read, and knows of this many
recoveries. -/
structure Follows (recoveries : Nat) (state : TaskStallState)
    (view : EpochView) : Prop where
  total : state.recoveryTotal = recoveries
  tracker : state.recentProgress = view.progress.tracker
  revision : state.taskRevision = view.progress.revision
  last : state.lastProgress = view.progress.last
  sinceProgress : state.toolResultsSinceProgress =
    min view.sinceProgress counterMax
  normal : state.Normal

/-- The level that the markers have set, while the operations before the last
marker are folded. -/
structure HeldLevel (limit level : Nat) (state : TaskStallState) : Prop where
  level : state.epochRecoveryLevel = level
  index : state.lastRecoverySourceIndex = some limit
  sinceMarker : state.postRecoveryToolResultsWithoutProgress = 0

/-- The level behind the last marker: it holds until there is progress. -/
structure EpochLevel (limit level : Nat) (state : TaskStallState)
    (view : EpochView) : Prop where
  closed : view.actions = 0 → state.epochRecoveryLevel = 0
  held : view.actions ≠ 0 → state.epochRecoveryLevel = level ∧
    state.lastRecoverySourceIndex = some limit ∧
    state.postRecoveryToolResultsWithoutProgress =
      min view.sinceMarker counterMax

theorem saturatingSucc_min (count : Nat) :
    saturatingSucc 32 (min count counterMax) = min (count + 1) counterMax := by
  rw [saturatingSucc, counterMax]
  omega

section

variable {sha256Hex : String → String} {policy : TaskStallPolicy}
  {state : TaskStallState} {view : EpochView}
  {observation : CompletedToolObservation} {index limit level recoveries : Nat}

theorem isStatusPoll_placed :
    isStatusPoll (observation.placed index).operation =
      isStatusPoll observation.operation := rfl

/-- What an active observation does to a state that follows the view. -/
theorem Follows.reduced (sha256Hex : String → String)
    (hfollows : Follows recoveries state view)
    (hactive : (policy.mode = .off || !observation.operation.completed) =
      false) (index : Nat) :
    Reduced sha256Hex policy state (observation.placed index)
      (reduceTaskStallObservation sha256Hex state (observation.placed index)
        policy).1
      (ProgressView.observe sha256Hex (view.ready policy) observation) := by
  have hplaced : (policy.mode = .off ||
      !(observation.placed index).operation.completed) = false := hactive
  have hreduced :=
    reduced_of_completed sha256Hex hfollows.normal hplaced
  rw [hfollows.tracker, hfollows.revision, hfollows.last] at hreduced
  exact hreduced

theorem EpochView.result_of_active
    (hactive : (policy.mode = .off || !observation.operation.completed) =
      false) {progress : ProgressView}
    (hprogress : ProgressView.observe sha256Hex (view.ready policy)
      observation = progress) :
    view.result sha256Hex policy observation =
      if progress.genuine then { progress, markers := view.markers }
      else if isStatusPoll observation.operation then { view with progress }
      else
        { view with
          progress
          sinceProgress := view.sinceProgress + 1
          sinceMarker := view.sinceMarker + 1 } := by
  rw [EpochView.result, hactive, if_neg Bool.false_ne_true, hprogress]

theorem Follows.result (hfollows : Follows recoveries state view)
    (hactive : (policy.mode = .off || !observation.operation.completed) =
      false) (index : Nat) :
    Follows recoveries
      (reduceTaskStallObservation sha256Hex state (observation.placed index)
        policy).1
      (view.result sha256Hex policy observation) := by
  have hreduced := hfollows.reduced sha256Hex hactive index
  obtain ⟨progress, hprogress⟩ : ∃ progress, ProgressView.observe sha256Hex
      (view.ready policy) observation = progress := ⟨_, rfl⟩
  rw [hprogress] at hreduced
  rw [EpochView.result_of_active hactive hprogress]
  have hsince := hreduced.sinceProgress
  rw [hfollows.sinceProgress, saturatingSucc_min, isStatusPoll_placed]
    at hsince
  split
  · rename_i hgenuine
    rw [if_pos hgenuine] at hsince
    exact ⟨hreduced.total.trans hfollows.total, hreduced.tracker, hreduced.revision, hreduced.last,
      hsince.trans (Nat.zero_min _).symm, hreduced.normal⟩
  · rename_i hgenuine
    rw [if_neg hgenuine] at hsince
    split
    · rename_i hpoll
      rw [if_pos hpoll] at hsince
      exact ⟨hreduced.total.trans hfollows.total, hreduced.tracker, hreduced.revision, hreduced.last, hsince,
        hreduced.normal⟩
    · rename_i hpoll
      rw [if_neg hpoll] at hsince
      exact ⟨hreduced.total.trans hfollows.total, hreduced.tracker, hreduced.revision, hreduced.last, hsince,
        hreduced.normal⟩

/-- No operation before the last marker ends the epoch of that marker. -/
theorem HeldLevel.result (hheld : HeldLevel limit level state)
    (hfollows : Follows recoveries state view)
    (hactive : (policy.mode = .off || !observation.operation.completed) =
      false) (hindex : index ≤ limit) :
    HeldLevel limit level
      (reduceTaskStallObservation sha256Hex state (observation.placed index)
        policy).1 := by
  have hreduced := hfollows.reduced sha256Hex hactive index
  have hclosed : state.postRecoveryEligible
      (observation.placed index).operation.sourceIndex = false := by
    rw [TaskStallState.postRecoveryEligible, hheld.index]
    split
    · rfl
    · exact decide_eq_false (Nat.not_lt.mpr hindex)
  refine ⟨?_, hreduced.index.trans hheld.index, ?_⟩
  · rw [hreduced.level, hclosed, Bool.and_false, if_neg Bool.false_ne_true]
    exact hheld.level
  · rw [hreduced.sinceMarker, hclosed, Bool.and_false,
      if_neg Bool.false_ne_true, hheld.sinceMarker, ite_self]

theorem EpochLevel.result (hepoch : EpochLevel limit level state view)
    (hlevel : level ≠ 0) (hfollows : Follows recoveries state view)
    (hactive : (policy.mode = .off || !observation.operation.completed) =
      false) (hindex : view.actions ≠ 0 → limit < index) :
    EpochLevel limit level
      (reduceTaskStallObservation sha256Hex state (observation.placed index)
        policy).1
      (view.result sha256Hex policy observation) := by
  have hreduced := hfollows.reduced sha256Hex hactive index
  obtain ⟨progress, hprogress⟩ : ∃ progress, ProgressView.observe sha256Hex
      (view.ready policy) observation = progress := ⟨_, rfl⟩
  rw [hprogress] at hreduced
  rw [EpochView.result_of_active hactive hprogress]
  by_cases hactions : view.actions = 0
  · have hzero := hepoch.closed hactions
    have hnext := hreduced.level
    rw [hzero, ite_self] at hnext
    refine ⟨fun _ => hnext, ?_⟩
    intro hopen
    refine absurd ?_ hopen
    split
    · rfl
    · split
      · exact hactions
      · exact hactions
  · obtain ⟨hheld, hmarker, hcount⟩ := hepoch.held hactions
    have hopen : state.postRecoveryEligible
        (observation.placed index).operation.sourceIndex = true := by
      rw [TaskStallState.postRecoveryEligible, hmarker,
        if_neg (by rw [hheld]; exact hlevel)]
      exact decide_eq_true (hindex hactions)
    have hnext := hreduced.level
    have hsince := hreduced.sinceMarker
    rw [hopen, Bool.and_true] at hnext hsince
    split
    · rename_i hgenuine
      rw [if_pos hgenuine] at hnext
      exact ⟨fun _ => hnext, fun hsome => absurd rfl hsome⟩
    · rename_i hgenuine
      rw [if_neg hgenuine] at hnext hsince
      split
      · rename_i hpoll
        rw [isStatusPoll_placed, hpoll] at hsince
        exact ⟨fun hnone => absurd hnone hactions, fun _ =>
          ⟨hnext.trans hheld, hreduced.index.trans hmarker,
            hsince.trans hcount⟩⟩
      · rename_i hpoll
        rw [isStatusPoll_placed, Bool.eq_false_iff.mpr hpoll, hcount,
          saturatingSucc_min] at hsince
        exact ⟨fun hnone => absurd hnone hactions, fun _ =>
          ⟨hnext.trans hheld, hreduced.index.trans hmarker, hsince⟩⟩

/-- An observation that the guard does not count. -/
theorem reduce_of_inactive
    (hactive : ¬ (policy.mode = .off || !observation.operation.completed) =
      false) :
    (reduceTaskStallObservation sha256Hex state (observation.placed index)
      policy).1 = state ∧
    view.result sha256Hex policy observation = view := by
  have htrue := eq_true_of_ne_false hactive
  have hplaced : (policy.mode = .off ||
      !(observation.placed index).operation.completed) = true := htrue
  rw [reduceTaskStallObservation, hplaced, EpochView.result, htrue]
  exact ⟨rfl, rfl⟩

theorem foldHistory_append (state : TaskStallState) (index : Nat)
    (front back : List StallItem) :
    foldHistory sha256Hex policy state index (front ++ back) =
      foldHistory sha256Hex policy
        (foldHistory sha256Hex policy state index front)
        (index + front.length) back := by
  induction front generalizing state index with
  | nil => rfl
  | cons item rest ih =>
    have hlength : index + (item :: rest).length =
        index + 1 + rest.length := by
      rw [length_cons]
      omega
    rw [cons_append, foldHistory, foldHistory, hlength]
    cases item.observation with
    | none => exact ih state (index + 1)
    | some observation => exact ih _ (index + 1)

variable (sha256Hex policy) in
theorem foldHistory_before (items : List StallItem)
    (hheld : HeldLevel limit level state) (hfollows : Follows recoveries state view)
    (hindex : index + items.length ≤ limit) :
    HeldLevel limit level (foldHistory sha256Hex policy state index items) ∧
      Follows recoveries (foldHistory sha256Hex policy state index items)
        (items.foldl (EpochView.item sha256Hex policy) view) := by
  induction items generalizing state view index with
  | nil => exact ⟨hheld, hfollows⟩
  | cons item rest ih =>
    rw [length_cons] at hindex
    have hrest : index + 1 + rest.length ≤ limit := by omega
    rw [foldl_cons]
    cases item with
    | marker count =>
      exact ih hheld ⟨hfollows.total, hfollows.tracker, hfollows.revision, hfollows.last,
        hfollows.sinceProgress, hfollows.normal⟩ hrest
    | plain item =>
      rw [foldHistory, EpochView.item]
      cases hobservation : item.observation with
      | none =>
        simp only [StallItem.observation, hobservation]
        exact ih hheld hfollows hrest
      | some observation =>
        simp only [StallItem.observation, hobservation]
        by_cases hactive : (policy.mode = .off ||
            !observation.operation.completed) = false
        · exact ih (hheld.result hfollows hactive (by omega))
            (hfollows.result hactive index) hrest
        · obtain ⟨hstate, hview⟩ := reduce_of_inactive hactive
          rw [hstate, hview]
          exact ih hheld hfollows hrest

theorem EpochView.result_over (hover : view.actions = 0) :
    (view.result sha256Hex policy observation).actions = 0 := by
  unfold EpochView.result
  dsimp only
  split
  · exact hover
  · split
    · rfl
    · split
      · exact hover
      · exact hover

theorem EpochView.result_markers :
    (view.result sha256Hex policy observation).markers = view.markers := by
  unfold EpochView.result
  dsimp only
  split
  · rfl
  · split
    · rfl
    · split <;> rfl

variable (sha256Hex policy) in
theorem foldHistory_behind (items : List PlainItem) (hlevel : level ≠ 0)
    (hepoch : EpochLevel limit level state view)
    (hfollows : Follows recoveries state view)
    (hindex : view.actions ≠ 0 → limit < index) :
    EpochLevel limit level
        (foldHistory sha256Hex policy state index (items.map .plain))
        ((items.map .plain).foldl (EpochView.item sha256Hex policy) view) ∧
      Follows recoveries (foldHistory sha256Hex policy state index (items.map .plain))
        ((items.map .plain).foldl (EpochView.item sha256Hex policy) view) := by
  induction items generalizing state view index with
  | nil => exact ⟨hepoch, hfollows⟩
  | cons item rest ih =>
    have hnext : view.actions ≠ 0 → limit < index + 1 := fun hopen =>
      Nat.lt_succ_of_lt (hindex hopen)
    rw [map_cons, foldl_cons, foldHistory, EpochView.item]
    cases hobservation : item.observation with
    | none =>
      simp only [StallItem.observation, hobservation]
      exact ih hepoch hfollows hnext
    | some observation =>
      simp only [StallItem.observation, hobservation]
      by_cases hactive : (policy.mode = .off ||
          !observation.operation.completed) = false
      · exact ih (hepoch.result hlevel hfollows hactive hindex)
          (hfollows.result hactive index) fun hopen =>
            hnext fun hzero => hopen (EpochView.result_over hzero)
      · obtain ⟨hstate, hview⟩ := reduce_of_inactive hactive
        rw [hstate, hview]
        exact ih hepoch hfollows hnext

/-! The markers of a run. -/

/-- The history holds `total` markers, the last of them numbered so and found
by the scan. -/
inductive Numbered : List StallItem → Nat → Prop
  | unmarked (items : List PlainItem) : Numbered (items.map .plain) 0
  | marked {front : List StallItem} {total : Nat} (items : List PlainItem)
      (hpositive : total ≠ 0)
      (hscan : stallRecoveryMarkers
          ((front ++ StallItem.marker (min total counterMax) ::
            items.map StallItem.plain).map StallItem.id) =
        (min total counterMax, some front.length)) :
      Numbered (front ++ .marker (min total counterMax) :: items.map .plain)
        total

theorem not_marker_of_plain {items : List PlainItem} :
    ∀ id ∈ (items.map StallItem.plain).map StallItem.id,
      stallMarkerCount id = none := by
  intro id hid
  rw [map_map, mem_map] at hid
  obtain ⟨item, -, rfl⟩ := hid
  exact item.notMarker

theorem stallRecoveryMarkers_append_plain (history : List StallItem)
    (items : List PlainItem) :
    stallRecoveryMarkers
        ((history ++ items.map StallItem.plain).map StallItem.id) =
      stallRecoveryMarkers (history.map StallItem.id) := by
  rw [map_append, stallRecoveryMarkers, scanStallMarkers_append,
    scanStallMarkers_of_none not_marker_of_plain]
  rfl

variable {history : List StallItem} {total : Nat}

theorem Numbered.scan (hnumbered : Numbered history total) :
    (stallRecoveryMarkers (history.map StallItem.id)).1 =
      min total counterMax := by
  cases hnumbered with
  | unmarked items =>
    have happend := stallRecoveryMarkers_append_plain [] items
    rw [nil_append] at happend
    rw [happend]
    rfl
  | marked items hpositive hscan => rw [hscan]

theorem Numbered.append_plain (hnumbered : Numbered history total)
    (items : List PlainItem) :
    Numbered (history ++ items.map .plain) total := by
  cases hnumbered with
  | unmarked earlier =>
    rw [← map_append]
    exact .unmarked (earlier ++ items)
  | @marked front total earlier hpositive hscan =>
    have hjoin : front ++ StallItem.marker (min total counterMax) ::
          earlier.map .plain ++ items.map .plain =
        front ++ StallItem.marker (min total counterMax) ::
          (earlier ++ items).map .plain := by
      rw [append_assoc, cons_append, map_append]
    have hscan' := stallRecoveryMarkers_append_plain
      (front ++ StallItem.marker (min total counterMax) ::
        earlier.map .plain) items
    rw [hscan, hjoin] at hscan'
    rw [hjoin]
    exact .marked (earlier ++ items) hpositive hscan'

theorem Numbered.append_marker (hnumbered : Numbered history total) :
    Numbered (history ++ [.marker (min (total + 1) counterMax)])
      (total + 1) := by
  have hlt : min (total + 1) counterMax < 2 ^ 32 := by
    rw [counterMax]
    omega
  have hscan : stallRecoveryMarkers
      ((history ++ [StallItem.marker (min (total + 1) counterMax)]).map
        StallItem.id) = (min (total + 1) counterMax, some history.length) := by
    have hfound := hnumbered.scan
    rw [stallRecoveryMarkers] at hfound
    rw [map_append, stallRecoveryMarkers, scanStallMarkers_append,
      map_singleton, scanStallMarkers, StallItem.id,
      stallMarkerCount_marker hlt]
    have hle : (scanStallMarkers (0, none) 0 (history.map StallItem.id)).1 ≤
        min (total + 1) counterMax := by
      rw [hfound]
      omega
    simp only [hle, ↓reduceIte, scanStallMarkers, Nat.zero_add,
      length_map]
  exact .marked [] (Nat.succ_ne_zero total) hscan

/-- The state that a request rebuilds: what it counts, and the level, which
only knows how many recoveries there were in all. -/
structure Rebuilt (state : TaskStallState) (view : EpochView) : Prop where
  follows : Follows (min view.markers counterMax) state view
  level : state.epochRecoveryLevel =
    if view.actions = 0 then 0 else min view.markers 2
  sinceMarker : view.actions ≠ 0 →
    state.postRecoveryToolResultsWithoutProgress =
      min view.sinceMarker counterMax

theorem reconcile_default {total : Nat} (hpositive : total ≠ 0)
    (marker : Option Nat) :
    reconcileStallRecovery (TaskStallState.migrate {}) (min total counterMax)
        marker =
      { recoveryTotal := min total counterMax
        epochRecoveryLevel := min total 2
        recoveryState := if 2 ≤ min total 2 then .escalated else .warned
        lastRecoverySourceIndex := marker } := by
  have hdefault : (TaskStallState.migrate {}).migrate = {} := rfl
  have hcount : 0 < min total counterMax := by
    rw [counterMax]
    omega
  have hlevel : min (0 + min (min total counterMax - 0) 2) 2 = min total 2 := by
    rw [counterMax]
    omega
  rw [reconcileStallRecovery, hdefault]
  dsimp only
  rw [if_pos hcount, hlevel]

theorem EpochView.actions_le_item (hle : view.actions ≤ view.markers)
    (item : StallItem) :
    (view.item sha256Hex policy item).actions ≤
      (view.item sha256Hex policy item).markers := by
  cases item with
  | marker count => exact Nat.succ_le_succ hle
  | plain item =>
    rw [EpochView.item]
    split
    · exact hle
    · rename_i observation _
      rw [EpochView.result_markers]
      unfold EpochView.result
      dsimp only
      split
      · exact hle
      · split
        · exact Nat.zero_le _
        · split <;> exact hle

variable (sha256Hex policy) in
theorem actions_le_markers (history : List StallItem) :
    (epochView sha256Hex policy history).actions ≤
      (epochView sha256Hex policy history).markers := by
  induction history using reverseRecOn with
  | nil => exact Nat.le_refl 0
  | append_singleton rest item ih =>
    rw [epochView, foldl_append]
    exact EpochView.actions_le_item ih item

/-- Without a marker, no recovery is counted and no level is held. -/
theorem rebuilt_unmarked {items : List PlainItem}
    (hmarkers : (epochView sha256Hex policy (items.map .plain)).markers = 0) :
    Rebuilt (rebuildStall sha256Hex policy (items.map .plain))
      (epochView sha256Hex policy (items.map .plain)) := by
  have hnone : stallRecoveryMarkers
      ((items.map StallItem.plain).map StallItem.id) = (0, none) :=
    stallRecoveryMarkers_append_plain [] items
  have hstart : EpochLevel 0 1 (TaskStallState.migrate {}) {} :=
    ⟨fun _ => rfl, fun hopen => absurd rfl hopen⟩
  have hread : Follows 0 (TaskStallState.migrate {}) {} :=
    ⟨rfl, rfl, rfl, rfl, rfl, fun _ => rfl⟩
  have hstate : rebuildStall sha256Hex policy (items.map .plain) =
      foldHistory sha256Hex policy (TaskStallState.migrate {}) 0
        (items.map .plain) := by
    rw [rebuildStall, hnone]
    rfl
  have hactions : (epochView sha256Hex policy (items.map .plain)).actions =
      0 := by
    have hle := actions_le_markers sha256Hex policy (items.map .plain)
    omega
  obtain ⟨hepoch, hfollows⟩ := foldHistory_behind sha256Hex policy items
    Nat.one_ne_zero hstart hread fun hopen => absurd rfl hopen
  rw [← epochView, ← hstate] at hepoch hfollows
  refine ⟨?_, ?_, fun hopen => absurd hactions hopen⟩
  · rw [hmarkers]
    exact hfollows
  · rw [if_pos hactions]
    exact hepoch.closed hactions

/-- With markers, the level is their number, until the epoch is over. -/
theorem rebuilt_marked {front : List StallItem} {items : List PlainItem}
    (hpositive : total ≠ 0)
    (hhistory : history = front ++ .marker (min total counterMax) ::
      items.map .plain)
    (hscan : stallRecoveryMarkers (history.map StallItem.id) =
      (min total counterMax, some front.length))
    (hmarkers : (epochView sha256Hex policy history).markers = total) :
    Rebuilt (rebuildStall sha256Hex policy history)
      (epochView sha256Hex policy history) := by
  have hlevel : min total 2 ≠ 0 := by omega
  have hheld : HeldLevel front.length (min total 2)
      (reconcileStallRecovery (TaskStallState.migrate {})
        (min total counterMax) (some front.length)) := by
    rw [reconcile_default hpositive]
    exact ⟨rfl, rfl, rfl⟩
  have hread : Follows (min total counterMax)
      (reconcileStallRecovery (TaskStallState.migrate {})
        (min total counterMax) (some front.length)) {} := by
    rw [reconcile_default hpositive]
    exact ⟨rfl, rfl, rfl, rfl, rfl, fun hzero => absurd hzero hlevel⟩
  obtain ⟨hheld, hread⟩ := foldHistory_before sha256Hex policy front hheld
    hread (Nat.le_of_eq (Nat.zero_add _))
  have hstart : EpochLevel front.length (min total 2)
      (foldHistory sha256Hex policy
        (reconcileStallRecovery (TaskStallState.migrate {})
          (min total counterMax) (some front.length)) 0 front)
      ((epochView sha256Hex policy front).item sha256Hex policy
        (.marker (min total counterMax))) := by
    refine ⟨fun hzero => absurd hzero (Nat.succ_ne_zero _), fun _ => ?_⟩
    exact ⟨hheld.level, hheld.index,
      hheld.sinceMarker.trans (Nat.zero_min _).symm⟩
  have hmarked : Follows (min total counterMax)
      (foldHistory sha256Hex policy
        (reconcileStallRecovery (TaskStallState.migrate {})
          (min total counterMax) (some front.length)) 0 front)
      ((epochView sha256Hex policy front).item sha256Hex policy
        (.marker (min total counterMax))) :=
    ⟨hread.total, hread.tracker, hread.revision, hread.last,
      hread.sinceProgress, hread.normal⟩
  obtain ⟨hepoch, hfollows⟩ := foldHistory_behind sha256Hex policy items
    hlevel hstart hmarked fun _ => Nat.lt_succ_self front.length
  have hstate : rebuildStall sha256Hex policy history =
      foldHistory sha256Hex policy
        (foldHistory sha256Hex policy
          (reconcileStallRecovery (TaskStallState.migrate {})
            (min total counterMax) (some front.length)) 0 front)
        (front.length + 1) (items.map .plain) := by
    rw [rebuildStall, hscan, hhistory, foldHistory_append, foldHistory,
      Nat.zero_add]
    rfl
  have hview : epochView sha256Hex policy history =
      (items.map .plain).foldl (EpochView.item sha256Hex policy)
        ((epochView sha256Hex policy front).item sha256Hex policy
          (.marker (min total counterMax))) := by
    rw [hhistory, epochView, foldl_append, foldl_cons, epochView]
  rw [← hstate, ← hview] at hepoch hfollows
  refine ⟨by rw [hmarkers]; exact hfollows, ?_,
    fun hopen => (hepoch.held hopen).2.2⟩
  by_cases hactions : (epochView sha256Hex policy history).actions = 0
  · rw [if_pos hactions]
    exact hepoch.closed hactions
  · rw [if_neg hactions, hmarkers]
    exact (hepoch.held hactions).1

theorem rebuilt (hnumbered : Numbered history
      (epochView sha256Hex policy history).markers) :
    Rebuilt (rebuildStall sha256Hex policy history)
      (epochView sha256Hex policy history) := by
  generalize htotal : (epochView sha256Hex policy history).markers = total
    at hnumbered
  cases hnumbered with
  | unmarked items => exact rebuilt_unmarked htotal
  | marked items hpositive hscan =>
    exact rebuilt_marked hpositive rfl hscan htotal

/-! Requests of a run. -/

/-- What the view of a run keeps: at most two recoveries in an epoch, and none
before enough results brought no progress. -/
structure Sound (policy : TaskStallPolicy) (view : EpochView) : Prop where
  atMostTwo : view.actions ≤ 2
  stalled : view.actions ≠ 0 →
    policy.recoveryAfterToolResults.toNat ≤ view.sinceProgress

variable (sha256Hex) in
theorem Sound.result (hsound : Sound policy view)
    (observation : CompletedToolObservation) :
    Sound policy (view.result sha256Hex policy observation) := by
  unfold EpochView.result
  dsimp only
  split
  · exact hsound
  · split
    · exact ⟨Nat.zero_le 2, fun hopen => absurd rfl hopen⟩
    · split
      · exact ⟨hsound.atMostTwo, hsound.stalled⟩
      · exact ⟨hsound.atMostTwo, fun hopen =>
          Nat.le_succ_of_le (hsound.stalled hopen)⟩

theorem min_counterMax_lt_iff (count : Nat) (bound : UInt32) :
    min count counterMax < bound.toNat ↔ count < bound.toNat := by
  have hlt := bound.toNat_lt
  rw [counterMax]
  omega

variable (policy) in
/-- The recovery that is decided when the level is the one rebuilt. -/
def decidedLevel (view : EpochView) : Option StallRecoveryState :=
  if policy.mode ≠ .recover then none
  else if view.sinceProgress < policy.recoveryAfterToolResults.toNat then none
  else if view.actions = 0 then some .warned
  else if view.markers = 1 &&
      policy.postRecoveryPatience.toNat ≤ view.sinceMarker then
    some .escalated
  else none

variable (policy) in
/-- The decision on a rebuilt state: its level, and the number it gives the
marker. -/
theorem decide_of_rebuilt (hrebuilt : Rebuilt state view)
    (hmarkers : view.actions ≤ view.markers) :
    (decideTaskStallRecovery state policy).map StallRecoveryAction.level =
        decidedLevel policy view ∧
      ∀ action ∈ decideTaskStallRecovery state policy,
        action.recoveryCount = min (view.markers + 1) counterMax := by
  have hcount : saturatingSucc 32 state.recoveryTotal =
      min (view.markers + 1) counterMax := by
    rw [hrebuilt.follows.total, saturatingSucc_min]
  unfold decideTaskStallRecovery decidedLevel
  rw [hrebuilt.follows.sinceProgress, hrebuilt.level, hcount]
  simp only [StallMode.injectsRecovery, min_counterMax_lt_iff]
  by_cases hmode : policy.mode = .recover
  · by_cases hearly :
        view.sinceProgress < policy.recoveryAfterToolResults.toNat
    · simp [hmode, hearly]
    · by_cases hactions : view.actions = 0
      · simp [hmode, hearly, hactions]
      · have hone : min view.markers 2 ≠ 0 := by omega
        have hfirst : min view.markers 2 = 1 ↔ view.markers = 1 := by omega
        have hpatience : policy.postRecoveryPatience.toNat ≤
              min view.sinceMarker counterMax ↔
            policy.postRecoveryPatience.toNat ≤ view.sinceMarker := by
          rw [← Nat.not_lt, ← Nat.not_lt, min_counterMax_lt_iff]
        rw [hrebuilt.sinceMarker hactions]
        by_cases hlate : view.markers = 1 ∧
            policy.postRecoveryPatience.toNat ≤ view.sinceMarker
        · simp [hmode, hearly, hactions, hpatience, hlate]
        · simp [hmode, hearly, hactions, hone, hfirst, hpatience, hlate]
  · simp [hmode]

theorem sound_of_decided {decided : StallRecoveryState}
    (hdecided : decidedLevel policy view = some decided)
    (hmarkers : view.actions ≤ view.markers) :
    Sound policy
      { view with
        actions := view.actions + 1
        markers := view.markers + 1
        sinceMarker := 0 } := by
  rw [decidedLevel] at hdecided
  split at hdecided
  · cases hdecided
  · split at hdecided
    · cases hdecided
    · rename_i hlate
      refine ⟨?_, fun _ => Nat.not_lt.mp hlate⟩
      split at hdecided
      · rename_i hnone
        change view.actions + 1 ≤ 2
        omega
      · split at hdecided
        · rename_i hone
          rw [Bool.and_eq_true, decide_eq_true_eq] at hone
          change view.actions + 1 ≤ 2
          omega
        · cases hdecided

/-- In the first epoch, or once the epoch has had both recoveries, the decision
is the one called for. -/
theorem decidedLevel_eq_expected (hsound : Sound policy view)
    (hfirst : view.actions = 1 → view.markers = 1)
    (hmarkers : view.actions ≤ view.markers) :
    decidedLevel policy view = expectedLevel policy view := by
  unfold decidedLevel expectedLevel
  by_cases hmode : policy.mode = .recover
  · rw [if_neg (not_not.mpr hmode), if_neg (not_not.mpr hmode)]
    have htwo := hsound.atMostTwo
    rcases hactions : view.actions with _ | _ | _ | more
    · by_cases hearly :
          view.sinceProgress < policy.recoveryAfterToolResults.toNat
      · rw [if_pos hearly]
        simp only [Nat.not_le.mpr hearly, ↓reduceIte]
      · rw [if_neg hearly]
        simp only [Nat.not_lt.mp hearly, ↓reduceIte]
    · have hlate := hsound.stalled (by omega)
      rw [if_neg (Nat.not_lt.mpr hlate), hfirst hactions]
      simp
    · have hlate := hsound.stalled (by omega)
      have hmany : view.markers ≠ 1 := by omega
      rw [if_neg (Nat.not_lt.mpr hlate)]
      simp [hmany]
    · omega
  · rw [if_pos hmode, if_pos hmode]

/-- What a history of a run keeps. -/
structure RunHistory (sha256Hex : String → String) (policy : TaskStallPolicy)
    (history : List StallItem) : Prop where
  numbered : Numbered history (epochView sha256Hex policy history).markers
  sound : Sound policy (epochView sha256Hex policy history)

variable (sha256Hex) in
theorem foldl_plain (items : List PlainItem) (hsound : Sound policy view) :
    Sound policy
        ((items.map .plain).foldl (EpochView.item sha256Hex policy) view) ∧
      ((items.map .plain).foldl (EpochView.item sha256Hex policy)
        view).markers = view.markers := by
  induction items generalizing view with
  | nil => exact ⟨hsound, rfl⟩
  | cons item rest ih =>
    rw [map_cons, foldl_cons, EpochView.item]
    split
    · exact ih hsound
    · rename_i observation _
      obtain ⟨hnext, hmarkers⟩ := ih (hsound.result sha256Hex observation)
      exact ⟨hnext, hmarkers.trans EpochView.result_markers⟩

theorem runHistory_nil : RunHistory sha256Hex policy [] :=
  ⟨.unmarked [], Nat.zero_le 2, fun hopen => absurd rfl hopen⟩

section

variable (hrun : RunHistory sha256Hex policy history)
include hrun

theorem RunHistory.append_plain (items : List PlainItem) :
    RunHistory sha256Hex policy (history ++ items.map .plain) := by
  obtain ⟨hsound, hmarkers⟩ := foldl_plain sha256Hex items hrun.sound
  have hview : epochView sha256Hex policy (history ++ items.map .plain) =
      (items.map .plain).foldl (EpochView.item sha256Hex policy)
        (epochView sha256Hex policy history) := by
    rw [epochView, foldl_append, epochView]
  rw [← hview] at hsound hmarkers
  refine ⟨?_, hsound⟩
  rw [hmarkers]
  exact hrun.numbered.append_plain items

/-- A request that recovers adds one marker to an epoch that called for it. -/
theorem RunHistory.injectMarker :
    RunHistory sha256Hex policy (injectMarker sha256Hex policy history) := by
  obtain ⟨hlevel, hcount⟩ := decide_of_rebuilt policy
    (rebuilt hrun.numbered) (actions_le_markers sha256Hex policy history)
  unfold Proxy.injectMarker
  split
  · exact hrun
  · rename_i action haction
    rw [stallAction] at haction
    have hview : epochView sha256Hex policy
          (history ++ [.marker action.recoveryCount]) =
        { epochView sha256Hex policy history with
          actions := (epochView sha256Hex policy history).actions + 1
          markers := (epochView sha256Hex policy history).markers + 1
          sinceMarker := 0 } := by
      rw [epochView, foldl_append]
      rfl
    refine ⟨?_, ?_⟩
    · rw [hview, hcount action haction]
      exact hrun.numbered.append_marker
    · rw [haction, Option.map_some] at hlevel
      rw [hview]
      exact sound_of_decided hlevel.symm
        (actions_le_markers sha256Hex policy history)

/-- A request of a run does what its epoch calls for exactly when the epoch
is the first one with a recovery, or has had none or both. -/
theorem lawful_iff_firstEpoch :
    LawfulRequest sha256Hex policy history ↔
      FirstEpoch sha256Hex policy history := by
  have hmarkers := actions_le_markers sha256Hex policy history
  have hrebuilt := rebuilt hrun.numbered
  have htwo := hrun.sound.atMostTwo
  constructor
  · intro hlawful hone
    have hlevel := hlawful.level
    rw [hrebuilt.level, if_neg (by omega)] at hlevel
    omega
  · intro hfirst
    refine ⟨?_, ?_⟩
    · rw [hrebuilt.level]
      split
      · omega
      · by_cases hone : (epochView sha256Hex policy history).actions = 1
        · have := hfirst hone
          omega
        · omega
    · rw [stallAction, (decide_of_rebuilt policy hrebuilt hmarkers).1]
      exact decidedLevel_eq_expected hrun.sound hfirst hmarkers

theorem runHistory_of_request {items : List (List PlainItem)}
    {request : List StallItem}
    (hrequest : request ∈ stallRequests sha256Hex policy history items) :
    RunHistory sha256Hex policy request := by
  induction items generalizing history with
  | nil => cases hrequest
  | cons first rest ih =>
    have hnext := hrun.append_plain first
    rcases mem_cons.mp hrequest with rfl | hlater
    · exact hnext
    · exact ih hnext.injectMarker hlater

end

variable (sha256Hex policy) in
/-- Whatever the requests of a task bring, each of them does what its stall
epoch calls for exactly when an epoch with one recovery is the first. -/
theorem request_lawful_iff (items : List (List PlainItem))
    (request : List StallItem)
    (hrequest : request ∈ stallRequests sha256Hex policy [] items) :
    LawfulRequest sha256Hex policy request ↔
      FirstEpoch sha256Hex policy request :=
  lawful_iff_firstEpoch (runHistory_of_request runHistory_nil hrequest)

end

end

/-- A look at a file that brings nothing new, as a request of the user's
instruction of this revision. -/
def idleLook (revision : Nat) : PlainItem where
  observation := some
    { operation :=
        { sourceIndex := 0
          operation := .inspect
          channel := .workspace
          descriptor := "Inspect/Workspace [] cat README.md" }
      userInstructionRevision := revision }
  notMarker := by decide

def stallPolicyRecover : TaskStallPolicy := { mode := .recover }

/-- The digest, as far as these runs ask for it. -/
def revisionDigest (material : String) : String :=
  if material = "rev:1" then
    "sha256:462f61c34629c56fe4abac5d82bd0e834c01c55e7312eb7f41d679cdf4905ae4"
  else material

/-- Five looks without progress, then eight more. -/
def firstEpochRun : List (List PlainItem) :=
  [List.replicate 5 (idleLook 0), List.replicate 8 (idleLook 0)]

theorem second_request_is_lawful :
    ∃ request ∈ stallRequests revisionDigest stallPolicyRecover []
        firstEpochRun,
      (epochView revisionDigest stallPolicyRecover request).actions = 1 ∧
        LawfulRequest revisionDigest stallPolicyRecover request := by
  obtain ⟨request, hmem, hone, hmarkers⟩ :
      ∃ request ∈ stallRequests revisionDigest stallPolicyRecover []
          firstEpochRun,
        (epochView revisionDigest stallPolicyRecover request).actions = 1 ∧
        (epochView revisionDigest stallPolicyRecover request).markers = 1 := by
    decide
  exact ⟨request, hmem, hone, (request_lawful_iff revisionDigest
    stallPolicyRecover firstEpochRun request hmem).mpr fun _ => hmarkers⟩

/-- A second epoch: the user gives a new instruction after the first
recovery. -/
def secondEpochRun : List (List PlainItem) :=
  [List.replicate 5 (idleLook 0),
    idleLook 1 :: List.replicate 5 (idleLook 1),
    List.replicate 8 (idleLook 1)]

/-- The second epoch has had its warning and eight looks since brought
nothing, yet its level is that of an escalation, which never comes. -/
theorem second_epoch_never_escalates :
    ∃ request ∈ stallRequests revisionDigest stallPolicyRecover []
        secondEpochRun,
      (epochView revisionDigest stallPolicyRecover request).actions = 1 ∧
      (rebuildStall revisionDigest stallPolicyRecover
        request).epochRecoveryLevel = 2 ∧
      expectedLevel stallPolicyRecover
        (epochView revisionDigest stallPolicyRecover request) =
          some .escalated ∧
      stallAction revisionDigest stallPolicyRecover request = none := by
  decide +kernel

end Vellum.Proxy

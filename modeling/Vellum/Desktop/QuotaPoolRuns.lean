/-
Runs of the account router.  Whatever the doubles say, a choice that enforces
the budget selects an admitted account, a socket turn in progress keeps its
account, a session is not moved twice within the interval for the sake of the
balance, the maps stay within their limits, and a request is counted at most
once for each time it was placed.
-/
import Vellum.Desktop.QuotaPoolRouter
import Vellum.Library.StepRun

namespace Vellum.Desktop

open List Option KeyedTable

namespace NameMap

variable {α : Type}

variable {map : NameMap α} {name : String} {value : α}

theorem get_eq_some_iff :
    get map name = some value ↔ map.find? name = some (name, value) := by
  rw [get, map_eq_some_iff]
  constructor
  · rintro ⟨⟨found, _⟩, hfind, rfl⟩
    have hname : found = name := key_of_find? hfind
    rw [← hname] at hfind ⊢
    exact hfind
  · exact fun hfind => ⟨_, hfind, rfl⟩

theorem get_put (map : NameMap α) (name other : String) (value : α) :
    get (map.put (name, value)) other =
      if other = name then some value else get map other := by
  rw [get, find?_put]
  split <;> rfl

theorem get_of_erase {erased : String}
    (hget : get (map.erase erased) name = some value) :
    get map name = some value := by
  rw [get, find?_erase] at hget
  split at hget
  · cases hget
  · exact hget

theorem ne_of_erase {erased : String}
    (hget : get (map.erase erased) name = some value) : name ≠ erased := by
  rintro rfl
  rw [get, find?_erase, if_pos rfl] at hget
  cases hget

theorem get_of_makeRoom {limit : Nat} {touched : String × α → Nat}
    {pick : String}
    (hget : get (map.makeRoom limit touched pick) name = some value) :
    get map name = some value :=
  get_eq_some_iff.mpr (find?_of_makeRoom (get_eq_some_iff.mp hget))

theorem get_of_retain {p : String × α → Bool}
    (hget : get (map.retain p) name = some value) :
    get map name = some value := by
  rw [get_eq_some_iff, find?_retain,
    filter_eq_some_iff] at hget
  exact get_eq_some_iff.mpr hget.1

end NameMap

namespace SmartRouter

variable {F : Type} [Float64 F]

/-! The selection. -/

section

variable {n : Nat}

/-- Where the request fits an account, the loop goes from one that it fits only
to another such one. -/
theorem bestOf_admitted {admission : Fin n → Bool} (projected : Fin n → F)
    (hany : anyFits admission = true) {start : Fin n}
    (hstart : admission start = true) :
    admission (bestOf admission projected start) = true := by
  unfold bestOf
  induction List.finRange n generalizing start with
  | nil => exact hstart
  | cons i rest ih =>
    rw [foldl_cons]
    apply ih
    rw [hany]
    cases hfits : admission i with
    | false => exact hstart
    | true =>
      simp only [Bool.not_true, Bool.and_false, Bool.false_eq_true,
        ↓reduceIte]
      split
      · exact hfits
      · exact hstart

theorem minBy_mem {projected : Fin n → F} {list : List (Fin n)} {found : Fin n}
    (hfound : minBy projected list = some found) : found ∈ list := by
  cases list with
  | nil => cases hfound
  | cons i rest =>
    rw [minBy, some.injEq] at hfound
    subst hfound
    induction rest generalizing i with
    | nil => exact mem_singleton_self i
    | cons j rest ih =>
      rw [foldl_cons]
      split
      · exact mem_cons_of_mem i (ih j)
      · rcases mem_cons.mp (ih i) with heq | hmem
        · rw [heq]
          exact mem_cons_self
        · exact mem_cons_of_mem i (mem_cons_of_mem j hmem)

theorem exists_admitted {admission : Fin n → Bool}
    (hany : anyFits admission = true) :
    ∃ i, (List.finRange n).find? admission = some i ∧ admission i = true := by
  obtain ⟨i, hi, hfits⟩ := List.any_eq_true.mp hany
  cases hfind : (List.finRange n).find? admission with
  | none => exact absurd hfits (find?_eq_none.mp hfind i hi)
  | some found => exact ⟨found, rfl, find?_some hfind⟩

end

/-- What the selection promises, whatever the doubles say. -/
structure Selected (candidates : List (Candidate F)) (now : Nat)
    (place : Placement F candidates.length)
    (admission : Fin candidates.length → Bool)
    (selected : Fin candidates.length) : Prop where
  admitted : anyFits admission = true → place.activeSocketTurn = false →
    admission selected = true
  socket : ∀ i, place.activeSocketTurn = true →
    place.socketIncumbent = some i → place.availableIncumbent = some i →
      selected = i
  spaced : ∀ i, place.socketIncumbent = none →
    place.availableIncumbent = some i → admission i = true → selected ≠ i →
      hysteresis candidates now place = true

omit [Float64 F] in
theorem eq_of_incumbent {n : Nat} {place : Placement F n}
    {admission : Fin n → Bool} {i : Fin n}
    (hincumbent : incumbentOf place admission = some i) (j : Fin n)
    (hj : place.availableIncumbent = some j) : i = j := by
  obtain ⟨havailable, -⟩ := filter_eq_some_iff.mp hincumbent
  exact some.inj (havailable.symm.trans hj)

omit [Float64 F] in
/-- An incumbent that may be kept can be selected. -/
theorem Selected.stay {candidates : List (Candidate F)} (now : Nat)
    {place : Placement F candidates.length}
    {admission : Fin candidates.length → Bool} {i : Fin candidates.length}
    (hincumbent : incumbentOf place admission = some i) :
    Selected candidates now place admission i where
  admitted := by
    obtain ⟨-, hkept⟩ := filter_eq_some_iff.mp hincumbent
    intro hany hactive
    simpa [hany, hactive] using hkept
  socket := fun j _ _ hj => eq_of_incumbent hincumbent j hj
  spaced := fun j _ hj _ hne => absurd (eq_of_incumbent hincumbent j hj) hne

variable (hashAccount : String → String) (router : SmartRouter F)
  (candidates : List (Candidate F)) {context : RoutingContext}

theorem select_spec (hne : candidates ≠ [])
    (rates : Fin candidates.length → F × F × Bool)
    (loads : Fin candidates.length → F) (context : RoutingContext) (now : Nat)
    (place : Placement F candidates.length)
    (admission : Fin candidates.length → Bool) :
    Selected candidates now place admission
      (select router candidates hne rates loads context now place
        admission).1 := by
  unfold select
  simp only
  generalize hprojected : (fun i => (loads i +
    if incumbentOf place admission = some i then 0.0 else place.rho) /
      (rates i).1) = projected
  cases hincumbent : incumbentOf place admission with
  | none =>
    simp only [getD_none]
    refine ⟨fun hany _ => ?_, ?_, ?_⟩
    · obtain ⟨i, hfind, hfits⟩ := exists_admitted hany
      rw [hfind, getD_some]
      exact bestOf_admitted projected hany hfits
    · intro i hactive _ havailable
      simp [incumbentOf, havailable, hactive] at hincumbent
    · intro i _ havailable hfits
      simp [incumbentOf, havailable, hfits] at hincumbent
  | some i =>
    have hstay := Selected.stay now hincumbent
    have honly := eq_of_incumbent hincumbent
    have hbest : anyFits admission = true →
        place.activeSocketTurn = false →
          admission (bestOf admission projected i) = true :=
      fun hany hactive =>
        bestOf_admitted projected hany (hstay.admitted hany hactive)
    simp only [getD_some]
    split
    · rename_i hsocket
      split
      · rename_i hmove
        rw [Bool.and_eq_true, Bool.not_eq_true'] at hmove
        split
        · rename_i next hnext
          have hother := (mem_filter.mp (minBy_mem hnext)).2
          rw [Bool.and_eq_true] at hother
          refine ⟨fun _ _ => hother.2, fun j hactive => ?_, fun j hnone => ?_⟩
          · rw [hmove.1] at hactive
            cases hactive
          · rw [hnone] at hsocket
            cases hsocket
        · exact hstay
      · exact hstay
    · -- without the socket's account only an old enough session moves
      rename_i hsocket
      have hmoved : hysteresis candidates now place = true →
          Selected candidates now place admission
            (bestOf admission projected i) := by
        intro hold
        refine ⟨hbest, fun j _ hj havailable => ?_, fun _ _ _ _ _ => hold⟩
        rw [honly j havailable] at hsocket
        exact absurd hj hsocket
      split
      · rename_i hmove
        simp only [Bool.and_eq_true] at hmove
        exact hmoved hmove.1.1.2
      · split
        · rename_i hmove
          simp only [Bool.and_eq_true] at hmove
          exact hmoved hmove.1.2
        · exact hstay

/-! The steps of `choose` and `observe` on the maps. -/

/-- The sessions and the requests are the same. -/
def SameMaps (before after : SmartRouter F) : Prop :=
  after.sessions = before.sessions ∧ after.requests = before.requests

theorem sameMaps_updateQuotaObservation (c : Candidate F) :
    SameMaps router (router.updateQuotaObservation c).1 := by
  unfold updateQuotaObservation
  cases c.fiveHourUsed <;> simp only [Option.elim] <;> split <;>
    exact ⟨rfl, rfl⟩

theorem sameMaps_fairRate (meanRemaining meanFive : F) (now : Nat)
    (router : SmartRouter F) (c : Candidate F) :
    SameMaps router (fairRate meanRemaining meanFive now router c).1 := by
  unfold fairRate
  simp only
  cases c.fiveHourUsed <;> exact sameMaps_updateQuotaObservation router c

theorem sameMaps_foldl_rateNext (meanRemaining meanFive : F) (now : Nat)
    (candidates : List (Candidate F))
    (entry : SmartRouter F × List (F × F × Bool)) :
    SameMaps entry.1
      (candidates.foldl (rateNext meanRemaining meanFive now) entry).1 := by
  induction candidates generalizing entry with
  | nil => exact ⟨rfl, rfl⟩
  | cons c rest ih =>
    have hfirst := sameMaps_fairRate meanRemaining meanFive now entry.1 c
    have hrest := ih (rateNext meanRemaining meanFive now entry c)
    exact ⟨hrest.1.trans hfirst.1, hrest.2.trans hfirst.2⟩

theorem migrated_placedSession {n : Nat} (place : Placement F n)
    (accountId : String) (changed : Bool) (context : RoutingContext)
    (now : Nat) :
    (placedSession place accountId changed context now).migrated =
      if changed then some now else place.previous.bind Session.migrated := by
  unfold placedSession
  cases changed with
  | true => rfl
  | false => cases place.previous <;> rfl

/-- A choice without a session touches no session and no request, save those
it forgets. -/
theorem choose_none (hne : candidates ≠ []) (hkey : context.sessionKey = none)
    (now : Nat) (picks : String × String) :
    SameMaps (router.expire now)
      (choose hashAccount router candidates hne context now picks).1 := by
  unfold choose
  simp only [hkey]
  exact sameMaps_foldl_rateNext _ _ now candidates (router.expire now, [])

/-- What a choice for a session does: over the accounts as rated, the selection
keeps its promises, and the rest is written by `settle`. -/
structure Chosen (hashAccount : String → String) (router : SmartRouter F)
    (candidates : List (Candidate F)) (context : RoutingContext) (key : String)
    (now : Nat) (picks : String × String)
    (result : SmartRouter F × Fin candidates.length × String)
    (priced : SmartRouter F) (admission : Fin candidates.length → Bool) :
    Prop where
  maps : SameMaps (router.expire now) priced
  selected : Selected candidates now
    (placement hashAccount priced candidates context key now) admission
    result.2.1
  written : result.1 = settle
    (priced.withAdmission (placement hashAccount priced candidates context key now)
      admission)
    (placement hashAccount priced candidates context key now)
    candidates[result.2.1].accountId context key now picks

theorem choose_some (hne : candidates ≠ []) {key : String}
    (hkey : context.sessionKey = some key) (now : Nat)
    (picks : String × String) :
    ∃ priced admission, Chosen hashAccount router candidates context key now
      picks (choose hashAccount router candidates hne context now picks) priced
      admission := by
  unfold choose
  simp only [hkey]
  exact ⟨_, _, sameMaps_foldl_rateNext _ _ now candidates
      (router.expire now, []),
    select_spec _ candidates hne _ _ context now _ _, rfl⟩

section Written

variable {hashAccount : String → String} {router priced : SmartRouter F}
  {candidates : List (Candidate F)} {context : RoutingContext} {key : String}
  {now : Nat} {picks : String × String}
  {result : SmartRouter F × Fin candidates.length × String}
  {admission : Fin candidates.length → Bool}

/-- The session is written back with the time of its last move. -/
theorem Chosen.sessions_eq (hchosen : Chosen hashAccount router candidates
      context key now picks result priced admission) :
    ∃ placed : Session F,
      placed.migrated =
        (if ((router.expire now).sessions.get key).any
            (·.accountId ≠ candidates[result.2.1].accountId) then some now
          else ((router.expire now).sessions.get key).bind
            Session.migrated) ∧
      result.1.sessions =
        (((router.expire now).sessions.erase key).makeRoom maxSessions
          (·.2.touched) picks.1).put (key, placed) := by
  rw [← hchosen.maps.1]
  refine ⟨_, migrated_placedSession
    (placement hashAccount priced candidates context key now)
    candidates[result.2.1].accountId
    ((priced.sessions.get key).any
      (·.accountId ≠ candidates[result.2.1].accountId)) context now, ?_⟩
  rw [hchosen.written]
  rfl

theorem Chosen.requests_eq (hchosen : Chosen hashAccount router candidates
      context key now picks result priced admission) :
    result.1.requests =
      if context.requestId = "" then (router.expire now).requests
      else ((router.expire now).requests.makeRoom maxRequests (·.2.touched)
        picks.2).put (context.requestId,
          ⟨key, candidates[result.2.1].accountId, now⟩) := by
  rw [← hchosen.maps.2, hchosen.written]
  rfl

end Written

omit [Float64 F] in
theorem find?_position {candidates : List (Candidate F)} {p : Candidate F → Bool}
    {i : Fin candidates.length} (hfound : position candidates p = some i) :
    p (candidates.get i) = true := by
  simpa using find?_some hfound

omit [Float64 F] in
theorem exists_position {candidates : List (Candidate F)}
    {p : Candidate F → Bool} {c : Candidate F} (hmem : c ∈ candidates)
    (hc : p c = true) : ∃ i, position candidates p = some i := by
  obtain ⟨i, hi, rfl⟩ := getElem_of_mem hmem
  cases hfound : position candidates p with
  | some found => exact ⟨found, rfl⟩
  | none =>
    have hnone := find?_eq_none.mp hfound ⟨i, hi⟩ (mem_finRange _)
    exact absurd hc hnone

/-- What a choice for a session hands back, in terms of the request alone. -/
theorem choose_selected (hashAccount : String → String) (router : SmartRouter F)
    (candidates : List (Candidate F)) (hne : candidates ≠ []) {key : String}
    (hkey : context.sessionKey = some key) (now : Nat)
    (picks : String × String) :
    let result := choose hashAccount router candidates hne context now picks
    (result.1.budgetEnforced = true →
      result.1.lastAdmission[result.2.1.val]? = some true) ∧
    ∀ affinity, context.socketAffinity = some affinity →
      affinity.turnInProgress = true →
      ∀ c ∈ candidates, affinity.accountHash = hashAccount c.accountId →
        affinity.accountHash =
          hashAccount candidates[result.2.1].accountId := by
  obtain ⟨priced, admission, hchosen⟩ :=
    choose_some hashAccount router candidates hne hkey now picks
  intro result
  constructor
  · rw [hchosen.written]
    intro henforced
    have hboth : anyFits admission = true ∧
        (placement hashAccount priced candidates context key
          now).activeSocketTurn = false := by
      simpa [settle, withAdmission] using henforced
    simp [settle, withAdmission, result,
      hchosen.selected.admitted hboth.1 hboth.2]
  · intro affinity haffinity hactive c hmem haccount
    obtain ⟨i, hposition⟩ := exists_position
      (p := fun c => affinity.accountHash = hashAccount c.accountId) hmem
      (by simpa using haccount)
    have hselected : result.2.1 = i := by
      apply hchosen.selected.socket i
      · simp [placement, haffinity, hactive]
      · simp [placement, haffinity, hposition]
      · simp [placement, haffinity, hposition]
    have hthere : affinity.accountHash = hashAccount candidates[i].accountId :=
      by simpa using find?_position hposition
    exact hthere.trans (congrArg
      (fun j : Fin candidates.length => hashAccount candidates[j].accountId)
      hselected.symm)

/-- An `observe` that does not count changes neither the loads nor the
calibrations. -/
theorem observe_of_not_counted (requestId : String) {input cached status : Nat}
    (hskip : ((router.requests.get requestId).isSome &&
      isCounted input status) = false) :
    let next := router.observe requestId input cached status
    next.loads = router.loads ∧ next.calibration = router.calibration ∧
      next.fiveCalibration = router.fiveCalibration := by
  unfold observe
  cases hbinding : router.requests.get requestId with
  | none => exact ⟨rfl, rfl, rfl⟩
  | some binding =>
    rw [hbinding, isSome_some, Bool.true_and] at hskip
    simp [hskip]

/-- What `observe` does to the maps: the binding goes, and at most one session
takes the response in. -/
theorem observe_maps (router : SmartRouter F) (requestId : String)
    (input cached status : Nat) :
    let next := router.observe requestId input cached status
    (router.requests.get requestId = none ∧ next.requests = router.requests ∨
      next.requests = router.requests.erase requestId) ∧
    (next.sessions = router.sessions ∨
      ∃ key session time, router.sessions.get key = some session ∧
        next.sessions = router.sessions.insert key
          (observeSession session input (Nat.min cached input) time)) := by
  unfold observe
  cases hbinding : router.requests.get requestId with
  | none => exact ⟨Or.inl ⟨rfl, rfl⟩, Or.inl rfl⟩
  | some binding =>
    simp only
    split
    · cases hsession : router.sessions.get binding.session with
      | none => exact ⟨Or.inr rfl, Or.inl rfl⟩
      | some session =>
        simp only
        split
        · exact ⟨Or.inr rfl, Or.inr ⟨_, session, _, hsession, rfl⟩⟩
        · exact ⟨Or.inr rfl, Or.inl rfl⟩
    · exact ⟨Or.inr rfl, Or.inl rfl⟩

end SmartRouter

/-! Runs. -/

/-- A change of account by a session.  It was kept if no socket had a say, the
account it left was still a candidate, and the request fitted there. -/
structure Move where
  time : Nat
  kept : Bool

/-- The router with what has happened to it.  A request placed for the `n`-th
time is the `n`-th of its name in `placed`; `counted` names the placements
whose response was counted.  The moves of a session are those since it was
last new. -/
structure RouterRun (F : Type) where
  router : SmartRouter F
  clock : Nat
  placed : List String
  counted : List (String × Nat)
  moves : String → List Move

inductive RouterAction (F : Type)
  | choose (candidates : List (Candidate F)) (context : RoutingContext)
      (now : Nat) (picks : String × String)
  | observe (requestId : String) (input cached status : Nat)

namespace RouterRun

variable {F : Type} [Float64 F]

def start (lambda : F) (placementOnly : Bool) : RouterRun F where
  router := SmartRouter.forReplay lambda placementOnly
  clock := 0
  placed := []
  counted := []
  moves := fun _ => []

/-- The session could have stayed. -/
def isKept (session : Session F) (candidates : List (Candidate F))
    (context : RoutingContext) (next : SmartRouter F) : Bool :=
  context.socketAffinity.isNone &&
    (SmartRouter.position candidates fun c =>
      c.accountId = session.accountId).any fun i =>
        next.lastAdmission[i.val]?.getD false

/-- The moves of a session after a choice for it. -/
def movesAfter (previous : Option (Session F)) (moves : List Move)
    (accountId : String) (now : Nat) (kept : Session F → Bool) : List Move :=
  match previous with
  | none => []
  | some session =>
    if session.accountId = accountId then moves
    else moves ++ [⟨now, kept session⟩]

def afterChoose (hashAccount : String → String) (state : RouterRun F)
    (candidates : List (Candidate F)) (hne : candidates ≠ [])
    (context : RoutingContext) (now : Nat) (picks : String × String) :
    RouterRun F :=
  let result :=
    state.router.choose hashAccount candidates hne context now picks
  match context.sessionKey with
  | none => { state with router := result.1, clock := now }
  | some key =>
    { router := result.1
      clock := now
      placed :=
        if context.requestId = "" then state.placed
        else state.placed ++ [context.requestId]
      counted := state.counted
      moves := Function.update state.moves key
        (movesAfter ((state.router.expire now).sessions.get key)
          (state.moves key) candidates[result.2.1].accountId now
          fun session => isKept session candidates context result.1) }

/-- The response counts for a request that is bound. -/
def isBilled (router : SmartRouter F) (requestId : String)
    (input status : Nat) : Bool :=
  (router.requests.get requestId).isSome && SmartRouter.isCounted input status

def afterObserve (state : RouterRun F) (requestId : String)
    (input cached status : Nat) : RouterRun F :=
  { state with
    router := state.router.observe requestId input cached status
    counted :=
      if isBilled state.router requestId input status then
        (requestId, state.placed.count requestId) :: state.counted
      else state.counted }

/-- `choose` asks for a candidate, and the clock does not go back. -/
def step (hashAccount : String → String) (state : RouterRun F) :
    RouterAction F → Option (RouterRun F)
  | .choose candidates context now picks =>
    if h : candidates ≠ [] ∧ state.clock ≤ now then
      some (state.afterChoose hashAccount candidates h.1 context now picks)
    else none
  | .observe requestId input cached status =>
    some (state.afterObserve requestId input cached status)

/-- A session that could have stayed moves only when its last move is long
enough ago. -/
def Spaced (moves : List Move) : Prop :=
  moves.Pairwise fun earlier later => later.kept = true →
    earlier.time + migrationIntervalMs ≤ later.time

/-- Every counted response belongs to a placement of its own, and a request
that is bound has one whose response is still to come. -/
structure Credited (requests : NameMap RequestBinding) (placed : List String)
    (counted : List (String × Nat)) : Prop where
  nodup : counted.Nodup
  placement : ∀ requestId n, (requestId, n) ∈ counted →
    0 < n ∧ n ≤ placed.count requestId
  open_bindings : ∀ requestId binding,
    requests.get requestId = some binding →
      0 < placed.count requestId ∧
        (requestId, placed.count requestId) ∉ counted

/-- The moves of a session end with the one its entry knows of. -/
structure Recorded (sessions : NameMap (Session F)) (clock : Nat)
    (moves : String → List Move) : Prop where
  known : ∀ key session, sessions.get key = some session →
    ∀ move ∈ moves key, ∃ t, session.migrated = some t ∧ move.time ≤ t
  past : ∀ key, ∀ move ∈ moves key, move.time ≤ clock
  spaced : ∀ key, Spaced (moves key)

/-- What every run keeps. -/
structure Sound (state : RouterRun F) : Prop where
  sessions_le : state.router.sessions.rows.length ≤ maxSessions
  requests_le : state.router.requests.rows.length ≤ maxRequests
  credited : Credited state.router.requests state.placed state.counted
  recorded : Recorded state.router.sessions state.clock state.moves

omit [Float64 F] in
theorem sound_start (lambda : F) (placementOnly : Bool) :
    (start lambda placementOnly).Sound where
  sessions_le := Nat.zero_le _
  requests_le := Nat.zero_le _
  credited := ⟨nodup_nil, fun _ _ hmem => absurd hmem not_mem_nil,
    (by rintro _ _ ⟨⟩)⟩
  recorded := ⟨by rintro _ _ ⟨⟩,
    fun _ _ hmem => absurd hmem not_mem_nil, fun _ => List.Pairwise.nil⟩

/-! Requests. -/

variable {requests : NameMap RequestBinding} {state : RouterRun F}
  {hashAccount : String → String} {placed : List String}
  {counted : List (String × Nat)} {now : Nat} {key : String}

theorem Credited.mono {fewer : NameMap RequestBinding}
    (hcredited : Credited requests placed counted)
    (hfewer : ∀ {requestId binding}, fewer.get requestId = some binding →
      requests.get requestId = some binding) :
    Credited fewer placed counted where
  nodup := hcredited.nodup
  placement := hcredited.placement
  open_bindings := fun requestId binding hget =>
    hcredited.open_bindings requestId binding (hfewer hget)

/-- The response to a bound request is counted, and the binding goes. -/
theorem Credited.count (hcredited : Credited requests placed counted)
    {requestId : String} {binding : RequestBinding}
    (hbinding : requests.get requestId = some binding) :
    Credited (requests.erase requestId) placed
      ((requestId, placed.count requestId) :: counted) := by
  obtain ⟨hpos, hfresh⟩ :=
    hcredited.open_bindings requestId binding hbinding
  refine ⟨nodup_cons.mpr ⟨hfresh, hcredited.nodup⟩, ?_, ?_⟩
  · intro other n hmem
    rcases mem_cons.mp hmem with heq | hold
    · obtain ⟨rfl, rfl⟩ := Prod.mk.inj heq
      exact ⟨hpos, Nat.le_refl _⟩
    · exact hcredited.placement other n hold
  · intro other still hget
    obtain ⟨hother, hunused⟩ :=
      hcredited.open_bindings other still (NameMap.get_of_erase hget)
    refine ⟨hother, fun hmem => ?_⟩
    rcases mem_cons.mp hmem with heq | hold
    · exact NameMap.ne_of_erase hget (Prod.mk.inj heq).1
    · exact hunused hold

/-- A placement of a request takes the place of what was bound to its name. -/
theorem Credited.place (hcredited : Credited requests placed counted)
    (requestId : String) (binding : RequestBinding) :
    Credited (requests.put (requestId, binding)) (placed ++ [requestId])
      counted := by
  have hgrows : ∀ other,
      placed.count other ≤ (placed ++ [requestId]).count other :=
    fun other => (sublist_append_left _ _).count_le other
  have hself : (placed ++ [requestId]).count requestId =
      placed.count requestId + 1 := by
    rw [count_append, count_singleton_self]
  refine ⟨hcredited.nodup, fun other n hmem => ?_, fun other bound hget => ?_⟩
  · have hold := hcredited.placement other n hmem
    exact ⟨hold.1, Nat.le_trans hold.2 (hgrows other)⟩
  · rw [NameMap.get_put] at hget
    split at hget
    · rename_i hsame
      subst hsame
      rw [hself]
      refine ⟨Nat.succ_pos _, fun hmem => ?_⟩
      exact absurd (hcredited.placement other _ hmem).2 (Nat.not_succ_le_self _)
    · rename_i hother
      have hcount : (placed ++ [requestId]).count other =
          placed.count other := by
        rw [count_append, count_singleton,
          if_neg (by simpa using Ne.symm hother), Nat.add_zero]
      rw [hcount]
      exact hcredited.open_bindings other bound hget

/-! Sessions. -/

omit [Float64 F] in
/-- Sessions may go, and may change in what is not their last move. -/
theorem Recorded.mono {sessions fewer : NameMap (Session F)} {clock : Nat}
    {moves : String → List Move} (hrecorded : Recorded sessions clock moves)
    (hclock : clock ≤ now)
    (hfewer : ∀ {key session}, fewer.get key = some session →
      ∃ old, sessions.get key = some old ∧
        old.migrated = session.migrated) :
    Recorded fewer now moves where
  known := by
    intro key session hget move hmove
    obtain ⟨old, hold, hmigrated⟩ := hfewer hget
    rw [← hmigrated]
    exact hrecorded.known key old hold move hmove
  past := fun key move hmove =>
    Nat.le_trans (hrecorded.past key move hmove) hclock
  spaced := hrecorded.spaced

omit [Float64 F] in
theorem movesAfter_spec {previous : Option (Session F)} {moves : List Move}
    {accountId : String} {kept : Session F → Bool} {migrated : Option Nat}
    (hknown : ∀ session, previous = some session →
      ∀ move ∈ moves, ∃ t, session.migrated = some t ∧ move.time ≤ t)
    (hpast : ∀ move ∈ moves, move.time ≤ now) (hspaced : Spaced moves)
    (hmigrated : migrated =
      if previous.any (·.accountId ≠ accountId) then some now
      else previous.bind Session.migrated)
    (hkept : ∀ session t, previous = some session →
      session.accountId ≠ accountId → kept session = true →
      session.migrated = some t → migrationIntervalMs ≤ now - t) :
    (∀ move ∈ movesAfter previous moves accountId now kept,
      move.time ≤ now ∧ ∃ t, migrated = some t ∧ move.time ≤ t) ∧
    Spaced (movesAfter previous moves accountId now kept) := by
  cases hsession : previous with
  | none =>
    exact ⟨fun _ hmem => absurd hmem not_mem_nil, List.Pairwise.nil⟩
  | some session =>
    have hknown := hknown session hsession
    rw [hsession, any_some, bind_some] at hmigrated
    rw [movesAfter]
    by_cases hstays : session.accountId = accountId
    · rw [if_pos hstays]
      rw [if_neg (by simp [hstays])] at hmigrated
      rw [hmigrated]
      exact ⟨fun move hmove => ⟨hpast move hmove, hknown move hmove⟩, hspaced⟩
    · rw [if_neg hstays]
      rw [if_pos (by simp [hstays])] at hmigrated
      rw [hmigrated]
      constructor
      · intro move hmove
        have htime : move.time ≤ now := by
          rcases mem_append.mp hmove with hold | hnew
          · exact hpast move hold
          · rw [mem_singleton.mp hnew]
        exact ⟨htime, now, rfl, htime⟩
      · refine pairwise_append.mpr ⟨hspaced,
          pairwise_singleton _ _, fun earlier hearlier later hlater => ?_⟩
        rw [mem_singleton.mp hlater]
        intro hcould
        -- the last move is no later than the entry says
        obtain ⟨t, ht, hle⟩ := hknown earlier hearlier
        have hinterval := hkept session t hsession hstays hcould ht
        have hpos : 0 < migrationIntervalMs := by decide
        simp only
        omega

omit [Float64 F] in
/-- The session of a choice is written back, its moves with it. -/
theorem Recorded.place {sessions fewer : NameMap (Session F)} {clock : Nat}
    {moves : String → List Move} (hrecorded : Recorded sessions clock moves)
    (hclock : clock ≤ now)
    (hfewer : ∀ {other session}, fewer.get other = some session →
      sessions.get other = some session) {accountId : String}
    {previous : Option (Session F)}
    (hprevious : ∀ session, previous = some session →
      sessions.get key = some session) {placed : Session F}
    (hmigrated : placed.migrated =
      if previous.any (·.accountId ≠ accountId) then some now
      else previous.bind Session.migrated) {kept : Session F → Bool}
    (hkept : ∀ session t, previous = some session →
      session.accountId ≠ accountId → kept session = true →
      session.migrated = some t → migrationIntervalMs ≤ now - t) :
    Recorded (fewer.put (key, placed)) now
      (Function.update moves key
        (movesAfter previous (moves key) accountId now kept)) := by
  have hpast : ∀ other, ∀ move ∈ moves other, move.time ≤ now :=
    fun other move hmove =>
      Nat.le_trans (hrecorded.past other move hmove) hclock
  have hkey := movesAfter_spec
    (fun session hsession =>
      hrecorded.known key session (hprevious session hsession))
    (hpast key) (hrecorded.spaced key) hmigrated hkept
  refine ⟨fun other session hget => ?_, fun other => ?_, fun other => ?_⟩
  · rw [NameMap.get_put] at hget
    split at hget
    · rename_i hsame
      subst hsame
      cases hget
      rw [Function.update_self]
      exact fun move hmove => (hkey.1 move hmove).2
    · rename_i hother
      rw [Function.update_of_ne hother]
      exact hrecorded.known other session (hfewer hget)
  · by_cases hsame : other = key
    · subst hsame
      rw [Function.update_self]
      exact fun move hmove => (hkey.1 move hmove).1
    · rw [Function.update_of_ne hsame]
      exact hpast other
  · by_cases hsame : other = key
    · subst hsame
      rw [Function.update_self]
      exact hkey.2
    · rw [Function.update_of_ne hsame]
      exact hrecorded.spaced other

/-- A session that could have stayed has been with its account for the
interval. -/
theorem interval_of_kept {router priced : SmartRouter F}
    {candidates : List (Candidate F)} {context : RoutingContext}
    {picks : String × String}
    {result : SmartRouter F × Fin candidates.length × String}
    {admission : Fin candidates.length → Bool}
    (hchosen : SmartRouter.Chosen hashAccount router candidates context key now
      picks result priced admission) {session : Session F}
    (hprevious : (router.expire now).sessions.get key = some session)
    (hmoved : session.accountId ≠ candidates[result.2.1].accountId)
    (hkept : isKept session candidates context result.1 = true) {t : Nat}
    (hmigrated : session.migrated = some t) :
    migrationIntervalMs ≤ now - t := by
  rw [isKept, Bool.and_eq_true, isNone_iff_eq_none,
    Option.any_eq_true] at hkept
  obtain ⟨hsocket, i, hposition, hadmitted⟩ := hkept
  have hfits : admission i = true := by
    rw [hchosen.written] at hadmitted
    simpa [SmartRouter.settle, SmartRouter.withAdmission] using hadmitted
  have hprevious : priced.sessions.get key = some session := by
    rw [hchosen.maps.1]
    exact hprevious
  have haccount : candidates[i].accountId = session.accountId := by
    simpa using SmartRouter.find?_position hposition
  have hold := hchosen.selected.spaced i
    (by simp [SmartRouter.placement, hsocket])
    (by simp [SmartRouter.placement, hsocket, hprevious, hposition]) hfits
    (fun heq => hmoved (haccount.symm.trans (congrArg
      (fun j : Fin candidates.length => candidates[j].accountId) heq.symm)))
  simpa [SmartRouter.hysteresis, SmartRouter.placement, hprevious,
    hmigrated] using hold

omit [Float64 F] in
theorem expire_sessions_le (router : SmartRouter F) (now : Nat) :
    (router.expire now).sessions.rows.length ≤ router.sessions.rows.length :=
  length_retain_le _ _

omit [Float64 F] in
theorem expire_requests_le (router : SmartRouter F) (now : Nat) :
    (router.expire now).requests.rows.length ≤ router.requests.rows.length :=
  length_retain_le _ _

omit [Float64 F] in
/-- A choice without a session. -/
theorem Sound.forget (hsound : state.Sound) {router : SmartRouter F}
    (hclock : state.clock ≤ now)
    (hmaps : SmartRouter.SameMaps (state.router.expire now) router) :
    Sound { state with router := router, clock := now } where
  sessions_le := by
    rw [hmaps.1]
    exact Nat.le_trans (expire_sessions_le _ now) hsound.sessions_le
  requests_le := by
    rw [hmaps.2]
    exact Nat.le_trans (expire_requests_le _ now) hsound.requests_le
  credited := by
    rw [hmaps.2]
    exact hsound.credited.mono NameMap.get_of_retain
  recorded := by
    rw [hmaps.1]
    exact hsound.recorded.mono hclock fun hget =>
      ⟨_, NameMap.get_of_retain hget, rfl⟩

/-- A response. -/
theorem Sound.afterObserve (hsound : state.Sound) (requestId : String)
    (input cached status : Nat) :
    (state.afterObserve requestId input cached status).Sound := by
  obtain ⟨hrequests, hsessions⟩ :=
    state.router.observe_maps requestId input cached status
  unfold RouterRun.afterObserve
  refine ⟨?_, ?_, ?_, ?_⟩
  · rcases hsessions with heq | ⟨key, session, time, hget, heq⟩
    · rw [heq]
      exact hsound.sessions_le
    · rw [heq, NameMap.insert, length_put_of_find?
        (NameMap.get_eq_some_iff.mp hget)]
      exact hsound.sessions_le
  · rcases hrequests with ⟨_, heq⟩ | heq
    · rw [heq]
      exact hsound.requests_le
    · rw [heq]
      exact Nat.le_trans (length_erase_le _ _) hsound.requests_le
  · rcases hrequests with ⟨hnone, heq⟩ | heq
    · rw [heq]
      simp only [isBilled, hnone, isSome_none, Bool.false_and,
        Bool.false_eq_true, ↓reduceIte]
      exact hsound.credited
    · rw [heq]
      simp only
      split
      · rename_i hbilled
        rw [isBilled, Bool.and_eq_true, isSome_iff_exists] at hbilled
        obtain ⟨⟨binding, hbinding⟩, _⟩ := hbilled
        exact hsound.credited.count hbinding
      · exact hsound.credited.mono NameMap.get_of_erase
  · refine hsound.recorded.mono (Nat.le_refl _) fun {key session} hget => ?_
    rcases hsessions with heq | ⟨answered, old, time, hold, heq⟩
    · rw [heq] at hget
      exact ⟨session, hget, rfl⟩
    · rw [heq, NameMap.insert, NameMap.get_put] at hget
      split at hget
      · rename_i hkey
        subst hkey
        cases hget
        exact ⟨old, hold, rfl⟩
      · exact ⟨session, hget, rfl⟩

/-- A choice for a session. -/
theorem Sound.place (hsound : state.Sound) {candidates : List (Candidate F)}
    {context : RoutingContext} {picks : String × String}
    {result : SmartRouter F × Fin candidates.length × String}
    {priced : SmartRouter F} {admission : Fin candidates.length → Bool}
    (hclock : state.clock ≤ now)
    (hchosen : SmartRouter.Chosen hashAccount state.router candidates context
      key now picks result priced admission) :
    Sound
      { router := result.1
        clock := now
        placed :=
          if context.requestId = "" then state.placed
          else state.placed ++ [context.requestId]
        counted := state.counted
        moves := Function.update state.moves key
          (movesAfter ((state.router.expire now).sessions.get key)
            (state.moves key) candidates[result.2.1].accountId now
            fun session => isKept session candidates context result.1) } := by
  obtain ⟨stored, hmigrated, hsessions⟩ := hchosen.sessions_eq
  have hrequests := hchosen.requests_eq
  have hexpired := Nat.le_trans (expire_requests_le state.router now)
    hsound.requests_le
  have hcredited := hsound.credited.mono fun {requestId binding}
    (hget : (state.router.expire now).requests.get requestId = some binding) =>
      NameMap.get_of_retain hget
  refine ⟨?_, ?_, ?_, ?_⟩
  · rw [hsessions]
    apply length_put_makeRoom_le (by decide)
    refine Nat.le_trans (length_erase_le _ _) ?_
    exact Nat.le_trans (expire_sessions_le _ now) hsound.sessions_le
  · rw [hrequests]
    split
    · exact hexpired
    · exact length_put_makeRoom_le (by decide) _ _ hexpired _
  · rw [hrequests]
    simp only
    split
    · exact hcredited
    · exact (hcredited.mono NameMap.get_of_makeRoom).place _ _
  · rw [hsessions]
    apply hsound.recorded.place hclock ?_ ?_ hmigrated
    · intro session t hsession hmoved hkept
      exact interval_of_kept hchosen hsession hmoved hkept
    · intro other session hget
      exact NameMap.get_of_retain
        (NameMap.get_of_erase (NameMap.get_of_makeRoom hget))
    · intro session hsession
      exact NameMap.get_of_retain hsession

theorem Sound.afterChoose (hsound : state.Sound) (hashAccount : String → String)
    (candidates : List (Candidate F)) (hne : candidates ≠ [])
    (context : RoutingContext) (hclock : state.clock ≤ now)
    (picks : String × String) :
    (state.afterChoose hashAccount candidates hne context now picks).Sound := by
  unfold RouterRun.afterChoose
  cases hkey : context.sessionKey with
  | none =>
    exact hsound.forget hclock
      (state.router.choose_none hashAccount candidates hne hkey now picks)
  | some key =>
    obtain ⟨priced, admission, hchosen⟩ := SmartRouter.choose_some
      hashAccount state.router candidates hne hkey now picks
    exact hsound.place hclock hchosen

theorem sound_run {actions : List (RouterAction F)} {finish : RouterRun F}
    (hsound : state.Sound)
    (hrun : runActions (step hashAccount) state actions = some finish) :
    finish.Sound := by
  induction actions generalizing state with
  | nil =>
    rw [runActions, some.injEq] at hrun
    rwa [← hrun]
  | cons action rest ih =>
    rw [runActions, bind_eq_some_iff] at hrun
    obtain ⟨next, hstep, hrest⟩ := hrun
    refine ih ?_ hrest
    cases action with
    | choose candidates context now picks =>
      rw [step] at hstep
      split at hstep
      · rename_i henabled
        cases hstep
        exact hsound.afterChoose hashAccount candidates henabled.1 context
          henabled.2 picks
      · cases hstep
    | observe requestId input cached status =>
      cases hstep
      exact hsound.afterObserve requestId input cached status

/-- What holds of the router after any run of choices and responses. -/
theorem choices_keep_their_word (hashAccount : String → String) (lambda : F)
    (placementOnly : Bool) {actions : List (RouterAction F)}
    {state : RouterRun F}
    (hrun : runActions (step hashAccount) (start lambda placementOnly) actions =
      some state) :
    -- the next choice for a session
    (∀ (candidates : List (Candidate F)) (hne : candidates ≠ [])
        (context : RoutingContext) (now : Nat) (picks : String × String),
      context.sessionKey.isSome = true → state.clock ≤ now →
      let result :=
        state.router.choose hashAccount candidates hne context now picks
      (result.1.budgetEnforced = true →
        result.1.lastAdmission[result.2.1.val]? = some true) ∧
      ∀ affinity, context.socketAffinity = some affinity →
        affinity.turnInProgress = true →
        ∀ c ∈ candidates, affinity.accountHash = hashAccount c.accountId →
          affinity.accountHash =
            hashAccount (candidates.get result.2.1).accountId) ∧
    -- the moves of the sessions
    (∀ key, Spaced (state.moves key)) ∧
    -- the maps
    state.router.sessions.rows.length ≤ maxSessions ∧
    state.router.requests.rows.length ≤ maxRequests ∧
    -- the responses that were counted, and those that are not
    state.counted.Nodup ∧
    (∀ requestId n, (requestId, n) ∈ state.counted →
      0 < n ∧ n ≤ state.placed.count requestId) ∧
    ∀ requestId input cached status,
      isBilled state.router requestId input status = false →
      let next := state.router.observe requestId input cached status
      next.loads = state.router.loads ∧
        next.calibration = state.router.calibration ∧
        next.fiveCalibration = state.router.fiveCalibration := by
  have hsound := sound_run (sound_start lambda placementOnly) hrun
  refine ⟨fun candidates hne context now picks hkey _ => ?_,
    hsound.recorded.spaced, hsound.sessions_le, hsound.requests_le,
    hsound.credited.nodup, hsound.credited.placement,
    fun requestId input cached status hskip =>
      state.router.observe_of_not_counted requestId hskip⟩
  obtain ⟨key, hkey⟩ := isSome_iff_exists.mp hkey
  exact state.router.choose_selected hashAccount candidates hne hkey now picks

/-- A request is placed, and its response counted, on the doubles. -/
def answeredRequest : List (RouterAction Float) :=
  [ .choose
      [⟨"weekly", 50.0, 1.0, none, none, some 40.0, none, some 10.0, none⟩,
        ⟨"spent", 20.0, 1.0, some "pro", some 80.0, none, none, none, none⟩]
      ⟨none, some "thread", some "window", "request", 1000⟩ 5 ("", ""),
    .observe "request" 1200 900 200 ]

theorem answered_request_counted_once :
    ∃ state : RouterRun Float,
      runActions (step id) (start 0.2 false) answeredRequest = some state ∧
      state.counted = [("request", 1)] ∧ state.counted.Nodup ∧
      state.router.sessions.rows.length ≤ maxSessions ∧
      Spaced (state.moves "thread") := by
  have hcounted : (runActions (step id) (start 0.2 false)
      answeredRequest).map RouterRun.counted = some [("request", 1)] := by
    decide
  obtain ⟨state, hrun, hstate⟩ := map_eq_some_iff.mp hcounted
  have hword := choices_keep_their_word id 0.2 false hrun
  exact ⟨state, hrun, hstate, hword.2.2.2.2.1, hword.2.2.1,
    hword.2.1 "thread"⟩

end RouterRun

end Vellum.Desktop

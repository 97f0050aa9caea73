/-
The router over a pool of accounts (`quota_pool_router.rs`).  A session stays
with its account for the sake of the account's cache and moves when the budget
or the balance of the pool asks for it.  Every number of the balance is a
double, so the model takes the operations on doubles as given, and what is
proved of it holds whatever they compute.
-/
import Vellum.Library.Eviction
import Vellum.Library.Text

namespace Vellum.Desktop

/-- The operations on `f64` that the router uses. -/
class Float64 (F : Type) extends Add F, Sub F, Mul F, Div F, Neg F,
    OfScientific F where
  ofNat : Nat → F
  exp : F → F
  fmax : F → F → F
  fmin : F → F → F
  eq : F → F → Bool
  lt : F → F → Bool
  le : F → F → Bool
  totalCmp : F → F → Ordering
  infinity : F
  ln2 : F

/-- The place of a double in the order of `total_cmp`: by its bits, where those
of a negative one count backwards. -/
def totalRank (value : Float) : Nat :=
  let bits := value.toBits.toNat
  if 2 ^ 63 ≤ bits then 2 ^ 64 - 1 - bits else bits + 2 ^ 63

/-- The doubles themselves.  `max` and `min` pass over what is not a number. -/
instance : Float64 Float where
  ofNat := Float.ofNat
  exp := Float.exp
  fmax left right :=
    if left.isNaN then right
    else if right.isNaN || decide (right ≤ left) then left
    else right
  fmin left right :=
    if left.isNaN then right
    else if right.isNaN || decide (left ≤ right) then left
    else right
  eq left right := left == right
  lt left right := left < right
  le left right := left ≤ right
  totalCmp left right := compare (totalRank left) (totalRank right)
  infinity := 1.0 / 0.0
  ln2 := 0.693147180559945309417232121458

open Float64

def idleMs : Nat := 24 * 60 * 60 * 1000

def maxSessions : Nat := 1024

def maxRequests : Nat := 4096

def migrationIntervalMs : Nat := 30 * 60 * 1000

def resetJitterMs : Nat := 10 * 60 * 1000

section Constants

variable (F : Type) [Float64 F]

def halfLifeSeconds : F := 1200.0

def decay : F := ln2 / halfLifeSeconds F

def cachedTokenWeight : F := 0.1

def priorTokensPerPoint : F := 10000.0

def balanceHorizonSeconds : F := 6.0 * 3600.0

def fiveHourCapacityRatio : F := 1.0 / 12.0

def fiveHourBalanceSeconds : F := 3600.0

def recoveryFiveHourShare : F := 0.5

def defaultLambda : F := 0.2

end Constants

structure Candidate (F : Type) where
  accountId : String
  headroom : F
  capacityPrior : F
  planType : Option String
  weeklyUsed : Option F
  weeklyHeadroom : Option F
  weeklyResetAt : Option Nat
  fiveHourUsed : Option F
  fiveHourResetAt : Option Nat

structure OfficialSocketAffinity where
  accountHash : String
  turnInProgress : Bool

/-- What a request says about itself (`OfficialRoutingContext`). -/
structure RoutingContext where
  socketAffinity : Option OfficialSocketAffinity
  sessionKey : Option String
  contextWindowKey : Option String
  requestId : String
  estimatedInputTokens : Nat

structure Calibration (F : Type) where
  anchorUsed : Option F
  tokensSince : F
  tokensPerPoint : Option F
  externalPoints : F
  lowSamples : List (F × F)
  resetAt : Option Nat

structure Rate (F : Type) where
  value : F
  since : Nat

structure Session (F : Type) where
  accountId : String
  window : Option String
  tokens : Nat
  rate : Rate F
  measured : Rate F
  started : Nat
  touched : Nat
  migrated : Option Nat
  review : Bool
  observations : Nat
  latestRequest : String
  cachedFraction : F

structure RequestBinding where
  session : String
  accountId : String
  touched : Nat

/-- A hash map from names. -/
abbrev NameMap (α : Type) := KeyedTable (Prod.fst : String × α → String)

namespace NameMap

variable {α : Type}

def get (map : NameMap α) (name : String) : Option α :=
  (map.find? name).map Prod.snd

def insert (map : NameMap α) (name : String) (value : α) : NameMap α :=
  map.put (name, value)

/-- `entry(name).or_default()`, changed in place. -/
def entry (map : NameMap α) (name : String) (orDefault : α)
    (change : α → α) : NameMap α :=
  insert map name (change ((get map name).getD orDefault))

end NameMap

/-- The recent samples of main and of review sessions. -/
structure RateSamples (F : Type) where
  main : List (String × F)
  review : List (String × F)

def RateSamples.get {F : Type} (samples : RateSamples F) (review : Bool) :
    List (String × F) :=
  if review then samples.review else samples.main

def RateSamples.set {F : Type} (samples : RateSamples F) (review : Bool)
    (list : List (String × F)) : RateSamples F :=
  if review then { samples with review := list }
  else { samples with main := list }

structure SmartRouter (F : Type) where
  sessions : NameMap (Session F)
  requests : NameMap RequestBinding
  calibration : NameMap (Calibration F)
  fiveCalibration : NameMap (Calibration F)
  planTypes : NameMap (Option String)
  loads : NameMap (Rate F)
  samples : RateSamples F
  lambda : F
  placementOnly : Bool
  lastAdmission : List Bool
  budgetEnforced : Bool

section Router

variable {F : Type} [Float64 F]

def orZero (value : F) : F := fmax value 0.0

def sum (values : List F) : F := values.foldl (· + ·) 0.0

/-- `sort_by(f64::total_cmp)`. -/
def sortTotal (values : List F) : List F :=
  values.mergeSort fun left right => totalCmp left right != .gt

namespace Calibration

def new : Calibration F where
  anchorUsed := none
  tokensSince := 0.0
  tokensPerPoint := none
  externalPoints := 0.0
  lowSamples := []
  resetAt := none

/-- A usage that is low for the capacity: external use, unless three samples in
a row say that the capacity has dropped. -/
def lowUsage (cal : Calibration F) (used prior anchor : F) : Calibration F :=
  let sample := cal.tokensSince / (used - anchor)
  let external :=
    orZero (used - anchor - cal.tokensSince / cal.tokensPerPoint.getD prior)
  let cal := { cal with externalPoints := cal.externalPoints + external }
  let cal :=
    if lt 0.0 sample then
      let pushed := cal.lowSamples ++ [(sample, external)]
      let cal := { cal with
        lowSamples := if 3 < pushed.length then pushed.tail else pushed }
      match sortTotal (cal.lowSamples.map Prod.fst) with
      | [first, second, third] =>
        if le third (2.0 * first) then
          { cal with
            tokensPerPoint := some second
            externalPoints :=
              orZero (cal.externalPoints - sum (cal.lowSamples.map Prod.snd))
            lowSamples := [] }
        else cal
      | _ => cal
    else { cal with lowSamples := [] }
  { cal with anchorUsed := some used, tokensSince := 0.0 }

def update (cal : Calibration F) (used prior : F) : Calibration F :=
  match cal.anchorUsed with
  | some anchor =>
    if lt (used + 0.5) anchor then
      { cal with
        anchorUsed := some used
        tokensSince := 0.0
        lowSamples := []
        externalPoints := 0.0 }
    else if le 2.0 (used - anchor) &&
        (cal.tokensPerPoint.isSome || eq cal.tokensSince 0.0) &&
        lt (cal.tokensSince / (used - anchor))
          (cal.tokensPerPoint.getD prior * 0.5) then
      cal.lowUsage used prior anchor
    else if le 2.0 (used - anchor) && le 20000.0 cal.tokensSince then
      let sample := cal.tokensSince / (used - anchor)
      { cal with
        lowSamples := []
        tokensPerPoint := some (cal.tokensPerPoint.elim sample
          fun known => 0.5 * known + 0.5 * sample)
        anchorUsed := some used
        tokensSince := 0.0 }
    else cal
  | none => { cal with anchorUsed := some used, tokensSince := 0.0 }

/-- Whether the window has rolled over: its end has moved by more than
jitter. -/
def rolledOver : Option Nat → Option Nat → Bool
  | some old, some new => Nat.min (old + resetJitterMs) (2 ^ 64 - 1) < new
  | _, _ => false

def updateWindow (cal : Calibration F) (used prior : F)
    (resetAt : Option Nat) : Calibration F :=
  let cal :=
    if rolledOver cal.resetAt resetAt then
      { cal with
        anchorUsed := none
        tokensSince := 0.0
        externalPoints := 0.0
        lowSamples := [] }
    else cal
  { cal with resetAt := resetAt.or cal.resetAt }.update used prior

end Calibration

namespace Rate

def new : Rate F := ⟨0.0, 0⟩

/-- How much of a value is left after a time. -/
def fade (elapsedMs : Nat) : F :=
  exp (-decay F * ofNat elapsedMs / 1000.0)

/-- `Rate::at`. -/
def valueAt (rate : Rate F) (now : Nat) : F :=
  rate.value * fade (now - rate.since)

def add (rate : Rate F) (value : F) (now : Nat) : Rate F :=
  if now < rate.since then
    { rate with value := orZero (rate.value + value * fade (rate.since - now)) }
  else ⟨orZero (rate.valueAt now + value), now⟩

end Rate

def cacheHeat (gapMs : Nat) : F :=
  if gapMs ≤ 600000 then 0.95
  else if gapMs ≤ 1800000 then 0.5
  else if gapMs ≤ 3600000 then 0.3
  else 0.05

namespace SmartRouter

/-- `SmartRouter::for_replay`. -/
def forReplay (lambda : F) (placementOnly : Bool) : SmartRouter F where
  sessions := .empty
  requests := .empty
  calibration := .empty
  fiveCalibration := .empty
  planTypes := .empty
  loads := .empty
  samples := ⟨[], []⟩
  lambda := lambda
  placementOnly := placementOnly
  lastAdmission := []
  budgetEnforced := false

def default : SmartRouter F := forReplay (defaultLambda F) false

variable (router : SmartRouter F) (candidates : List (Candidate F))

def prior (review : Bool) : F :=
  let values := sortTotal ((router.samples.get review).map Prod.snd)
  fmax (values[values.length / 2]?.getD (if review then 5.0 else 25.0)) 0.01

/-- `plan.trim().to_ascii_lowercase()`. -/
def normalizedPlan (plan : String) : String :=
  String.ofList ((Text.trim plan.toList).map Char.toLower)

/-- Take a quota observation in; the capacity of a point and whether it was
measured. -/
def updateQuotaObservation (c : Candidate F) : SmartRouter F × F × Bool :=
  let plan := c.planType.map normalizedPlan
  let router :=
    if (router.planTypes.get c.accountId).any (· ≠ plan) then
      { router with
        calibration := router.calibration.erase c.accountId
        fiveCalibration := router.fiveCalibration.erase c.accountId }
    else router
  let prior := priorTokensPerPoint F * fmax c.capacityPrior 0.01
  let cal := (router.calibration.get c.accountId).getD .new
  let cal := c.weeklyUsed.elim cal fun used =>
    cal.updateWindow used prior c.weeklyResetAt
  let capacity := cal.tokensPerPoint.getD prior
  let router := { router with
    planTypes := router.planTypes.insert c.accountId plan
    calibration := router.calibration.insert c.accountId cal }
  let router := c.fiveHourUsed.elim router fun used =>
    { router with
      fiveCalibration := router.fiveCalibration.entry c.accountId .new
        fun five => five.updateWindow used (capacity * fiveHourCapacityRatio F)
          c.fiveHourResetAt }
  (router, capacity, cal.tokensPerPoint.isSome)

/-- Seconds until a reset, at least a minute. -/
def secondsUntil (resetAt : Option Nat) (window : F) (now : Nat) : F :=
  fmax (resetAt.elim window fun t => ofNat (t - now) / 1000.0) 60.0

/-- The five-hour capacity of an account, by measurement or from the week. -/
def fiveHourSize (accountId : String) (capacity : F) : F :=
  ((router.fiveCalibration.get accountId).bind Calibration.tokensPerPoint).getD
    (capacity * fiveHourCapacityRatio F)

def weeklyRemaining (c : Candidate F) : F := c.weeklyHeadroom.getD c.headroom

/-- The fair rate of one account, with its capacity. -/
def fairRate (meanRemaining meanFive : F) (now : Nat)
    (router : SmartRouter F) (c : Candidate F) :
    SmartRouter F × F × F × Bool :=
  let (router, capacity, measured) := router.updateQuotaObservation c
  let remaining := orZero (weeklyRemaining c)
  let untilWeek := secondsUntil c.weeklyResetAt (7.0 * 86400.0) now
  let recovery := (remaining - meanRemaining) * capacity /
    fmin untilWeek (balanceHorizonSeconds F)
  let fair := remaining * capacity / untilWeek + recovery
  match c.fiveHourUsed with
  | some used =>
    let left := orZero (95.0 - used)
    let size := router.fiveHourSize c.accountId capacity
    let untilFive := secondsUntil c.fiveHourResetAt 18000.0 now
    let fiveRecovery :=
      (left - meanFive) * size / fmin untilFive (fiveHourBalanceSeconds F)
    let fair :=
      if lt 0.0 recovery then
        let base := remaining * capacity / untilWeek
        let sustainable := 95.0 * size / 18000.0
        fmin fair (base +
          recoveryFiveHourShare F * orZero (sustainable - base))
      else fair
    let fair := fmin fair (left * size / untilFive + fmin fiveRecovery 0.0)
    (router, fmax fair 0.000001, capacity, measured)
  | none => (router, fmax fair 0.000001, capacity, measured)

def mean (values : List F) : F := sum values / ofNat values.length

def meanFive : F :=
  let fiveRemaining :=
    candidates.filterMap fun c => c.fiveHourUsed.map fun u => orZero (95.0 - u)
  if fiveRemaining.isEmpty then 95.0 else mean fiveRemaining

/-- The next account in turn; each takes its own observation in. -/
def rateNext (meanRemaining meanFive : F) (now : Nat)
    (entry : SmartRouter F × List (F × F × Bool)) (c : Candidate F) :
    SmartRouter F × List (F × F × Bool) :=
  let rated := fairRate meanRemaining meanFive now entry.1 c
  (rated.1, entry.2 ++ [rated.2])

def fairRates (now : Nat) : SmartRouter F × List (F × F × Bool) :=
  candidates.foldl (rateNext (mean (candidates.map (orZero ∘ weeklyRemaining)))
    (meanFive candidates) now) (router, [])

/-- The beginning of `choose`: nothing is admitted yet, and what was idle for a
day is forgotten. -/
def expire (now : Nat) : SmartRouter F :=
  { router with
    lastAdmission := []
    budgetEnforced := false
    sessions := router.sessions.retain fun s => now - s.2.touched < idleMs
    requests := router.requests.retain fun r => now - r.2.touched < idleMs }

/-- `candidates.iter().position(p)`. -/
def position (p : Candidate F → Bool) : Option (Fin candidates.length) :=
  (List.finRange candidates.length).find? fun i => p candidates[i]

/-- What `choose` knows of the session before it looks at the budget. -/
structure Placement (F : Type) (n : Nat) where
  previous : Option (Session F)
  socketIncumbent : Option (Fin n)
  availableIncumbent : Option (Fin n)
  activeSocketTurn : Bool
  review : Bool
  rho : F
  gap : Nat
  compressed : Bool
  tokens : Nat

/-- The context window of the session is another one. -/
def isCompressed (previous : Option (Session F)) (context : RoutingContext) :
    Bool :=
  match previous.bind Session.window, context.contextWindowKey with
  | some old, some new => old ≠ new
  | _, _ => false

def isReview (key : String) : Bool := "review:".toList.isPrefixOf key.toList

/-- The hash of an account stands for SHA-256 in hexadecimal digits. -/
def placement (hashAccount : String → String) (router : SmartRouter F)
    (candidates : List (Candidate F)) (context : RoutingContext) (key : String)
    (now : Nat) : Placement F candidates.length :=
  let previous := router.sessions.get key
  let socketIncumbent := context.socketAffinity.bind fun affinity =>
    position candidates fun c => affinity.accountHash = hashAccount c.accountId
  { previous := previous
    socketIncumbent := socketIncumbent
    availableIncumbent := socketIncumbent.or (previous.bind fun s =>
      position candidates fun c => c.accountId = s.accountId)
    activeSocketTurn := context.socketAffinity.any (·.turnInProgress)
    review := isReview key
    rho := previous.elim (router.prior (isReview key)) fun s =>
      fmax (s.rate.valueAt now) 0.01
    gap := previous.elim 0 fun s => now - s.touched
    compressed := isCompressed previous context
    tokens := previous.elim context.estimatedInputTokens Session.tokens }

section Selection

variable (router : SmartRouter F) (candidates : List (Candidate F))
  (rates : Fin candidates.length → F × F × Bool)
  (loads : Fin candidates.length → F) (context : RoutingContext) (now : Nat)
  (place : Placement F candidates.length)

variable (i : Fin candidates.length)

/-- What is left of an account's week, and of its five hours. -/
def weeklyLeft : F :=
  weeklyRemaining candidates[i] * (rates i).2.1

def fiveLeft : Option F :=
  candidates[i].fiveHourUsed.map fun used =>
    orZero (95.0 - used) *
      router.fiveHourSize candidates[i].accountId (rates i).2.1

def leastLeft : F :=
  fmin (weeklyLeft candidates rates i)
    ((fiveLeft router candidates rates i).getD infinity)

/-- The request fits into the budget of the account. -/
def fits : Bool :=
  let cached :=
    if place.availableIncumbent = some i ∧ !place.compressed then
      place.previous.elim 0.0 Session.cachedFraction * cacheHeat place.gap
    else 0.0
  let expected := ofNat context.estimatedInputTokens * (1.0 - 0.9 * cached)
  le expected (leastLeft router candidates rates i)

def nearFiveHours : Bool :=
  candidates[i].fiveHourUsed.any fun used => le 90.0 used

/-- No account change of the session within the interval. -/
def hysteresis : Bool :=
  place.previous.all fun s =>
    s.migrated.all fun t => migrationIntervalMs ≤ now - t

def cost : F :=
  if place.compressed then 0.0
  else 0.9 * ofNat place.tokens * cacheHeat place.gap

def overload (load rate : F) : F := orZero (load - rate)

/-- What moving from `i` to `best` is worth. -/
def benefit (i best : Fin candidates.length) : F :=
  if best = i then 0.0
  else
    let age : Nat := place.previous.elim 0 fun s => now - s.started
    let horizon := fmin (ofNat age / 1000.0) 3600.0
    router.lambda * horizon *
      (overload (loads i) (rates i).1 + overload (loads best) (rates best).1 -
        overload (orZero (loads i - place.rho)) (rates i).1 -
        overload (loads best + place.rho) (rates best).1)

end Selection

variable {n : Nat}

def anyFits (admission : Fin n → Bool) : Bool :=
  (List.finRange n).any admission

variable (router : SmartRouter F) (place : Placement F n)

/-- The incumbent that may be kept. -/
def incumbentOf (admission : Fin n → Bool) : Option (Fin n) :=
  place.availableIncumbent.filter fun i =>
    place.activeSocketTurn || !anyFits admission || admission i

/-- The account with the least projected load among those the request fits, or
among all where it fits none. -/
def bestOf (admission : Fin n → Bool) (projected : Fin n → F)
    (start : Fin n) : Fin n :=
  (List.finRange n).foldl (fun best i =>
    if anyFits admission && !admission i then best
    else if lt (projected i) (projected best * (1.0 - 0.000000001)) then i
    else best) start

/-- `min_by`: the first of the least. -/
def minBy (projected : Fin n → F) : List (Fin n) → Option (Fin n)
  | [] => none
  | i :: rest => some (rest.foldl (fun best j =>
    if totalCmp (projected best) (projected j) = .gt then j else best) i)

/-- The selection with its reason. -/
def select (candidates : List (Candidate F)) (hne : candidates ≠ [])
    (rates : Fin candidates.length → F × F × Bool)
    (loads : Fin candidates.length → F) (context : RoutingContext) (now : Nat)
    (place : Placement F candidates.length)
    (admission : Fin candidates.length → Bool) :
    Fin candidates.length × String :=
  let incumbent := incumbentOf place admission
  let projected i :=
    (loads i + if incumbent = some i then 0.0 else place.rho) / (rates i).1
  let best := bestOf admission projected
    (incumbent.getD (((List.finRange candidates.length).find? admission).getD
      ⟨0, List.length_pos_of_ne_nil hne⟩))
  match incumbent with
  | none =>
    (best,
      if place.availableIncumbent.isSome && anyFits admission then
        "gate_request_budget"
      else if place.previous.isSome then "gate"
      else "new_session_min_util")
  | some i =>
    let leastLeft := leastLeft router candidates rates i
    if place.socketIncumbent = some i then
      let near := nearFiveHours candidates i ||
        le leastLeft (ofNat context.estimatedInputTokens)
      let others := (List.finRange candidates.length).filter fun j =>
        j ≠ i && admission j
      if !place.activeSocketTurn && near then
        match minBy projected others with
        | some next => (next, "migrate_near_limit")
        | none => (i, "socket_account_affinity")
      else (i, "socket_account_affinity")
    else
      let cooled := place.compressed || 600000 < place.gap
      let near := le leastLeft (ofNat place.tokens) ||
        nearFiveHours candidates i
      if !router.placementOnly && best ≠ i && hysteresis candidates now place &&
          cooled && near then
        (best, "migrate_near_limit")
      else if !router.placementOnly && best ≠ i &&
          hysteresis candidates now place &&
          lt (cost candidates place * 1.25)
            (benefit router candidates rates loads now place i best) then
        (best, if cooled then "migrate_cold_cache" else "migrate_benefit")
      else (i, "stay_cache_hot")

/-- A session that is not there yet. -/
def newSession (accountId : String) (context : RoutingContext) (now : Nat) :
    Session F where
  accountId := accountId
  window := none
  tokens := context.estimatedInputTokens
  rate := ⟨place.rho, now⟩
  measured := .new
  started := now
  touched := now
  migrated := none
  review := place.review
  observations := 0
  latestRequest := ""
  cachedFraction := 0.0

/-- The session as it is stored after the selection. -/
def placedSession (accountId : String) (changed : Bool)
    (context : RoutingContext) (now : Nat) : Session F :=
  let session := place.previous.getD (newSession place accountId context now)
  { session with
    accountId := accountId
    cachedFraction :=
      if changed || place.compressed then 0.0 else session.cachedFraction
    migrated := if changed then some now else session.migrated
    tokens :=
      if place.compressed then context.estimatedInputTokens else session.tokens
    window := context.contextWindowKey.or session.window
    touched := now
    latestRequest := context.requestId }

/-- The session leaves the account it was on and joins the selected one. -/
def shiftLoads (accountId : String) (changed : Bool) (now : Nat) :
    NameMap (Rate F) :=
  let loads :=
    match place.previous, changed with
    | some s, true => router.loads.entry s.accountId .new fun rate =>
      rate.add (-place.rho) now
    | _, _ => router.loads
  if place.previous.isNone || changed then
    loads.entry accountId .new fun rate => rate.add place.rho now
  else loads

/-- The end of `choose`.  `picks` decides which of several oldest entries has to
leave a full map. -/
def settle (accountId : String) (context : RoutingContext) (key : String)
    (now : Nat) (picks : String × String) : SmartRouter F :=
  let changed := place.previous.any (·.accountId ≠ accountId)
  { router with
    loads := shiftLoads router place accountId changed now
    sessions := ((router.sessions.erase key).makeRoom maxSessions
      (·.2.touched) picks.1).put
        (key, placedSession place accountId changed context now)
    requests :=
      if context.requestId = "" then router.requests
      else (router.requests.makeRoom maxRequests (·.2.touched) picks.2).put
        (context.requestId, ⟨key, accountId, now⟩) }

/-- What the choice says about itself. -/
def withAdmission (admission : Fin n → Bool) : SmartRouter F :=
  { router with
    lastAdmission := List.ofFn admission
    budgetEnforced := anyFits admission && !place.activeSocketTurn }

/-- `choose` for a session, once the accounts are rated. -/
def chooseSession (candidates : List (Candidate F)) (hne : candidates ≠ [])
    (rates : Fin candidates.length → F × F × Bool)
    (loads : Fin candidates.length → F) (place : Placement F candidates.length)
    (context : RoutingContext) (key : String) (now : Nat)
    (picks : String × String) :
    SmartRouter F × Fin candidates.length × String :=
  let admission := fits router candidates rates context place
  let router := router.withAdmission place admission
  let selection := select router candidates hne rates loads context now place
    admission
  (settle router place candidates[selection.1].accountId context key now picks,
    selection)

/-- `choose`, over candidates that are there. -/
def choose (hashAccount : String → String) (router : SmartRouter F)
    (candidates : List (Candidate F)) (hne : candidates ≠ [])
    (context : RoutingContext) (now : Nat) (picks : String × String) :
    SmartRouter F × Fin candidates.length × String :=
  let rated := (router.expire now).fairRates candidates now
  match context.sessionKey with
  | none =>
    (rated.1, ⟨0, List.length_pos_of_ne_nil hne⟩, "unidentified_session_rank")
  | some key =>
    chooseSession rated.1 candidates hne
      (fun i => rated.2[i]?.getD (0.0, 0.0, false))
      (fun i => ((rated.1.loads.get candidates[i].accountId).getD
        .new).valueAt now)
      (placement hashAccount rated.1 candidates context key now) context key
      now picks

/-- What a response has cost its account. -/
def billed (input cached : Nat) : F :=
  ofNat (input - cached) + cachedTokenWeight F * ofNat cached

/-- The sample of a session takes the place of its earlier one. -/
def pushSample (list : List (String × F)) (sample : String × F) :
    List (String × F) :=
  let list := list.eraseP fun old => old.1 = sample.1
  (if list.length = 128 then list.tail else list) ++ [sample]

/-- A response to the newest request of the session. -/
def observeSession (session : Session F) (input cached time : Nat) : Session F :=
  { session with
    tokens := input
    cachedFraction := ofNat cached / ofNat input
    rate := session.rate.add (billed input cached * decay F) time
    measured := session.measured.add (billed input cached * decay F) time
    observations := session.observations + 1 }

/-- The response counts: it is a success with input tokens. -/
def isCounted (input status : Nat) : Bool :=
  200 ≤ status && status < 300 && input ≠ 0

def observe (requestId : String) (input cached status : Nat) : SmartRouter F :=
  match router.requests.get requestId with
  | none => router
  | some binding =>
    let router := { router with
      requests := router.requests.erase requestId }
    if isCounted input status then
      let cached := Nat.min cached input
      let points := fun cal : Calibration F =>
        { cal with tokensSince := cal.tokensSince + billed input cached }
      let router := { router with
        calibration := router.calibration.entry binding.accountId .new points
        fiveCalibration :=
          router.fiveCalibration.entry binding.accountId .new points
        loads := router.loads.entry binding.accountId .new fun rate =>
          rate.add (billed input cached * decay F) binding.touched }
      match router.sessions.get binding.session with
      | some session =>
        if session.accountId = binding.accountId ∧
            session.latestRequest = requestId then
          let session :=
            observeSession session input cached binding.touched
          { router with
            sessions := router.sessions.insert binding.session session
            samples :=
              if 2 ≤ session.observations then
                router.samples.set session.review
                  (pushSample (router.samples.get session.review)
                    (binding.session,
                      fmax (session.measured.valueAt binding.touched) 0.01))
              else router.samples }
        else router
      | none => router
    else router

end SmartRouter

end Router

end Vellum.Desktop

/-
The borrowed `CODEX_CLI_PATH` (`enhanced_runtime/env_lease.rs`).  The lease
file is written before the variable, so that a crash between the two leaves a
lease whose applied value was never applied.
-/
import Vellum.Library.CrashRun
import Vellum.Library.StepRun

namespace Vellum.Enhanced

open List Option

structure EnvironmentLease where
  variableName : String
  previousValue : Option String
  appliedValue : String
  launchId : String
  acquiredAt : Int
deriving DecidableEq

def codexCliPath : String := "CODEX_CLI_PATH"

def bridgeExecutableStem : String := "vellum-codex-app-server"

/-- The variable as it reads, and the lease file as it parses. -/
structure UserEnvironment where
  value : Option String
  lease : Option EnvironmentLease
deriving DecidableEq

/-- `names_vellum_bridge`; how a path is taken apart depends on the platform. -/
def namesVellumBridge (fileName : String → Option String) (value : String) :
    Bool :=
  (fileName value).any fun name =>
    bridgeExecutableStem.toList.isPrefixOf (name.toList.map Char.toLower)

inductive LeaseError where
  | ownershipConflict (variableName applied : String) (current : Option String)
  | writeNotObserved (variableName expected : String)
      (observed : Option String)

inductive ReleaseOutcome where
  | removed
  | restored
  | foreignValueRetained
  | noLease
  | orphanedBridgeRemoved

/-- The writes of a call. -/
inductive LeaseStep where
  | writeLease (lease : EnvironmentLease)
  | writeVariable (value : Option String)
  | removeLease

namespace LeaseStep

def run : LeaseStep → UserEnvironment → UserEnvironment
  | .writeLease lease, env => { env with lease := some lease }
  | .writeVariable value, env => { env with value }
  | .removeLease, env => { env with lease := none }

end LeaseStep

def acquisitionConflicts (existing : Option EnvironmentLease)
    (current : Option String) (requested : String) (isOurs : String → Bool) :
    Bool :=
  match existing with
  | some lease => current.any fun current => current ≠ lease.appliedValue
  | none => current.any fun current => current ≠ requested && !isOurs current

def planPreviousValueForAcquire (existing : Option EnvironmentLease)
    (current : Option String) (value : String) (isOurs : String → Bool) :
    Option String :=
  match existing, current with
  | some lease, some current =>
    if lease.appliedValue = current then lease.previousValue
    else some current
  | none, some current =>
    if current = value || isOurs current then none else some current
  | _, none => none

/-- `release_file`. -/
def releaseFile (env : UserEnvironment) : ReleaseOutcome × List LeaseStep :=
  match env.lease with
  | none => (.noLease, [])
  | some lease =>
    if env.value ≠ some lease.appliedValue then
      (.foreignValueRetained, [.removeLease])
    else
      match lease.previousValue with
      | some previous =>
        (.restored, [.writeVariable (some previous), .removeLease])
      | none => (.removed, [.writeVariable none, .removeLease])

/-- `acquire`: what it returns and the writes on the way.  It reads its own
write back, so without a write by another program in between it is observed. -/
def acquire (fileName : String → Option String) (env : UserEnvironment)
    (value launchId : String) (now : Int) :
    Except LeaseError EnvironmentLease × List LeaseStep :=
  let isOurs := namesVellumBridge fileName
  if acquisitionConflicts env.lease env.value value isOurs then
    (.error (.ownershipConflict codexCliPath
      ((env.lease.map EnvironmentLease.appliedValue).getD value) env.value), [])
  else
    let lease : EnvironmentLease := {
      variableName := codexCliPath
      previousValue :=
        planPreviousValueForAcquire env.lease env.value value isOurs
      appliedValue := value
      launchId
      acquiredAt := now }
    let writes := [.writeLease lease, .writeVariable (some value)]
    let written := runSteps LeaseStep.run writes env
    if written.value = some value then (.ok lease, writes)
    else
      (.error (.writeNotObserved codexCliPath value written.value),
        writes ++ (releaseFile written).2)

/-- `release_configured_bridge`. -/
def releaseConfiguredBridge (fileName : String → Option String)
    (env : UserEnvironment) (configured : String) :
    ReleaseOutcome × List LeaseStep :=
  if env.lease.isSome then releaseFile env
  else
    match env.value with
    | none => (.noLease, [])
    | some current =>
      if current ≠ configured && !namesVellumBridge fileName current then
        (.noLease, [])
      else (.orphanedBridgeRemoved, [.writeVariable none])

/-- The calls of Vellum. -/
inductive LeaseCall where
  | acquire (value launchId : String) (now : Int)
  | release
  | releaseConfiguredBridge (configured : String)

namespace LeaseCall

def steps (fileName : String → Option String) (env : UserEnvironment) :
    LeaseCall → List LeaseStep
  | .acquire value launchId now =>
    (Enhanced.acquire fileName env value launchId now).2
  | .release => (releaseFile env).2
  | .releaseConfiguredBridge configured =>
    (Enhanced.releaseConfiguredBridge fileName env configured).2

/-- The path the call is given names a Vellum bridge. -/
def NamesBridge (fileName : String → Option String) : LeaseCall → Prop
  | .acquire value _ _ => namesVellumBridge fileName value = true
  | .release => True
  | .releaseConfiguredBridge configured =>
    namesVellumBridge fileName configured = true

end LeaseCall

/-- What happens to the environment: a call of Vellum that stops behind some of
its writes (all of them, or a crash after fewer), or a write by another program
between two calls. -/
inductive LeaseAction where
  | call (call : LeaseCall) (done : Nat)
  | foreignWrite (value : Option String)

variable (fileName : String → Option String) (env : UserEnvironment)

def leaseStep : LeaseAction → Option UserEnvironment
  | .call call done =>
    some (runSteps LeaseStep.run ((call.steps fileName env).take done) env)
  | .foreignWrite value => some { env with value }

/-- The environment behind a call that stops after `done` writes. -/
def afterCall (call : LeaseCall) (done : Nat) : UserEnvironment :=
  runSteps LeaseStep.run ((call.steps fileName env).take done) env

/-- The environment behind a call that runs to its end. -/
def completed (call : LeaseCall) : UserEnvironment :=
  runSteps LeaseStep.run (call.steps fileName env) env

/-- A call refuses to acquire the variable. -/
def Refused (value : String) : Prop :=
  acquisitionConflicts env.lease env.value value
    (namesVellumBridge fileName) = true

instance (fileName : String → Option String) (env : UserEnvironment)
    (value : String) : Decidable (Refused fileName env value) :=
  inferInstanceAs (Decidable (_ = true))

/-- A value that goes away was a Vellum bridge or the applied value of the
lease. -/
def KeepsForeign (env left : UserEnvironment) : Prop :=
  ∀ value, env.value = some value → left.value ≠ some value →
    namesVellumBridge fileName value = true ∨
      ∃ lease, env.lease = some lease ∧ lease.appliedValue = value

/-- No other program writes, and an acquisition is cut off between its two
writes only where the variable is absent or has the requested value. -/
def CutWhereHarmless : LeaseAction → Prop
  | .call (.acquire value launchId now) done =>
    (LeaseCall.acquire value launchId now).NamesBridge fileName ∧
      (done = 1 → Refused fileName env value ∨ env.value = none ∨
        env.value = some value)
  | .call call _ => call.NamesBridge fileName
  | .foreignWrite _ => False

/-- What the variable is to be given back as. -/
def givenBack (value : Option String) : Option String :=
  value.filter fun value => !namesVellumBridge fileName value

variable {fileName : String → Option String}

variable (env : UserEnvironment) {value : String} {call : LeaseCall}

theorem acquire_of_refused {env : UserEnvironment}
    (hrefused : Refused fileName env value) (launchId : String) (now : Int) :
    (acquire fileName env value launchId now).2 = [] := by
  rw [Refused] at hrefused
  rw [acquire, if_pos hrefused]

/-- An acquisition that is not refused writes the lease and the variable, and
sees its value. -/
theorem acquire_of_not_refused {env : UserEnvironment}
    (hfree : ¬ Refused fileName env value) (launchId : String) (now : Int) :
    ∃ lease, (acquire fileName env value launchId now).2 =
        [.writeLease lease, .writeVariable (some value)] ∧
      lease.appliedValue = value ∧
      lease.previousValue = planPreviousValueForAcquire env.lease env.value
        value (namesVellumBridge fileName) := by
  rw [Refused] at hfree
  rw [acquire, if_neg hfree]
  simp only [runSteps, LeaseStep.run, if_true]
  exact ⟨_, rfl, rfl, rfl⟩

theorem not_refused_iff {env : UserEnvironment} :
    ¬ Refused fileName env value ↔
      ∀ current, env.value = some current →
        match env.lease with
        | some lease => current = lease.appliedValue
        | none => current = value ∨
            namesVellumBridge fileName current = true := by
  unfold Refused acquisitionConflicts
  cases env.lease with
  | none =>
    cases env.value with
    | none => simp
    | some current => simp [or_iff_not_imp_left]
  | some lease =>
    cases env.value with
    | none => simp
    | some current => simp

theorem releaseFile_of_lease {env : UserEnvironment} {lease : EnvironmentLease}
    (hlease : env.lease = some lease) :
    (releaseFile env).2 =
      if env.value = some lease.appliedValue then
        [.writeVariable lease.previousValue, .removeLease]
      else [.removeLease] := by
  rw [releaseFile, hlease]
  by_cases howned : env.value = some lease.appliedValue
  · simp only [howned, ne_eq, not_true_eq_false, if_false, if_true]
    cases lease.previousValue with
    | none => rfl
    | some previous => rfl
  · simp only [ne_eq, howned, not_false_eq_true, if_true, if_false]

/-! What is never taken away. -/

theorem keepsForeign_refl : KeepsForeign fileName env env :=
  fun _ hvalue hlost => absurd hvalue hlost

theorem keepsForeign_acquire (hbridge : namesVellumBridge fileName value = true)
    (launchId : String) (now : Int) (done : Nat) :
    KeepsForeign fileName env
      (afterCall fileName env (.acquire value launchId now) done) := by
  by_cases hrefused : Refused fileName env value
  · rw [afterCall, LeaseCall.steps, acquire_of_refused hrefused, take_nil]
    exact keepsForeign_refl env
  · intro current hcurrent _
    have howner := not_refused_iff.mp hrefused current hcurrent
    cases hlease : env.lease with
    | none =>
      rw [hlease] at howner
      rcases howner with rfl | hours
      · exact Or.inl hbridge
      · exact Or.inl hours
    | some lease =>
      rw [hlease] at howner
      exact Or.inr ⟨lease, rfl, howner.symm⟩

theorem keepsForeign_release (done : Nat) :
    KeepsForeign fileName env
      (runSteps LeaseStep.run ((releaseFile env).2.take done) env) := by
  intro current hcurrent hlost
  cases hlease : env.lease with
  | none =>
    rw [releaseFile, hlease, take_nil] at hlost
    exact absurd hcurrent hlost
  | some lease =>
    rw [releaseFile_of_lease hlease] at hlost
    by_cases howned : env.value = some lease.appliedValue
    · rw [hcurrent] at howned
      exact Or.inr ⟨lease, rfl, (some.inj howned).symm⟩
    · rw [if_neg howned] at hlost
      cases done with
      | zero => exact absurd hcurrent hlost
      | succ done =>
        rw [take_succ_cons, take_nil] at hlost
        exact absurd hcurrent hlost

/-- A call takes nothing away that is neither a bridge nor its own. -/
theorem keepsForeign_call (hbridge : call.NamesBridge fileName) (done : Nat) :
    KeepsForeign fileName env (afterCall fileName env call done) := by
  cases call with
  | acquire value launchId now =>
    exact keepsForeign_acquire env hbridge launchId now done
  | release => exact keepsForeign_release env done
  | releaseConfiguredBridge configured =>
    rw [afterCall, LeaseCall.steps, releaseConfiguredBridge]
    by_cases hlease : env.lease.isSome = true
    · rw [if_pos hlease]
      exact keepsForeign_release env done
    · rw [if_neg hlease]
      intro current hcurrent hlost
      rw [hcurrent] at hlost
      by_cases hforeign : (decide (current ≠ configured) &&
          !namesVellumBridge fileName current) = true
      · simp only [hforeign, if_true, take_nil, runSteps] at hlost
        exact absurd hcurrent hlost
      · left
        rw [Bool.and_eq_true, decide_eq_true_iff, Bool.not_eq_true',
          not_and_or, not_not, Bool.not_eq_false] at hforeign
        rcases hforeign with rfl | hours
        · exact hbridge
        · exact hours

/-! What is given back. -/

/-- What the variable can be while nobody else writes it: what it was to begin
with, or borrowed, or given back. -/
structure Lent (fileName : String → Option String) (start : Option String)
    (env : UserEnvironment) : Prop where
  leased : ∀ lease, env.lease = some lease → lease.previousValue = none ∧
    (env.value = none ∨ env.value = some lease.appliedValue) ∧
    givenBack fileName start = none
  free : env.lease = none → env.value = start ∨
    env.value = none ∧ givenBack fileName start = none

namespace Lent

variable {start : Option String} {env : UserEnvironment}

theorem ofLease {lease : EnvironmentLease} {value : Option String}
    (hprevious : lease.previousValue = none)
    (hvalue : value = none ∨ value = some lease.appliedValue)
    (hback : givenBack fileName start = none) :
    Lent fileName start ⟨value, some lease⟩ where
  leased := by
    intro other hother
    obtain rfl := some.inj hother
    exact ⟨hprevious, hvalue, hback⟩
  free := by
    intro hnone
    cases hnone

theorem returned (hback : givenBack fileName start = none) :
    Lent fileName start ⟨none, none⟩ where
  leased := by
    intro lease hlease
    cases hlease
  free := fun _ => Or.inr ⟨rfl, hback⟩

section

variable (hlent : Lent fileName start env)
include hlent

theorem of_leased (hlease : env.lease.isSome = true) :
    Lent fileName none env where
  leased := by
    intro lease hsome
    exact ⟨(hlent.leased lease hsome).1, (hlent.leased lease hsome).2.1, rfl⟩
  free := by
    intro hnone
    rw [hnone] at hlease
    cases hlease

/-- An acquisition that is not refused finds no value of another program. -/
theorem previous_none {value : String}
    (hbridge : namesVellumBridge fileName value = true)
    (hfree : ¬ Refused fileName env value) :
    planPreviousValueForAcquire env.lease env.value value
        (namesVellumBridge fileName) = none ∧
      givenBack fileName start = none := by
  have howner := not_refused_iff.mp hfree
  unfold planPreviousValueForAcquire
  cases hlease : env.lease with
  | none =>
    rw [hlease] at howner
    cases hvalue : env.value with
    | none =>
      refine ⟨rfl, ?_⟩
      rcases hlent.free hlease with hstart | hback
      · rw [← hstart, hvalue]
        rfl
      · exact hback.2
    | some current =>
      have hours : namesVellumBridge fileName current = true := by
        rcases howner current hvalue with rfl | hours
        · exact hbridge
        · exact hours
      refine ⟨?_, ?_⟩
      · simp only [hours, Bool.or_true, if_true]
      · rcases hlent.free hlease with hstart | hback
        · rw [← hstart, hvalue, givenBack, filter_some, hours]
          rfl
        · exact hback.2
  | some lease =>
    obtain ⟨hprevious, hvalue, hback⟩ := hlent.leased lease hlease
    refine ⟨?_, hback⟩
    rcases hvalue with hvalue | hvalue
    · rw [hvalue]
    · rw [hvalue]
      simp only [if_true]
      exact hprevious

theorem afterAcquire {value : String}
    (hbridge : namesVellumBridge fileName value = true) (launchId : String)
    (now : Int) {done : Nat}
    (hcut : done = 1 → Refused fileName env value ∨ env.value = none ∨
      env.value = some value) :
    Lent fileName start
      (afterCall fileName env (.acquire value launchId now) done) := by
  rw [afterCall, LeaseCall.steps]
  by_cases hrefused : Refused fileName env value
  · rw [acquire_of_refused hrefused, take_nil]
    exact hlent
  · obtain ⟨lease, hsteps, happlied, hplanned⟩ :=
      acquire_of_not_refused hrefused launchId now
    obtain ⟨hnone, hback⟩ := hlent.previous_none hbridge hrefused
    have hprevious : lease.previousValue = none := hplanned.trans hnone
    rw [hsteps]
    match done with
    | 0 => exact hlent
    | 1 =>
      apply ofLease hprevious ?_ hback
      rw [happlied]
      exact (hcut rfl).resolve_left hrefused
    | done + 2 =>
      rw [take_succ_cons, take_succ_cons, take_nil]
      apply ofLease hprevious (Or.inr ?_) hback
      rw [happlied]

theorem afterRelease (done : Nat) :
    Lent fileName start
      (runSteps LeaseStep.run ((releaseFile env).2.take done) env) := by
  cases hlease : env.lease with
  | none =>
    rw [releaseFile, hlease, take_nil]
    exact hlent
  | some lease =>
    obtain ⟨hprevious, hvalue, hback⟩ := hlent.leased lease hlease
    have henv : env = ⟨env.value, some lease⟩ := by rw [← hlease]
    rw [releaseFile_of_lease hlease, hprevious]
    by_cases howned : env.value = some lease.appliedValue
    · rw [if_pos howned]
      match done with
      | 0 => exact hlent
      | 1 =>
        rw [henv]
        exact ofLease hprevious (Or.inl rfl) hback
      | done + 2 =>
        rw [take_succ_cons, take_succ_cons, take_nil]
        exact returned hback
    · rw [if_neg howned]
      have habsent := hvalue.resolve_right howned
      match done with
      | 0 => exact hlent
      | done + 1 =>
        rw [take_succ_cons, take_nil, henv, habsent]
        exact returned hback

theorem afterCall {call : LeaseCall} {done : Nat}
    (hharmless : CutWhereHarmless fileName env (.call call done)) :
    Lent fileName start (Enhanced.afterCall fileName env call done) := by
  cases call with
  | acquire value launchId now =>
    exact hlent.afterAcquire hharmless.1 launchId now hharmless.2
  | release => exact hlent.afterRelease done
  | releaseConfiguredBridge configured =>
    rw [Enhanced.afterCall, LeaseCall.steps, releaseConfiguredBridge]
    cases hlease : env.lease with
    | some lease =>
      rw [isSome_some, if_pos rfl]
      exact hlent.afterRelease done
    | none =>
      rw [isSome_none, if_neg Bool.false_ne_true]
      cases hvalue : env.value with
      | none =>
        rw [take_nil]
        exact hlent
      | some current =>
        simp only
        split
        · rw [take_nil]
          exact hlent
        · rename_i hours
          match done with
          | 0 => exact hlent
          | done + 1 =>
            have hbridge : namesVellumBridge fileName current = true := by
              rw [Bool.and_eq_true, decide_eq_true_iff,
                Bool.not_eq_true', not_and_or, not_not,
                Bool.not_eq_false] at hours
              rcases hours with rfl | hours
              · exact hharmless
              · exact hours
            have henv : env = ⟨env.value, none⟩ := by rw [← hlease]
            rw [take_succ_cons, take_nil, henv]
            apply returned
            rcases hlent.free hlease with hstart | hback
            · rw [← hstart, hvalue, givenBack, filter_some,
                hbridge]
              rfl
            · exact hback.2

theorem run {actions : List LeaseAction} {state : UserEnvironment}
    (hrun : GuardedRun (leaseStep fileName) (CutWhereHarmless fileName) env
      actions state) : Lent fileName start state := by
  apply hrun.invariant hlent
  intro before action next hbefore hharmless hstep
  cases action with
  | call call done =>
    rw [leaseStep] at hstep
    obtain rfl := some.inj hstep
    exact hbefore.afterCall hharmless
  | foreignWrite value => exact absurd hharmless id

/-- Where the variable is not another program's, no acquisition is refused. -/
theorem not_refused (hback : givenBack fileName start = none) (value : String) :
    ¬ Refused fileName env value := by
  rw [not_refused_iff]
  intro current hcurrent
  cases hlease : env.lease with
  | some lease =>
    obtain ⟨-, hvalue, -⟩ := hlent.leased lease hlease
    rw [hcurrent] at hvalue
    exact some.inj (hvalue.resolve_left (by simp))
  | none =>
    rcases hlent.free hlease with hstart | ⟨hnone, -⟩
    · rw [givenBack, ← hstart, hcurrent, filter_eq_none_iff] at hback
      exact Or.inr (by simpa using hback)
    · rw [hcurrent] at hnone
      cases hnone

end

end Lent

/-- The calls that give the variable back. -/
def IsRelease (fileName : String → Option String) (call : LeaseCall) : Prop :=
  call = .release ∨ ∃ configured, call = .releaseConfiguredBridge configured ∧
    namesVellumBridge fileName configured = true

theorem lease_completed_release :
    (runSteps LeaseStep.run (releaseFile env).2 env).lease = none := by
  cases hlease : env.lease with
  | none =>
    rw [releaseFile, hlease]
    exact hlease
  | some lease =>
    rw [releaseFile_of_lease hlease]
    split <;> rfl

theorem lease_completed (hrelease : IsRelease fileName call) :
    (completed fileName env call).lease = none := by
  rcases hrelease with rfl | ⟨configured, rfl, -⟩
  · exact lease_completed_release env
  · rw [completed, LeaseCall.steps, releaseConfiguredBridge]
    cases hlease : env.lease with
    | some lease =>
      rw [isSome_some, if_pos rfl]
      exact lease_completed_release env
    | none =>
      rw [isSome_none, if_neg Bool.false_ne_true]
      cases env.value with
      | none => exact hlease
      | some current =>
        simp only
        split
        · exact hlease
        · exact hlease

/-- A release that runs to its end. -/
theorem Lent.completed {start : Option String} {env : UserEnvironment}
    (hlent : Lent fileName start env) (hrelease : IsRelease fileName call) :
    (completed fileName env call).value = start ∨
      (completed fileName env call).value = none ∧
        givenBack fileName start = none := by
  have hharmless : CutWhereHarmless fileName env
      (.call call (call.steps fileName env).length) := by
    rcases hrelease with rfl | ⟨configured, rfl, hbridge⟩
    · exact trivial
    · exact hbridge
  have hleft := hlent.afterCall hharmless
  rw [Enhanced.afterCall, take_length] at hleft
  exact hleft.free (lease_completed env hrelease)

/-- A call takes no value away that is neither a bridge nor its own.  While no
other program writes and no acquisition is cut off between its writes where the
variable has another value, an acquisition is refused only where the first one
was, and a release that ends leaves the variable as it was, without a bridge
once it has been borrowed. -/
theorem variable_given_back (fileName : String → Option String) :
    (∀ env call done, call.NamesBridge fileName →
      KeepsForeign fileName env (afterCall fileName env call done)) ∧
    ∀ start middle state first last, start.lease = none →
      GuardedRun (leaseStep fileName) (CutWhereHarmless fileName) start first
        middle →
      GuardedRun (leaseStep fileName) (CutWhereHarmless fileName) middle last
        state →
      (∀ value, namesVellumBridge fileName value = true →
        Refused fileName state value → Refused fileName start value) ∧
      ∀ call, IsRelease fileName call →
        ((completed fileName state call).value = start.value ∨
          (completed fileName state call).value =
            givenBack fileName start.value) ∧
        (middle.lease.isSome = true →
          (completed fileName state call).value =
            givenBack fileName start.value) := by
  refine ⟨fun env call done hbridge => keepsForeign_call env hbridge done, ?_⟩
  intro start middle state first last hstart hfirst hlast
  have hlent : Lent fileName start.value start := by
    refine ⟨?_, fun _ => Or.inl rfl⟩
    intro lease hlease
    rw [hstart] at hlease
    cases hlease
  have hmiddle := hlent.run hfirst
  have hstate := hmiddle.run hlast
  constructor
  · intro value hbridge hrefused
    by_contra hfree
    have hback := (hlent.previous_none hbridge hfree).2
    exact hstate.not_refused hback value hrefused
  · intro call hrelease
    constructor
    · rcases hstate.completed hrelease with hsame | ⟨hnone, hback⟩
      · exact Or.inl hsame
      · exact Or.inr (hnone.trans hback.symm)
    · intro hlease
      obtain ⟨lease, hsome⟩ := isSome_iff_exists.mp hlease
      have hback := (hmiddle.leased lease hsome).2.2
      have hreturned := ((hmiddle.of_leased hlease).run hlast).completed hrelease
      rw [hback]
      exact hreturned.elim id And.left

namespace Upgrade

/-- The last component of an absolute path. -/
def lastComponent (path : String) : Option String :=
  some (String.ofList (path.toList.reverse.takeWhile (· ≠ '/')).reverse)

def first : String := "/a/vellum-codex-app-server"

def second : String := "/b/vellum-codex-app-server"

def absent : UserEnvironment := ⟨none, none⟩

/-- The lease of a bridge, taken while the variable was absent. -/
def leaseOf (value : String) : EnvironmentLease :=
  ⟨codexCliPath, none, value, "launch-1", 1⟩

theorem first_names_bridge : namesVellumBridge lastComponent first = true := by
  decide

theorem second_names_bridge : namesVellumBridge lastComponent second = true := by
  decide

/-- The upgrade to the second bridge, cut off between its two writes: nothing
can be acquired any more, and a release leaves the first bridge behind. -/
theorem cut_upgrade_is_stuck :
    runActions (leaseStep lastComponent) absent
        [.call (.acquire first "launch-1" 1) 2,
          .call (.acquire second "launch-1" 1) 1] =
      some ⟨some first, some (leaseOf second)⟩ ∧
    Refused lastComponent ⟨some first, some (leaseOf second)⟩ second ∧
    ¬ Refused lastComponent absent second ∧
    (completed lastComponent ⟨some first, some (leaseOf second)⟩ .release).value =
      some first := by
  decide

/-- The upgrade that runs to its end. -/
theorem upgrade_given_back :
    (completed lastComponent ⟨some second, some (leaseOf second)⟩ .release).value =
      none ∧
    ¬ Refused lastComponent ⟨some second, some (leaseOf second)⟩ first := by
  have hfirst : GuardedRun (leaseStep lastComponent) (CutWhereHarmless lastComponent)
      absent [.call (.acquire first "launch-1" 1) 2]
      ⟨some first, some (leaseOf first)⟩ :=
    GuardedRun.cons ⟨first_names_bridge, by rintro ⟨⟩⟩ (by decide) .nil
  have hlast : GuardedRun (leaseStep lastComponent) (CutWhereHarmless lastComponent)
      ⟨some first, some (leaseOf first)⟩
      [.call (.acquire second "launch-1" 1) 2]
      ⟨some second, some (leaseOf second)⟩ :=
    GuardedRun.cons ⟨second_names_bridge, by rintro ⟨⟩⟩ (by decide) .nil
  obtain ⟨hfree, hback⟩ := (variable_given_back lastComponent).2 absent _ _ _ _ rfl
    hfirst hlast
  refine ⟨(hback .release (Or.inl rfl)).2 rfl, ?_⟩
  intro hrefused
  exact absurd (hfree first first_names_bridge hrefused) (by decide)

end Upgrade

end Vellum.Enhanced

/-
Runs of an executable step function.  A step is a partial function from a
state and an action; a guarded run additionally records that every step met a
condition on the state before it, which is how a property that only holds on
some schedules is stated.
-/
import Mathlib

namespace Vellum

universe u v

variable {S : Type u} {A : Type v}

/-- Replay a list of actions; `none` as soon as one of them is not enabled. -/
def runActions (step : S → A → Option S) : S → List A → Option S
  | state, [] => some state
  | state, action :: rest =>
    (step state action).bind fun next => runActions step next rest

/-- A run whose steps all meet `ok`.  The condition sees the state before the
step and the action, never the state after it. -/
inductive GuardedRun (step : S → A → Option S) (ok : S → A → Prop)
    (start : S) : List A → S → Prop
  | nil : GuardedRun step ok start [] start
  | snoc {finish next : S} {actions : List A} {action : A}
      (run : GuardedRun step ok start actions finish)
      (hok : ok finish action) (hstep : step finish action = some next) :
      GuardedRun step ok start (actions ++ [action]) next

variable {step : S → A → Option S} {ok : S → A → Prop} {start finish : S}
  {actions : List A}

/-- The invariant rule: what holds at the start and is kept by every enabled
step that meets the condition holds at the end of the run. -/
theorem GuardedRun.invariant (run : GuardedRun step ok start actions finish)
    {Inv : S → Prop} (hstart : Inv start)
    (hstep : ∀ state action next, Inv state → ok state action →
      step state action = some next → Inv next) : Inv finish := by
  induction run with
  | nil => exact hstart
  | snoc run hok hnext ih => exact hstep _ _ _ ih hok hnext

theorem GuardedRun.cons {next : S} {action : A} (hok : ok start action)
    (hstep : step start action = some next)
    (run : GuardedRun step ok next actions finish) :
    GuardedRun step ok start (action :: actions) finish := by
  induction run with
  | nil => exact GuardedRun.snoc GuardedRun.nil hok hstep
  | snoc _ hok' hstep' ih => exact GuardedRun.snoc ih hok' hstep'

/-- Replay a list of actions while checking the condition before each one. -/
def runGuarded (step : S → A → Option S) (ok : S → A → Bool) :
    S → List A → Option S
  | state, [] => some state
  | state, action :: rest =>
    if ok state action then
      (step state action).bind fun next => runGuarded step ok next rest
    else none

theorem guardedRun_of_runGuarded {check : S → A → Bool}
    (hcheck : ∀ state action, check state action = true → ok state action)
    (hrun : runGuarded step check start actions = some finish) :
    GuardedRun step ok start actions finish := by
  induction actions generalizing start with
  | nil =>
    simp only [runGuarded, Option.some.injEq] at hrun
    subst hrun
    exact GuardedRun.nil
  | cons action rest ih =>
    by_cases hok : check start action = true
    · simp only [runGuarded, hok, ↓reduceIte] at hrun
      obtain ⟨next, hstep, hrest⟩ := Option.bind_eq_some_iff.mp hrun
      exact GuardedRun.cons (hcheck _ _ hok) hstep (ih hrest)
    · simp [runGuarded, hok] at hrun

end Vellum

/-
Operations that can be cut off.  An operation is a list of steps, each of them
atomic or torn: a torn step may leave one of several states behind.  A crash
comes between two steps or tears the next one.
-/
import Mathlib

namespace Vellum

universe u v

variable {S : Type u} {A : Type v}

/-- All steps in turn. -/
def runSteps (run : A → S → S) : List A → S → S
  | [], state => state
  | step :: steps, state => runSteps run steps (run step state)

/-- The states an operation can be left in: behind any number of its steps,
with the next one torn or not begun. -/
inductive CutOff (run : A → S → S) (torn : A → S → S → Prop) :
    List A → S → S → Prop
  | stop (steps : List A) (state : S) : CutOff run torn steps state state
  | tear {step : A} {state left : S} (steps : List A)
      (htorn : torn step state left) : CutOff run torn (step :: steps) state left
  | next {step : A} {steps : List A} {state left : S}
      (hrest : CutOff run torn steps (run step state) left) :
      CutOff run torn (step :: steps) state left

/-- A condition that holds before the operation, between any two steps, after
any torn one, and at the end. -/
def SurvivesCuts (run : A → S → S) (torn : A → S → S → Prop) (Holds : S → Prop) :
    List A → S → Prop
  | [], state => Holds state
  | step :: steps, state =>
    Holds state ∧ (∀ left, torn step state left → Holds left) ∧
      SurvivesCuts run torn Holds steps (run step state)

variable {run : A → S → S} {torn : A → S → S → Prop} {Holds : S → Prop}

theorem runSteps_append (steps more : List A) (state : S) :
    runSteps run (steps ++ more) state =
      runSteps run more (runSteps run steps state) := by
  induction steps generalizing state with
  | nil => rfl
  | cons step rest ih => exact ih (run step state)

theorem CutOff.finished (steps : List A) (state : S) :
    CutOff run torn steps state (runSteps run steps state) := by
  induction steps generalizing state with
  | nil => exact .stop [] state
  | cons step steps ih => exact .next (ih (run step state))

variable {steps : List A} {state : S}

theorem CutOff.append {more : List A} {left : S}
    (hcut : CutOff run torn more (runSteps run steps state) left) :
    CutOff run torn (steps ++ more) state left := by
  induction steps generalizing state with
  | nil => exact hcut
  | cons step rest ih => exact .next (ih hcut)

section

variable (hall : SurvivesCuts run torn Holds steps state)
include hall

theorem SurvivesCuts.start : Holds state := by
  cases steps with
  | nil => exact hall
  | cons step steps => exact hall.1

theorem SurvivesCuts.mono {Weaker : S → Prop}
    (hweaker : ∀ left, Holds left → Weaker left) :
    SurvivesCuts run torn Weaker steps state := by
  induction steps generalizing state with
  | nil => exact hweaker state hall
  | cons step rest ih =>
    exact ⟨hweaker state hall.1,
      fun left htorn => hweaker left (hall.2.1 left htorn), ih hall.2.2⟩

/-- The crash rule. -/
theorem SurvivesCuts.cutOff {left : S}
    (hcut : CutOff run torn steps state left) : Holds left := by
  induction hcut with
  | stop steps state => exact hall.start
  | tear steps htorn => exact hall.2.1 _ htorn
  | next _ ih => exact ih hall.2.2

theorem SurvivesCuts.finished : Holds (runSteps run steps state) :=
  hall.cutOff (CutOff.finished steps state)

end

theorem SurvivesCuts.atomic {step : A}
    (hatomic : ∀ left, ¬ torn step state left) (hstart : Holds state)
    (hrest : SurvivesCuts run torn Holds steps (run step state)) :
    SurvivesCuts run torn Holds (step :: steps) state :=
  ⟨hstart, fun left htorn => absurd htorn (hatomic left), hrest⟩

theorem SurvivesCuts.append {more : List A}
    (hall : SurvivesCuts run torn Holds steps state)
    (hmore : SurvivesCuts run torn Holds more (runSteps run steps state)) :
    SurvivesCuts run torn Holds (steps ++ more) state := by
  induction steps generalizing state with
  | nil => exact hmore
  | cons step steps ih => exact ⟨hall.1, hall.2.1, ih hall.2.2 hmore⟩

/-- The crash rule over many operations. -/
theorem SurvivesCuts.reach {steps : S → List A → Prop}
    (hkeep : ∀ state operation, Holds state → steps state operation →
      SurvivesCuts run torn Holds operation state) {first last : S}
    (hreach : Relation.ReflTransGen
      (fun state left => ∃ operation, steps state operation ∧
        CutOff run torn operation state left) first last)
    (hfirst : Holds first) : Holds last := by
  induction hreach with
  | refl => exact hfirst
  | tail _ hstep ih =>
    obtain ⟨operation, hsteps, hcut⟩ := hstep
    exact (hkeep _ operation ih hsteps).cutOff hcut

end Vellum

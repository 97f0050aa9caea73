/-
Programs that call on the world around them.  A program is a tree: each call
goes on with what is done for every answer it may get.  What the world may
answer is a relation, so one program is looked at from several sides: alone,
beside others, or cut off between two of its calls.
-/
import Mathlib

namespace Vellum

universe u

/-- A program that makes the calls `E` and gets the answers `Ans`. -/
inductive Program (E : Type) (Ans : E → Type) (α : Type) where
  | done (result : α)
  | call (op : E) (next : Ans op → Program E Ans α)

namespace Program

variable {E : Type} {Ans : E → Type} {α β : Type}

def bind (f : α → Program E Ans β) : Program E Ans α → Program E Ans β
  | .done result => f result
  | .call op next => .call op fun answer => (next answer).bind f

instance : Monad (Program E Ans) where
  pure := .done
  bind program f := program.bind f

/-- A call, with its answer as the result. -/
def perform (op : E) : Program E Ans (Ans op) := .call op .done

/-- A program that gives up at the first error. -/
abbrev Fallible (E : Type) (Ans : E → Type) :=
  ExceptT String (Program E Ans)

variable {S : Type u} (serves : S → (op : E) → Ans op → S → Prop)

/-- Every call is made where it is good, and every result comes where the
program promised it, whatever the world answers. -/
def Always (good : S → E → Prop) (post : S → α → Prop) :
    Program E Ans α → S → Prop
  | .done result, state => post state result
  | .call op next, state =>
    good state op ∧ ∀ answer after, serves state op answer after →
      (next answer).Always good post after

/-- The states a program can be left in: behind any number of its calls. -/
inductive Reaches : Program E Ans α → S → S → Prop
  | stop (program : Program E Ans α) (state : S) :
      Reaches program state state
  | step {op : E} {next : Ans op → Program E Ans α} {answer : Ans op}
      {state after last : S} (hserves : serves state op answer after)
      (hrest : Reaches (next answer) after last) :
      Reaches (.call op next) state last

/-- A result that the program can end with. -/
inductive Ends : Program E Ans α → α → Prop
  | done (result : α) : Ends (.done result) result
  | call {op : E} {next : Ans op → Program E Ans α} {answer : Ans op}
      {result : α} (hrest : Ends (next answer) result) :
      Ends (.call op next) result

variable {serves} {good : S → E → Prop} {state : S}

variable {program : Program E Ans α} {post : S → α → Prop}

theorem Always.mono {weaker : S → α → Prop}
    (halways : program.Always serves good post state)
    (hweaker : ∀ state result, post state result → weaker state result) :
    program.Always serves good weaker state := by
  induction program generalizing state with
  | done result => exact hweaker state result halways
  | call op next ih =>
    refine ⟨halways.1, ?_⟩
    intro answer after hserves
    exact ih answer (halways.2 answer after hserves)

/-- The rule of sequencing. -/
theorem Always.bind {f : α → Program E Ans β} {post : S → β → Prop}
    (halways : program.Always serves good
      (fun state result => (f result).Always serves good post state) state) :
    (program.bind f).Always serves good post state := by
  induction program generalizing state with
  | done result => exact halways
  | call op next ih =>
    refine ⟨halways.1, ?_⟩
    intro answer after hserves
    exact ih answer (halways.2 answer after hserves)

/-- What goes first in a sequence is walked through as well. -/
theorem Always.front {f : α → Program E Ans β} {post : S → β → Prop}
    (halways : (program.bind f).Always serves good post state) :
    program.Always serves good (fun _ _ => True) state := by
  induction program generalizing state with
  | done result => trivial
  | call op next ih =>
    refine ⟨halways.1, ?_⟩
    intro answer after hserves
    exact ih answer (halways.2 answer after hserves)

/-- The rule of sequencing for programs that give up at the first error. -/
theorem Always.attempt {program : Fallible E Ans α}
    {f : α → Fallible E Ans β} {post : S → Except String β → Prop}
    (halways : program.run.Always serves good
      (fun state result => match result with
        | .ok value => (f value).run.Always serves good post state
        | .error message => post state (.error message)) state) :
    (program >>= f).run.Always serves good post state := by
  apply Always.bind
  apply halways.mono
  intro state result hresult
  cases result with
  | ok value => exact hresult
  | error message => exact hresult

/-- What a program promises holds of every result that it ends with. -/
theorem Always.ended {result : α}
    (hserves : ∀ state op answer, ∃ after,
      serves state op answer after)
    (halways : program.Always serves good post state)
    (hends : program.Ends result) : ∃ last, post last result := by
  induction hends generalizing state with
  | done result => exact ⟨state, halways⟩
  | call hrest ih =>
    obtain ⟨after, hafter⟩ := hserves state _ _
    exact ih (halways.2 _ after hafter)

/-- A program that is walked through from a view of the world keeps the world
as the view has it, wherever it is cut off. -/
theorem Always.simulated {W : Type u} {real : W → (op : E) → Ans op → W → Prop}
    {Sim : W → S → Prop} {world last : W}
    (hstep : ∀ world view op answer after, Sim world view → good view op →
      real world op answer after →
      ∃ next, serves view op answer next ∧ Sim after next)
    (halways : program.Always serves good post state) (hsim : Sim world state)
    (hreaches : Reaches real program world last) : ∃ view, Sim last view := by
  induction hreaches generalizing state with
  | stop program world => exact ⟨state, hsim⟩
  | step hreal hrest ih =>
    obtain ⟨next, hsees, hnext⟩ := hstep _ _ _ _ _ hsim halways.1 hreal
    exact ih (halways.2 _ next hsees) hnext

/-- Give a program its answers one after the other. -/
def feed {O : Type} (serve : S → (op : E) → O → Option (Ans op × S))
    (meets : S → (op : E) → Ans op → Bool) :
    Program E Ans α → S → List O → Option (Program E Ans α × S)
  | program, state, [] => some (program, state)
  | .done _, _, _ :: _ => none
  | .call op next, state, outcome :: rest =>
    match serve state op outcome with
    | some (answer, after) =>
      if meets state op answer then
        feed serve meets (next answer) after rest
      else none
    | none => none

theorem reaches_of_feed {O : Type}
    {serve : S → (op : E) → O → Option (Ans op × S)}
    {meets : S → (op : E) → Ans op → Bool} {left : Program E Ans α} {last : S}
    {outcomes : List O}
    (hfeed : feed serve meets program state outcomes = some (left, last)) :
    Reaches (fun before op answer after =>
      (∃ outcome, serve before op outcome = some (answer, after)) ∧
        meets before op answer = true) program state last := by
  induction outcomes generalizing program state with
  | nil =>
    rw [feed] at hfeed
    cases hfeed
    exact .stop _ _
  | cons outcome rest ih =>
    cases program with
    | done result => cases hfeed
    | call op next =>
      rw [feed] at hfeed
      split at hfeed
      · rename_i answer after hserve
        split at hfeed
        · rename_i hmeets
          exact .step ⟨⟨outcome, hserve⟩, hmeets⟩ (ih hfeed)
        · cases hfeed
      · cases hfeed

end Program

end Vellum

/-
Logs that only grow.  A law about a log says of each entry what holds of the
entries before it; writing one more entry keeps the law if it holds of that
entry.
-/
import Mathlib

namespace Vellum

open List

universe u

variable {E : Type u}

/-- Each entry of the log is related as `P` says to the entries before it. -/
def Throughout (P : List E → E → Prop) (log : List E) : Prop :=
  ∀ before entry after, log = before ++ entry :: after → P before entry

namespace Throughout

variable {P : List E → E → Prop}

theorem nil : Throughout P [] := by
  intro before entry after hlog
  cases before with
  | nil => cases hlog
  | cons head rest => cases hlog

theorem snoc {log : List E} (hlog : Throughout P log) {entry : E}
    (hentry : P log entry) : Throughout P (log ++ [entry]) := by
  intro before found after heq
  induction after using reverseRecOn with
  | nil =>
    obtain ⟨hbefore, hfound⟩ := append_inj' heq rfl
    rw [← hbefore, ← (List.cons.inj hfound).1]
    exact hentry
  | append_singleton rest last _ =>
    rw [← cons_append, ← append_assoc] at heq
    exact hlog before found rest (append_inj' heq rfl).1

/-- An entry the law says nothing about. -/
theorem append_of_free {log : List E} (hlog : Throughout P log)
    {entries : List E} (hfree : ∀ before, ∀ entry ∈ entries, P before entry) :
    Throughout P (log ++ entries) := by
  induction entries generalizing log with
  | nil => rwa [append_nil]
  | cons entry rest ih =>
    rw [append_cons]
    exact ih (hlog.snoc (hfree log entry mem_cons_self))
      fun before other hother =>
        hfree before other (mem_cons_of_mem entry hother)

end Throughout

end Vellum

/-
The tool states of a rebuilt checkpoint (`compaction.rs`, `extract_tool_state`).
An output is told to belong to an open call by its id, but what it completes is
the last call so far of that call's tool.  The two are the same call as long as
no tool is called again between a call of it and its output.
-/
import Vellum.Library.HashMap
import Vellum.Proxy.TailUnits

namespace Vellum.Proxy

open List Option HashMap

structure ToolState where
  name : String
  status : String
  detail : String
deriving DecidableEq

def callId (item : Json) : String := (toolPairId item).getD ""

def toolName (item : Json) : String :=
  ((item.get "name").bind Json.asStr).getD "tool"

/-- The loop variables of `extract_tool_state`; an open call is kept with its
tool. -/
structure ToolScan where
  states : List ToolState := []
  pending : HashMap String String := HashMap.empty

def openCall (pending : HashMap String String) (call : Json) :
    HashMap String String :=
  if callId call = "" then pending
  else pending.insert (callId call) (toolName call)

/-- The open call that an item closes. -/
def closedCall (pending : HashMap String String) (item : Json) :
    Option (String × String) :=
  if isToolOutput item then
    (toolPairId item).bind fun id => (pending.get id).map (id, ·)
  else none

def ToolState.complete (state : ToolState) : ToolState :=
  { state with status := "completed" }

def completeFirst (name : String) : List ToolState → List ToolState
  | [] => []
  | state :: rest =>
    if state.name = name then state.complete :: rest
    else state :: completeFirst name rest

/-- The search goes from the end. -/
def completeLast (name : String) (states : List ToolState) :
    List ToolState :=
  (completeFirst name states.reverse).reverse

def ToolScan.visit (scan : ToolScan) (item : Json) : ToolScan :=
  if isToolCall item then
    { states := scan.states ++ [⟨toolName item, "pending", ""⟩]
      pending := openCall scan.pending item }
  else
    match closedCall scan.pending item with
    | some (id, name) =>
      { states := completeLast name scan.states
        pending := scan.pending.remove id }
    | none => scan

def maxToolStates : Nat := 24

def extractToolState (items : List Json) : List ToolState :=
  (items.foldl ToolScan.visit {}).states.take maxToolStates

/-! What the states should be. -/

/-- The output is one for the call with the id. -/
def answers (id : String) (item : Json) : Bool :=
  isToolOutput item && toolPairId item = some id

/-- A state of a call with whether it was completed. -/
def stateOf (call : Json) (completed : Bool) : ToolState :=
  ⟨toolName call, if completed then "completed" else "pending", ""⟩

/-- Each call is completed by an output with its own id behind it. -/
def ownStates : List Json → List ToolState
  | [] => []
  | item :: rest =>
    if isToolCall item then
      stateOf item (rest.any (answers (callId item))) :: ownStates rest
    else ownStates rest

/-- The calls of a history have ids of their own. -/
structure DistinctCallIds (items : List Json) : Prop where
  named : ∀ item ∈ items, isToolCall item = true → callId item ≠ ""
  nodup : ((items.filter isToolCall).map callId).Nodup

/-- What stands before the first output for a call. -/
def untilAnswered (id : String) (rest : List Json) : List Json :=
  rest.takeWhile fun item => !answers id item

/-- If the call is answered, its tool is not called again before that. -/
def Undisturbed (call : Json) (rest : List Json) : Prop :=
  rest.any (answers (callId call)) = true →
    ∀ item ∈ untilAnswered (callId call) rest, isToolCall item = true →
      toolName item ≠ toolName call

/-! What the loop makes of the states. -/

/-- The next output that completes a call of the tool comes before the tool is
called again. -/
def hit (name : String) : HashMap String String → List Json → Bool
  | _, [] => false
  | pending, item :: rest =>
    if isToolCall item then
      decide (toolName item ≠ name) && hit name (openCall pending item) rest
    else
      match closedCall pending item with
      | some (id, closed) =>
        decide (closed = name) || hit name (pending.remove id) rest
      | none => hit name pending rest

def loopStates : HashMap String String → List Json → List ToolState
  | _, [] => []
  | pending, item :: rest =>
    if isToolCall item then
      stateOf item (hit (toolName item) (openCall pending item) rest) ::
        loopStates (openCall pending item) rest
    else
      match closedCall pending item with
      | some (id, _) => loopStates (pending.remove id) rest
      | none => loopStates pending rest

namespace ToolState

def completeIf (completed : Bool) (state : ToolState) : ToolState :=
  if completed then state.complete else state

@[simp]
theorem name_completeIf (completed : Bool) (state : ToolState) :
    (state.completeIf completed).name = state.name := by
  cases completed <;> rfl

theorem completeIf_completeIf (first second : Bool) (state : ToolState) :
    (state.completeIf first).completeIf second =
      state.completeIf (first || second) := by
  cases first <;> cases second <;> rfl

def isLast (name : String) (later : List ToolState) : Bool :=
  later.all fun state => decide (state.name ≠ name)

/-- Complete the last state of each tool that is hit. -/
def completeHit (isHit : String → Bool) : List ToolState → List ToolState
  | [] => []
  | state :: rest =>
    state.completeIf (isHit state.name && isLast state.name rest) ::
      completeHit isHit rest

theorem isLast_completeHit (isHit : String → Bool) (name : String)
    (states : List ToolState) :
    isLast name (completeHit isHit states) = isLast name states := by
  induction states with
  | nil => rfl
  | cons state rest ih =>
    simp only [isLast] at ih
    simp only [completeHit, isLast, all_cons, name_completeIf, ih]

theorem completeHit_completeHit (first second : String → Bool)
    (states : List ToolState) :
    completeHit second (completeHit first states) =
      completeHit (fun name => first name || second name) states := by
  induction states with
  | nil => rfl
  | cons state rest ih =>
    simp only [completeHit, ih, name_completeIf, isLast_completeHit,
      completeIf_completeIf, Bool.and_or_distrib_right]

theorem completeHit_append (isHit : String → Bool) (states : List ToolState)
    (state : ToolState) :
    completeHit isHit (states ++ [state]) =
      completeHit (fun name => decide (state.name ≠ name) && isHit name)
        states ++ [state.completeIf (isHit state.name)] := by
  induction states with
  | nil => simp [completeHit, isLast]
  | cons first rest ih =>
    simp only [cons_append, completeHit, ih]
    congr 2
    simp only [isLast, all_append, all_cons, all_nil,
      Bool.and_true]
    cases isHit first.name <;> simp [Bool.and_comm]

theorem completeHit_none (states : List ToolState) :
    completeHit (fun _ => false) states = states := by
  induction states with
  | nil => rfl
  | cons state rest ih =>
    rw [completeHit, ih]
    rfl

theorem completeLast_eq (name : String) (states : List ToolState) :
    completeLast name states =
      completeHit (fun other => decide (name = other)) states := by
  induction states using reverseRecOn with
  | nil => rfl
  | append_singleton states state ih =>
    rw [completeHit_append, completeLast, reverse_append,
      reverse_singleton, singleton_append, completeFirst]
    by_cases hname : state.name = name
    · have hnone : (fun other => decide (state.name ≠ other) &&
          decide (name = other)) = fun _ => false := by
        funext other
        by_cases hother : name = other <;> simp [hname, hother]
      rw [if_pos hname, hnone, completeHit_none]
      simp [completeIf, hname]
    · have hsame : (fun other => decide (state.name ≠ other) &&
          decide (name = other)) = fun other => decide (name = other) := by
        funext other
        by_cases hother : name = other
        · subst hother
          simp [hname]
        · simp [hother]
      rw [if_neg hname, hsame, ← ih, completeLast]
      simp [completeIf, Ne.symm hname]

end ToolState

open ToolState

variable (items : List Json) {pending : HashMap String String} {item : Json}
  {id : String} {rest : List Json} {name : String}

/-- The loop completes the last state of each tool that is hit, and adds the
states of the calls that are still to come. -/
theorem states_foldl (scan : ToolScan) :
    (items.foldl ToolScan.visit scan).states =
      completeHit (fun name => hit name scan.pending items) scan.states ++
        loopStates scan.pending items := by
  induction items generalizing scan with
  | nil =>
    simp only [hit, loopStates, completeHit_none, foldl_nil,
      append_nil]
  | cons item rest ih =>
    rw [foldl_cons, ih, ToolScan.visit]
    by_cases hcall : isToolCall item
    · simp only [hcall, if_true, loopStates, hit, completeHit_append,
        append_assoc, singleton_append]
      congr 2
      cases hit (toolName item) (openCall scan.pending item) rest <;> rfl
    · simp only [hcall, loopStates, hit]
      cases hclosed : closedCall scan.pending item with
      | none => rfl
      | some closed =>
        simp only [completeLast_eq, Bool.false_eq_true, if_false,
          completeHit_completeHit]

theorem extractToolState_eq :
    extractToolState items =
      (loopStates HashMap.empty items).take maxToolStates := by
  rw [extractToolState, states_foldl]
  rfl

/-! Calls and their outputs. -/

theorem not_isToolOutput_of_isToolCall (hcall : isToolCall item = true) :
    isToolOutput item = false := by
  rw [isToolCall] at hcall
  rw [isToolOutput]
  split at hcall
  · simp only [decide_eq_true_eq, mem_cons, not_mem_nil,
      or_false] at hcall
    rcases hcall with rfl | rfl | rfl | rfl | rfl | rfl <;> decide
  · cases hcall

theorem answers_of_isToolCall (hcall : isToolCall item = true) (id : String) :
    answers id item = false := by
  rw [answers, not_isToolOutput_of_isToolCall hcall, Bool.false_and]

theorem answers_iff :
    answers id item = true ↔
      isToolOutput item = true ∧ toolPairId item = some id := by
  rw [answers, Bool.and_eq_true, decide_eq_true_eq]

theorem closedCall_eq_some_iff : closedCall pending item = some (id, name) ↔
      answers id item = true ∧ pending.get id = some name := by
  rw [closedCall, answers_iff]
  constructor
  · intro hclosed
    split at hclosed
    · rename_i houtput
      obtain ⟨found, hid, hmap⟩ := bind_eq_some_iff.mp hclosed
      obtain ⟨closed, hget, heq⟩ := map_eq_some_iff.mp hmap
      cases heq
      exact ⟨⟨houtput, hid⟩, hget⟩
    · cases hclosed
  · rintro ⟨⟨houtput, hid⟩, hget⟩
    rw [if_pos houtput, hid, bind_some, hget, map_some]

/-- An output for the call comes, and before it the tool is not called. -/
structure ClosedFirst (id name : String) (rest : List Json) : Prop where
  answered : rest.any (answers id) = true
  quiet : ∀ item ∈ untilAnswered id rest, isToolCall item = true →
    toolName item ≠ name

theorem closedFirst_cons (hitem : answers id item = false) :
    ClosedFirst id name (item :: rest) ↔
      (isToolCall item = true → toolName item ≠ name) ∧
        ClosedFirst id name rest := by
  have huntil : untilAnswered id (item :: rest) =
      item :: untilAnswered id rest := by
    rw [untilAnswered, takeWhile_cons_of_pos (by simp [hitem])]
    rfl
  have hany : (item :: rest).any (answers id) = rest.any (answers id) := by
    rw [any_cons, hitem, Bool.false_or]
  constructor
  · rintro ⟨hanswered, hquiet⟩
    rw [hany] at hanswered
    rw [huntil, forall_mem_cons] at hquiet
    exact ⟨hquiet.1, hanswered, hquiet.2⟩
  · rintro ⟨hfirst, hanswered, hquiet⟩
    constructor
    · rwa [hany]
    · rw [huntil, forall_mem_cons]
      exact ⟨hfirst, hquiet⟩

theorem closedFirst_of_answers (hitem : answers id item = true) (name : String)
    (rest : List Json) : ClosedFirst id name (item :: rest) := by
  constructor
  · rw [any_cons, hitem, Bool.true_or]
  · intro other hother
    rw [untilAnswered, takeWhile_cons_of_neg (by simp [hitem])] at hother
    exact absurd hother not_mem_nil

/-- The ids of the open calls are not used again. -/
def Fresh (pending : HashMap String String) (items : List Json) : Prop :=
  ∀ id name, pending.get id = some name →
    id ∉ (items.filter isToolCall).map callId

theorem DistinctCallIds.tail (hids : DistinctCallIds (item :: rest)) :
    DistinctCallIds rest := by
  constructor
  · intro other hother
    exact hids.named other (mem_cons_of_mem item hother)
  · have hnodup := hids.nodup
    rw [filter_cons] at hnodup
    split at hnodup
    · exact (nodup_cons.mp hnodup).2
    · exact hnodup

theorem Fresh.tail (hfresh : Fresh pending (item :: rest)) :
    Fresh pending rest := by
  intro id name hget hmem
  apply hfresh id name hget
  rw [filter_cons]
  split
  · exact mem_cons_of_mem _ hmem
  · exact hmem

theorem Fresh.remove {items : List Json} (hfresh : Fresh pending items)
    (id : String) : Fresh (pending.remove id) items := by
  intro other name hget
  exact hfresh other name (get_of_remove hget)

section OpenCall

variable {pending : HashMap String String} {call : Json} {rest : List Json}
  (hids : DistinctCallIds (call :: rest)) (hcall : isToolCall call = true)

include hids hcall

theorem get_openCall (id : String) : (openCall pending call).get id =
    if id = callId call then some (toolName call) else pending.get id := by
  rw [openCall, if_neg (hids.named call mem_cons_self hcall),
    get_insert]

theorem Fresh.openCall (hfresh : Fresh pending (call :: rest)) :
    Fresh (openCall pending call) rest := by
  intro id name hget
  rw [get_openCall hids hcall] at hget
  split at hget
  · rename_i hid
    have hnodup := hids.nodup
    rw [filter_cons_of_pos hcall, map_cons] at hnodup
    rw [hid]
    exact (nodup_cons.mp hnodup).1
  · exact hfresh.tail id name hget

omit hids in
theorem Fresh.ne_callId (hfresh : Fresh pending (call :: rest))
    {id name : String} (hget : pending.get id = some name) : id ≠ callId call := by
  rintro rfl
  apply hfresh _ name hget
  rw [filter_cons_of_pos hcall, map_cons]
  exact mem_cons_self

end OpenCall

/-- The tool is hit by an output for an open call of it. -/
theorem hit_iff {items : List Json} (hids : DistinctCallIds items)
    (hfresh : Fresh pending items) :
    hit name pending items = true ↔
      ∃ id, pending.get id = some name ∧ ClosedFirst id name items := by
  induction items generalizing pending with
  | nil =>
    rw [hit]
    constructor
    · intro hfalse
      cases hfalse
    · rintro ⟨id, -, hanswered, -⟩
      cases hanswered
  | cons item rest ih =>
    rw [hit]
    by_cases hcall : isToolCall item = true
    · rw [if_pos hcall, Bool.and_eq_true, decide_eq_true_eq,
        ih hids.tail (hfresh.openCall hids hcall)]
      constructor
      · rintro ⟨hname, id, hget, hclosed⟩
        rw [get_openCall hids hcall] at hget
        split at hget
        · exact absurd (some.inj hget) hname
        · exact ⟨id, hget, (closedFirst_cons
            (answers_of_isToolCall hcall id)).mpr ⟨fun _ => hname, hclosed⟩⟩
      · rintro ⟨id, hget, hclosed⟩
        obtain ⟨hname, hrest⟩ :=
          (closedFirst_cons (answers_of_isToolCall hcall id)).mp hclosed
        refine ⟨hname hcall, id, ?_, hrest⟩
        rw [get_openCall hids hcall, if_neg (hfresh.ne_callId hcall hget)]
        exact hget
    · rw [if_neg hcall]
      cases hclosedCall : closedCall pending item with
      | none =>
        dsimp only
        rw [ih hids.tail hfresh.tail]
        refine exists_congr fun id => and_congr_right fun hget => ?_
        have hitem : answers id item = false := by
          rw [Bool.eq_false_iff]
          intro hanswers
          rw [closedCall_eq_some_iff.mpr ⟨hanswers, hget⟩] at hclosedCall
          cases hclosedCall
        rw [closedFirst_cons hitem]
        exact (and_iff_right fun hyes => absurd hyes hcall).symm
      | some closed =>
        obtain ⟨id, closed⟩ := closed
        obtain ⟨hanswers, hopen⟩ := closedCall_eq_some_iff.mp hclosedCall
        have hother : ∀ other, other ≠ id → answers other item = false := by
          intro other hne
          rw [Bool.eq_false_iff]
          intro hsame
          have hpair := (answers_iff.mp hsame).2
          rw [(answers_iff.mp hanswers).2, some.injEq] at hpair
          exact hne hpair.symm
        dsimp only
        rw [Bool.or_eq_true, decide_eq_true_eq,
          ih hids.tail (hfresh.tail.remove id)]
        constructor
        · rintro (rfl | ⟨other, hget, hclosed⟩)
          · exact ⟨id, hopen, closedFirst_of_answers hanswers _ _⟩
          · rw [get_remove] at hget
            split at hget
            · cases hget
            · rename_i hne
              exact ⟨other, hget, (closedFirst_cons (hother other hne)).mpr
                ⟨fun hyes => absurd hyes hcall, hclosed⟩⟩
        · rintro ⟨other, hget, hclosed⟩
          by_cases hne : other = id
          · subst hne
            rw [hopen, some.injEq] at hget
            exact .inl hget
          · refine .inr ⟨other, ?_,
              ((closedFirst_cons (hother other hne)).mp hclosed).2⟩
            rw [get_remove, if_neg hne]
            exact hget

/-- No open call is disturbed by what is still to come. -/
def OpenUndisturbed (pending : HashMap String String) (items : List Json) :
    Prop :=
  ∀ id name, pending.get id = some name → items.any (answers id) = true →
    ∀ item ∈ untilAnswered id items, isToolCall item = true →
      toolName item ≠ name

/-- Behind calls that are not disturbed, a call gets its own state exactly if
it is not disturbed either. -/
theorem hit_openCall_iff {call : Json} (hids : DistinctCallIds (call :: rest))
    (hcall : isToolCall call = true) (hfresh : Fresh pending (call :: rest))
    (hopen : OpenUndisturbed pending (call :: rest)) :
    hit (toolName call) (openCall pending call) rest =
        rest.any (answers (callId call)) ↔ Undisturbed call rest := by
  have hhit : hit (toolName call) (openCall pending call) rest = true ↔
      ClosedFirst (callId call) (toolName call) rest := by
    rw [hit_iff hids.tail (hfresh.openCall hids hcall)]
    constructor
    · rintro ⟨id, hget, hclosed⟩
      rw [get_openCall hids hcall] at hget
      split at hget
      · rename_i hid
        rwa [hid] at hclosed
      · -- an open call of the tool is disturbed by this one
        have hanswers := answers_of_isToolCall hcall id
        have hany : (call :: rest).any (answers id) = true := by
          rw [any_cons, hanswers, Bool.false_or]
          exact hclosed.answered
        refine absurd rfl (hopen id _ hget hany call ?_ hcall)
        rw [untilAnswered, takeWhile_cons_of_pos (by simp [hanswers])]
        exact mem_cons_self
    · intro hclosed
      exact ⟨callId call, by rw [get_openCall hids hcall, if_pos rfl], hclosed⟩
  rw [Bool.eq_iff_iff, hhit]
  constructor
  · intro hsame hany
    exact (hsame.mpr hany).quiet
  · intro hundisturbed
    exact ⟨fun hclosed => hclosed.answered,
      fun hany => ⟨hany, hundisturbed hany⟩⟩

/-- The first calls, up to a number, are not disturbed. -/
def FirstUndisturbed (limit : Nat) (items : List Json) : Prop :=
  ∀ front call rest, items = front ++ call :: rest → isToolCall call = true →
    front.countP isToolCall < limit → Undisturbed call rest

theorem firstUndisturbed_zero : FirstUndisturbed 0 items := by
  intro front call rest _ _ hlimit
  exact absurd hlimit (Nat.not_lt_zero _)

theorem firstUndisturbed_call {call : Json} (hcall : isToolCall call = true)
    (limit : Nat) :
    FirstUndisturbed (limit + 1) (call :: rest) ↔
      Undisturbed call rest ∧ FirstUndisturbed limit rest := by
  constructor
  · intro hall
    refine ⟨hall [] call rest rfl hcall (Nat.succ_pos limit), ?_⟩
    rintro front other back rfl hother hlimit
    apply hall (call :: front) other back rfl hother
    rw [countP_cons_of_pos hcall]
    omega
  · rintro ⟨hfirst, hrest⟩ front other back heq hother hlimit
    cases front with
    | nil =>
      cases heq
      exact hfirst
    | cons item front =>
      cases heq
      rw [countP_cons_of_pos hcall] at hlimit
      exact hrest front other back rfl hother (by omega)

theorem firstUndisturbed_other (hitem : ¬ isToolCall item = true)
    (limit : Nat) :
    FirstUndisturbed limit (item :: rest) ↔ FirstUndisturbed limit rest := by
  constructor
  · rintro hall front other back rfl hother hlimit
    apply hall (item :: front) other back rfl hother
    rwa [countP_cons_of_neg hitem]
  · intro hrest front other back heq hother hlimit
    cases front with
    | nil =>
      cases heq
      exact absurd hother hitem
    | cons first front =>
      cases heq
      rw [countP_cons_of_neg hitem] at hlimit
      exact hrest front other back rfl hother hlimit

theorem OpenUndisturbed.other (hopen : OpenUndisturbed pending (item :: rest))
    (hget : pending.get id = some name) (hitem : answers id item = false)
    (hany : rest.any (answers id) = true) :
    ∀ other ∈ untilAnswered id rest, isToolCall other = true →
      toolName other ≠ name := by
  have hwhole : (item :: rest).any (answers id) = true := by
    rw [any_cons, hitem, Bool.false_or]
    exact hany
  intro other hother
  apply hopen id name hget hwhole other
  rw [untilAnswered, takeWhile_cons_of_pos (by simp [hitem])]
  exact mem_cons_of_mem item hother

theorem stateOf_inj (call : Json) (left right : Bool) :
    stateOf call left = stateOf call right ↔ left = right := by
  cases left <;> cases right <;> simp [stateOf]

/-- The states of the first calls are their own exactly if these calls are not
disturbed. -/
theorem loopStates_eq_iff {items : List Json} (hids : DistinctCallIds items)
    (hfresh : Fresh pending items) (hopen : OpenUndisturbed pending items)
    (limit : Nat) :
    (loopStates pending items).take limit = (ownStates items).take limit ↔
      FirstUndisturbed limit items := by
  induction items generalizing pending limit with
  | nil =>
    refine iff_of_true rfl ?_
    intro front call rest heq
    cases front <;> cases heq
  | cons item rest ih =>
    by_cases hcall : isToolCall item = true
    · cases limit with
      | zero => exact iff_of_true rfl (firstUndisturbed_zero _)
      | succ limit =>
        have hfirst := hit_openCall_iff hids hcall hfresh hopen
        rw [firstUndisturbed_call hcall, loopStates, if_pos hcall,
          ownStates, if_pos hcall, take_succ_cons,
          take_succ_cons, List.cons.injEq, stateOf_inj, hfirst]
        refine and_congr_right fun hundisturbed => ?_
        apply ih hids.tail (hfresh.openCall hids hcall)
        intro id name hget hany
        rw [get_openCall hids hcall] at hget
        split at hget
        · rename_i hid
          cases hget
          subst hid
          exact hundisturbed hany
        · exact hopen.other hget (answers_of_isToolCall hcall id) hany
    · rw [firstUndisturbed_other hcall, loopStates, if_neg hcall,
        ownStates, if_neg hcall]
      cases hclosedCall : closedCall pending item with
      | none =>
        apply ih hids.tail hfresh.tail
        intro id name hget hany
        refine hopen.other hget (Bool.eq_false_iff.mpr ?_) hany
        intro hanswers
        rw [closedCall_eq_some_iff.mpr ⟨hanswers, hget⟩] at hclosedCall
        cases hclosedCall
      | some closed =>
        obtain ⟨id, closed⟩ := closed
        have hanswers := (closedCall_eq_some_iff.mp hclosedCall).1
        apply ih hids.tail (hfresh.tail.remove id)
        intro other name hget hany
        rw [get_remove] at hget
        split at hget
        · cases hget
        · rename_i hne
          refine hopen.other hget (Bool.eq_false_iff.mpr ?_) hany
          intro hsame
          have hpair := (answers_iff.mp hsame).2
          rw [(answers_iff.mp hanswers).2, some.injEq] at hpair
          exact hne hpair.symm

/-- The tool states are those of the calls' own outputs exactly if none of the
listed calls is disturbed. -/
theorem extractToolState_iff (items : List Json)
    (hids : DistinctCallIds items) :
    extractToolState items = (ownStates items).take maxToolStates ↔
      ∀ front call rest, items = front ++ call :: rest →
        isToolCall call = true → front.countP isToolCall < maxToolStates →
        Undisturbed call rest := by
  rw [extractToolState_eq]
  apply loopStates_eq_iff hids
  · intro id name hget
    cases hget
  · intro id name hget
    cases hget

namespace ParallelCalls

def call (id : String) : Json :=
  .obj [("type", .str "function_call"), ("call_id", .str id),
    ("name", .str "shell")]

def output (id : String) : Json :=
  .obj [("type", .str "function_call_output"), ("call_id", .str id)]

/-- Two calls one after the other. -/
def sequential : List Json := [call "a", output "a", call "b"]

/-- Two calls at once, of which the first is answered. -/
def parallel : List Json := [call "a", call "b", output "a"]

theorem sequential_distinct : DistinctCallIds sequential :=
  ⟨by decide, by decide⟩

theorem sequential_iff :
    extractToolState sequential = (ownStates sequential).take maxToolStates ↔
      ∀ front call rest, sequential = front ++ call :: rest →
        isToolCall call = true → front.countP isToolCall < maxToolStates →
        Undisturbed call rest :=
  extractToolState_iff sequential sequential_distinct

/-- The output of the first call completes the second one. -/
theorem parallel_completes_the_wrong_call :
    ¬ ∀ items : List Json, DistinctCallIds items →
      extractToolState items = (ownStates items).take maxToolStates := by
  intro hall
  exact absurd (hall parallel ⟨by decide, by decide⟩) (by decide)

end ParallelCalls

end Vellum.Proxy

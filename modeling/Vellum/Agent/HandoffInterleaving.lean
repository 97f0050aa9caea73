/-
Starts and polls of one handoff that run at the same time
(`vellum-remote-agent/src/handoff.rs`).  A start holds the host's lock; a poll
decides by the record it reads first whether it takes the lock, and may save
without it what it makes of the record it reads next.  What was saved stays as
long as no such save races with another call.
-/
import Vellum.Agent.HandoffRuns
import Vellum.Library.StepRun

namespace Vellum.Agent

open List Option

/-- A start or a poll that is under way, and what it knows. -/
structure Running where
  explicit : Bool
  program : Program HandoffOp HandoffAnswer (Except String HandoffStatus)
  view : View := {}

structure HandoffSystem where
  host : Host := {}
  /-- The call that holds the lock. -/
  lock : Option Nat := none
  calls : List Running := []

inductive HandoffAction where
  | start (request : StartRequest)
  | poll (request : ResultRequest)
  /-- The next step of a call. -/
  | answer (i : Nat) (outcome : Outcome)
  | crash (i : Nat)

def Running.crashed : Running :=
  { explicit := false, program := .done (.error "crashed") }

/-- The lock once a call no longer has it. -/
def freed (lock : Option Nat) (i : Nat) : Option Nat :=
  if lock = some i then none else lock

/-- The lock after a step of a call; it is given to one call at a time. -/
def lockAfter (lock : Option Nat) (i : Nat) :
    (op : HandoffOp) → HandoffAnswer op → Option (Option Nat)
  | .acquireLock, .ok _ => if lock = none then some (some i) else none
  | .releaseLock, _ => some (freed lock i)
  | _, _ => some lock

namespace HandoffSystem

def answer (crates : HandoffCrates) (system : HandoffSystem) (i : Nat)
    (outcome : Outcome) : Option HandoffSystem :=
  match system.calls[i]? with
  | some ⟨explicit, .call op next, view⟩ =>
    (system.host.serve explicit op outcome).bind fun served =>
      (lockAfter system.lock i op served.1).map fun lock =>
        { host := served.2
          lock
          calls := system.calls.set i
            ⟨explicit, next served.1, view.after crates op served.1⟩ }
  | _ => none

/-- The starts and polls are of one handoff. -/
def step (crates : HandoffCrates) (pathsRoot id : String)
    (system : HandoffSystem) : HandoffAction → Option HandoffSystem
  | .start request =>
    if request.operationId = id then
      let call : Running :=
        { explicit := true
          program := (startWith crates pathsRoot request).run }
      some { system with calls := system.calls ++ [call] }
    else none
  | .poll request =>
    if request.handoffId = id then
      let call : Running :=
        { explicit := false
          program := (resultWith crates pathsRoot request).run }
      some { system with calls := system.calls ++ [call] }
    else none
  | .answer i outcome => system.answer crates i outcome
  | .crash i =>
    if i < system.calls.length then
      some { system with
        lock := freed system.lock i
        calls := system.calls.set i .crashed }
    else none

/-- A poll that does not hold the lock writes only while nobody holds it and
the record is still the one the poll has read. -/
def WritesAlone (system : HandoffSystem) : HandoffAction → Prop
  | .answer i _ => ∀ record next view,
      system.calls[i]? = some ⟨false, .call (.writeRecord record) next, view⟩ →
      system.lock ≠ some i →
      system.lock = none ∧ ∃ base, view.knowledge = .stored base ∧
        system.host.record = some base
  | _ => True

end HandoffSystem

/-- Nothing that was saved is lost, and only a start takes the phase back.
The last save comes first. -/
structure KeepsProgress (saves : List Save) : Prop where
  kept : saves.Pairwise fun later earlier => Kept earlier.record later.record
  forward : saves.IsChain fun later earlier => later.explicit = true ∨
    earlier.record.phase.rank ≤ later.record.phase.rank

/-- A call under way does what is allowed all along, and it fits the host. -/
structure Attended (crates : HandoffCrates) (fits : View → Prop)
    (lock : Option Nat) (i : Nat) (call : Running) : Prop where
  walks : call.program.Always (Sees crates) (View.Allows call.explicit)
    (fun _ _ => True) call.view
  locked : call.view.locked = true ↔ lock = some i
  fits : fits call.view

/-- The host is good, and what the calls under way know fits it. -/
structure HandoffSystem.Sound (crates : HandoffCrates) (good : Host → Prop)
    (fits : Host → View → Prop) (system : HandoffSystem) : Prop where
  saved : ∀ save ∈ system.host.saves, save.record.WellFormed
  good : good system.host
  calls : ∀ i call, system.calls[i]? = some call →
    Attended crates (fits system.host) system.lock i call
  holder : ∀ i, system.lock = some i → i < system.calls.length

theorem freed_self (lock : Option Nat) (i : Nat) : freed lock i ≠ some i := by
  rw [freed]
  split
  · exact (some_ne_none i).symm
  · assumption

theorem freed_other {lock : Option Nat} {i j : Nat} (hne : j ≠ i) :
    freed lock i = some j ↔ lock = some j := by
  rw [freed]
  split
  · rename_i hheld
    rw [hheld, some.injEq]
    exact iff_of_false (some_ne_none j).symm (Ne.symm hne)
  · rfl

theorem KeepsProgress.cons {saves : List Save} {save : Save}
    (hprogress : KeepsProgress saves)
    (hhead : ∀ last ∈ saves.head?, Kept last.record save.record ∧
      (save.explicit = true ∨ last.record.phase.rank ≤ save.record.phase.rank)) :
    KeepsProgress (save :: saves) := by
  cases saves with
  | nil => exact ⟨pairwise_singleton _ _, isChain_singleton _⟩
  | cons last rest =>
    obtain ⟨hkept, hforward⟩ := hhead last rfl
    refine ⟨pairwise_cons.mpr ⟨?_, hprogress.kept⟩,
      isChain_cons_cons.mpr ⟨hforward, hprogress.forward⟩⟩
    intro earlier hearlier
    rcases mem_cons.mp hearlier with rfl | hrest
    · exact hkept
    · exact ((pairwise_cons.mp hprogress.kept).1 earlier hrest).trans hkept

section Step

variable {crates : HandoffCrates} {pathsRoot id : String}
  {system after : HandoffSystem} {explicit : Bool} {view : View} {i : Nat}
  {good : Host → Prop} {fits : Host → View → Prop}

/-- A call holds the lock as its view says. -/
theorem locked_after {op : HandoffOp} {answer : HandoffAnswer op}
    {lock lock' : Option Nat} (hlock : lockAfter lock i op answer = some lock')
    (hlocked : view.locked = true ↔ lock = some i) :
    (view.after crates op answer).locked = true ↔ lock' = some i := by
  cases op with
  | acquireLock =>
    cases answer with
    | ok value =>
      rw [lockAfter] at hlock
      split at hlock
      · cases hlock
        exact ⟨fun _ => rfl, fun _ => rfl⟩
      · cases hlock
    | error message =>
      cases hlock
      exact hlocked
  | releaseLock =>
    cases hlock
    constructor
    · intro hfalse
      cases hfalse
    · intro hholds
      exact absurd hholds (freed_self lock i)
  | rpc method params =>
    cases hlock
    rw [View.after, (knowledge_afterRpc view method params answer).2]
    exact hlocked
  | recordExists id =>
    cases hlock
    rcases answer with message | found
    · exact hlocked
    · cases found <;> exact hlocked
  | _ =>
    cases hlock
    cases answer <;> exact hlocked

theorem lockAfter_other {op : HandoffOp} {answer : HandoffAnswer op}
    {lock lock' : Option Nat} {j : Nat} (hne : j ≠ i)
    (hlock : lockAfter lock i op answer = some lock') :
    lock' = some j ↔ lock = some j := by
  cases op with
  | acquireLock =>
    cases answer with
    | ok value =>
      rw [lockAfter] at hlock
      split at hlock
      · rename_i hfree
        cases hlock
        rw [hfree, some.injEq]
        exact iff_of_false (Ne.symm hne) (some_ne_none j).symm
      · cases hlock
    | error message =>
      cases hlock
      rfl
  | releaseLock =>
    cases hlock
    exact freed_other hne
  | _ =>
    cases hlock
    rfl

section

variable (hsound : system.Sound crates good fits)
include hsound

/-- A new call is under way. -/
theorem HandoffSystem.Sound.begin {call : Running}
    (hwalks : call.program.Always (Sees crates) (View.Allows call.explicit)
      (fun _ _ => True) call.view) (hview : call.view = {})
    (hfresh : fits system.host {}) :
    HandoffSystem.Sound crates good fits
      { system with calls := system.calls ++ [call] } := by
  refine ⟨hsound.saved, hsound.good, ?_, ?_⟩
  · intro j other hother
    have hget : (system.calls ++ [call])[j]? = some other := hother
    rcases Nat.lt_or_ge j system.calls.length with hlt | hge
    · rw [getElem?_append_left hlt] at hget
      exact hsound.calls j other hget
    · rw [getElem?_append_right hge] at hget
      obtain rfl := mem_singleton.mp (mem_of_getElem? hget)
      refine ⟨hwalks, ?_, ?_⟩
      · rw [hview]
        constructor
        · intro hlocked
          cases hlocked
        · intro hholds
          exact absurd (hsound.holder j hholds) (Nat.not_lt.mpr hge)
      · rw [hview]
        exact hfresh
  · intro j hholds
    have hlt := hsound.holder j hholds
    rw [length_append]
    exact Nat.lt_of_lt_of_le hlt (Nat.le_add_right _ _)

/-- A call moves on. -/
theorem HandoffSystem.Sound.answered {op : HandoffOp}
    {next : HandoffAnswer op →
      Program HandoffOp HandoffAnswer (Except String HandoffStatus)}
    {outcome : Outcome} {answer : HandoffAnswer op} {host : Host}
    {lock : Option Nat}
    (hcall : system.calls[i]? = some ⟨explicit, .call op next, view⟩)
    (hserve : system.host.serve explicit op outcome = some (answer, host))
    (hlock : lockAfter system.lock i op answer = some lock)
    (hgood : good host) (hself : fits host (view.after crates op answer))
    (hothers : ∀ j other, j ≠ i → system.calls[j]? = some other →
      fits host other.view) :
    HandoffSystem.Sound crates good fits
      { host
        lock
        calls := system.calls.set i
          ⟨explicit, next answer, view.after crates op answer⟩ } := by
  have hattended := hsound.calls i _ hcall
  have hlt : i < system.calls.length := (List.getElem?_eq_some_iff.mp hcall).1
  refine ⟨wellFormed_after hserve hattended.walks.1 hsound.saved, hgood, ?_, ?_⟩
  · intro j other hother
    by_cases hsame : j = i
    · subst hsame
      rw [getElem?_set_self hlt] at hother
      cases hother
      have hsees : Sees crates view op answer (view.after crates op answer) :=
        ⟨rfl, trusted_after hserve hsound.saved⟩
      exact ⟨hattended.walks.2 answer _ hsees,
        locked_after hlock hattended.locked, hself⟩
    · rw [getElem?_set_ne (Ne.symm hsame)] at hother
      have hbefore := hsound.calls j other hother
      exact ⟨hbefore.walks,
        hbefore.locked.trans (lockAfter_other hsame hlock).symm,
        hothers j other hsame hother⟩
  · intro j hholds
    rw [length_set]
    by_cases hsame : j = i
    · rw [hsame]
      exact hlt
    · exact hsound.holder j ((lockAfter_other hsame hlock).mp hholds)

/-- A call that crashes gives the lock back. -/
theorem HandoffSystem.Sound.crashed (hlt : i < system.calls.length)
    (hfresh : fits system.host {}) :
    HandoffSystem.Sound crates good fits
      { system with
        lock := freed system.lock i
        calls := system.calls.set i .crashed } := by
  refine ⟨hsound.saved, hsound.good, ?_, ?_⟩
  · intro j other hother
    have hget : (system.calls.set i .crashed)[j]? = some other := hother
    by_cases hsame : j = i
    · subst hsame
      rw [getElem?_set_self hlt] at hget
      cases hget
      refine ⟨trivial, ?_, hfresh⟩
      constructor
      · intro hlocked
        cases hlocked
      · intro hholds
        exact absurd hholds (freed_self system.lock j)
    · rw [getElem?_set_ne (Ne.symm hsame)] at hget
      have hbefore := hsound.calls j other hget
      exact ⟨hbefore.walks, hbefore.locked.trans (freed_other hsame).symm,
        hbefore.fits⟩
  · intro j hholds
    rw [length_set]
    by_cases hsame : j = i
    · rw [hsame]
      exact hlt
    · exact hsound.holder j ((freed_other hsame).mp hholds)

/-- The step rule: the answers that calls get are all that matters. -/
theorem HandoffSystem.Sound.step {action : HandoffAction}
    (hfresh : fits system.host {})
    (hanswer : ∀ i outcome explicit op next view answer host,
      action = .answer i outcome →
      system.calls[i]? = some ⟨explicit, .call op next, view⟩ →
      system.host.serve explicit op outcome = some (answer, host) →
      good host ∧ fits host (view.after crates op answer) ∧
        ∀ j other, j ≠ i → system.calls[j]? = some other →
          fits host other.view)
    (hstep : system.step crates pathsRoot id action = some after) :
    after.Sound crates good fits := by
  cases action with
  | start request =>
    rw [HandoffSystem.step] at hstep
    split at hstep
    · cases hstep
      exact hsound.begin (startWith_walks crates pathsRoot request) rfl hfresh
    · cases hstep
  | poll request =>
    rw [HandoffSystem.step] at hstep
    split at hstep
    · cases hstep
      exact hsound.begin (resultWith_walks crates pathsRoot request) rfl hfresh
    · cases hstep
  | answer i outcome =>
    rw [HandoffSystem.step, HandoffSystem.answer] at hstep
    split at hstep
    · rename_i explicit op next view hcall
      obtain ⟨⟨answer, host⟩, hserve, hgranted⟩ :=
        bind_eq_some_iff.mp hstep
      obtain ⟨lock, hlock, hafter⟩ := map_eq_some_iff.mp hgranted
      cases hafter
      obtain ⟨hgood, hself, hothers⟩ :=
        hanswer i outcome explicit op next view answer host rfl hcall hserve
      exact hsound.answered hcall hserve hlock hgood hself hothers
    · cases hstep
  | crash i =>
    rw [HandoffSystem.step] at hstep
    split at hstep
    · rename_i hlt
      cases hstep
      exact hsound.crashed hlt hfresh
    · cases hstep

end

theorem HandoffSystem.Sound.new (crates : HandoffCrates) (hgood : good {}) :
    HandoffSystem.Sound crates good fits {} where
  saved _ hsave := absurd hsave not_mem_nil
  good := hgood
  calls _ _ hcall := by cases hcall
  holder _ hholds := by cases hholds

/-! What is written goes on from the record that stands. -/

theorem writes_forward {record : Record}
    (hallows : view.Allows explicit (.writeRecord record))
    (hknows : Knows system.host view) :
    ∀ last ∈ system.host.saves.head?, Kept last.record record ∧
      (explicit = true ∨ last.record.phase.rank ≤ record.phase.rank) := by
  intro last hlast
  have hstands : system.host.record = some last.record := by
    rw [Host.record, hlast, map_some]
  rw [Knows, hstands] at hknows
  rcases hallows.write_cases with ⟨habsent, -⟩ | ⟨base, hstored, hrecord⟩
  · rw [habsent] at hknows
    cases hknows
  · rw [hstored] at hknows
    rw [show last.record = base from some.inj hknows]
    exact ⟨hrecord.kept, hrecord.forward⟩

/-- A call that takes the lock starts from what it reads then. -/
theorem locked_gained {op : HandoffOp} {answer : HandoffAnswer op}
    (hlocked : (view.after crates op answer).locked = true) :
    view.locked = true ∨ (view.after crates op answer).knowledge = .unknown := by
  cases op with
  | acquireLock =>
    cases answer with
    | ok value => exact Or.inr rfl
    | error message => exact Or.inl hlocked
  | releaseLock => cases hlocked
  | rpc method params =>
    rw [View.after, (knowledge_afterRpc view method params answer).2]
      at hlocked
    exact Or.inl hlocked
  | recordExists id =>
    rcases answer with message | found
    · exact Or.inl hlocked
    · cases found <;> exact Or.inl hlocked
  | _ => cases answer <;> exact Or.inl hlocked

/-- The lock has been held since the record was read, or nobody has written
since. -/
theorem Attended.writes {record : Record}
    {next : HandoffAnswer (.writeRecord record) →
      Program HandoffOp HandoffAnswer (Except String HandoffStatus)}
    (hattended : Attended crates
      (fun view => view.locked = true → Knows system.host view) system.lock i
      ⟨explicit, .call (.writeRecord record) next, view⟩)
    (halone : explicit = false → system.lock ≠ some i →
      system.lock = none ∧ ∃ base, view.knowledge = .stored base ∧
        system.host.record = some base) :
    Knows system.host view ∧ ∀ j, j ≠ i → system.lock ≠ some j := by
  have hallows : view.Allows explicit (.writeRecord record) :=
    hattended.walks.1
  by_cases hlocked : view.locked = true
  · have hholds := hattended.locked.mp hlocked
    refine ⟨hattended.fits hlocked, ?_⟩
    intro j hne hother
    rw [hholds] at hother
    exact hne (some.inj hother).symm
  · have hpoll : explicit = false := by
      cases explicit with
      | false => rfl
      | true => exact absurd (hallows.1 rfl) hlocked
    have hfree : system.lock ≠ some i := fun hholds =>
      hlocked (hattended.locked.mpr hholds)
    obtain ⟨hnone, base, hknowledge, hrecord⟩ := halone hpoll hfree
    refine ⟨?_, ?_⟩
    · rw [Knows, hknowledge]
      exact hrecord
    · intro j _ hother
      rw [hnone] at hother
      cases hother

/-- Progress is kept, and a call that holds the lock knows the record. -/
abbrev HandoffSystem.Progresses (crates : HandoffCrates)
    (system : HandoffSystem) : Prop :=
  system.Sound crates (fun host => KeepsProgress host.saves)
    fun host view => view.locked = true → Knows host view

theorem HandoffSystem.Progresses.step {action : HandoffAction}
    (hsound : system.Progresses crates) (halone : system.WritesAlone action)
    (hstep : system.step crates pathsRoot id action = some after) :
    after.Progresses crates := by
  refine HandoffSystem.Sound.step hsound (by rintro ⟨⟩) ?_ hstep
  rintro i outcome explicit op next view answer host rfl hcall hserve
  have hattended := hsound.calls i _ hcall
  have hself : (view.after crates op answer).locked = true →
      Knows host (view.after crates op answer) := by
    intro hlocked
    rcases locked_gained hlocked with hbefore | hunknown
    · exact knows_after hserve (hattended.fits hbefore)
    · rw [Knows, hunknown]
      exact trivial
  rcases saves_after hserve with hsaves | ⟨record, rfl, hsaves⟩
  · refine ⟨by rw [hsaves]; exact hsound.good, hself, ?_⟩
    intro j other _ hother hlocked
    have hknows := (hsound.calls j other hother).fits hlocked
    rw [Knows] at hknows ⊢
    rw [record_of_saves hsaves]
    exact hknows
  · obtain ⟨hknows, halone⟩ := hattended.writes (by
      rintro rfl
      exact halone record next view hcall)
    refine ⟨?_, hself, ?_⟩
    · rw [hsaves]
      exact hsound.good.cons (writes_forward hattended.walks.1 hknows)
    · intro j other hne hother hlocked
      exact absurd ((hsound.calls j other hother).locked.mp hlocked)
        (halone j hne)

end Step

/-- In every run of starts and polls in which nobody writes behind the back of
another call, what was saved stays. -/
theorem handoff_keeps_progress (crates : HandoffCrates)
    (pathsRoot id : String) (actions : List HandoffAction)
    (finish : HandoffSystem)
    (hrun : GuardedRun (HandoffSystem.step crates pathsRoot id)
      HandoffSystem.WritesAlone {} actions finish) :
    KeepsProgress finish.host.saves := by
  have hsound : finish.Progresses crates :=
    hrun.invariant (.new crates ⟨List.Pairwise.nil, isChain_nil⟩)
      (fun _ _ _ hsound halone hstep => hsound.step halone hstep)
  exact hsound.good

/-- Several calls of one handoff are answered in turn. -/
def answers (i : Nat) (outcomes : List Outcome) : List HandoffAction :=
  outcomes.map (HandoffAction.answer i)

/-- What the daemon lists for the worktree. -/
def samplePage : Json :=
  .obj [("data", .arr [.obj [("id", .str "thread-1"),
    ("cwd", .str sampleWorktree)]]), ("nextCursor", .null)]

/-- A poll reads `prepared`, and so takes no lock; it reads again while a start
is under way, and saves after that start what it makes of its second read. -/
def racingPoll : List HandoffAction :=
  [.start { sampleStart with prepareOnly := true }] ++
    answers 0 [.done, .done, .done, .done, .done, .done, .done] ++
  [.poll { handoffId := "handoff-1" }] ++ answers 1 [.done] ++
  [.start sampleStart] ++
    answers 2 [.done, .done, .done, .done, .done, .done, .done, .done, .done] ++
  answers 1 [.done] ++
  answers 2 [.json (sampleThread "thread-1"), .done, .done, .done,
    .json (.obj [("turn", .obj [("id", .str "turn-1")])]), .done, .done] ++
  answers 1 [.json samplePage, .done]

/-- The poll takes the phase back and loses the turn. -/
theorem poll_loses_the_turn : ∃ finish,
    runActions (HandoffSystem.step sampleHandoffCrates "/state" "handoff-1") {}
      racingPoll = some finish ∧
    finish.host.saves.map (fun save =>
      (save.explicit, save.record.phase, save.record.turnId)) =
      [(false, .threadAdopted, none), (true, .running, some "turn-1"),
        (true, .turnStarting, none), (true, .threadReady, none),
        (true, .threadStarting, none), (true, .threadStarting, none),
        (true, .worktreeReady, none), (true, .prepared, none)] ∧
    ¬ KeepsProgress finish.host.saves := by
  have hrun : (runActions
      (HandoffSystem.step sampleHandoffCrates "/state" "handoff-1") {}
      racingPoll).map (fun finish => finish.host.saves.map fun save =>
        (save.explicit, save.record.phase, save.record.turnId)) =
      some [(false, .threadAdopted, none), (true, .running, some "turn-1"),
        (true, .turnStarting, none), (true, .threadReady, none),
        (true, .threadStarting, none), (true, .threadStarting, none),
        (true, .worktreeReady, none), (true, .prepared, none)] := by
    decide +kernel
  obtain ⟨finish, hfinish, hsaves⟩ := map_eq_some_iff.mp hrun
  refine ⟨finish, hfinish, hsaves, ?_⟩
  intro hprogress
  cases hlist : finish.host.saves with
  | nil =>
    rw [hlist] at hsaves
    cases hsaves
  | cons last rest =>
    cases rest with
    | nil =>
      rw [hlist] at hsaves
      cases (List.cons.inj hsaves).2
    | cons earlier rest =>
      rw [hlist, map_cons, map_cons] at hsaves
      obtain ⟨hlast, hrest⟩ := List.cons.inj hsaves
      obtain ⟨hearlier, _⟩ := List.cons.inj hrest
      have hnone : last.record.turnId = none :=
        congrArg (fun save => save.2.2) hlast
      have hsome : earlier.record.turnId = some "turn-1" :=
        congrArg (fun save => save.2.2) hearlier
      have hkept := hprogress.kept
      rw [hlist] at hkept
      have hlater := (pairwise_cons.mp hkept).1 earlier
        mem_cons_self
      have hturn := hlater.turnId "turn-1" hsome
      rw [hnone] at hturn
      cases hturn

/-- Polls write under the lock. -/
def writesLocked (system : HandoffSystem) : HandoffAction → Bool
  | .answer i _ =>
    match system.calls[i]? with
    | some ⟨false, .call (.writeRecord _) _, _⟩ => system.lock = some i
    | _ => true
  | _ => true

theorem writesAlone_of_locked {system : HandoffSystem} {action : HandoffAction}
    (hlocked : writesLocked system action = true) :
    system.WritesAlone action := by
  cases action with
  | answer i outcome =>
    intro record next view hcall hfree
    rw [writesLocked, hcall] at hlocked
    exact absurd (of_decide_eq_true hlocked) hfree
  | _ => exact trivial

/-- A start crashes while it starts the thread; a poll finds the thread. -/
def lockedPoll : List HandoffAction :=
  [.start sampleStart] ++
    answers 0 [.done, .done, .done, .done, .done, .done, .done, .done, .done] ++
  [.poll { handoffId := "handoff-1" }] ++ answers 1 [.done] ++ [.crash 0] ++
  answers 1 [.done, .done, .json samplePage, .done, .done]

theorem handoff_keeps_progress_locked : ∃ finish,
    GuardedRun (HandoffSystem.step sampleHandoffCrates "/state" "handoff-1")
      HandoffSystem.WritesAlone {} lockedPoll finish ∧
    finish.host.saves.map (fun save => (save.explicit, save.record.phase)) =
      [(false, .threadAdopted), (true, .threadStarting),
        (true, .worktreeReady), (true, .prepared)] ∧
    KeepsProgress finish.host.saves := by
  have hreplay : (runGuarded
      (HandoffSystem.step sampleHandoffCrates "/state" "handoff-1")
      writesLocked {} lockedPoll).map (fun finish =>
        finish.host.saves.map fun save =>
          (save.explicit, save.record.phase)) =
      some [(false, .threadAdopted), (true, .threadStarting),
        (true, .worktreeReady), (true, .prepared)] := by
    decide +kernel
  obtain ⟨finish, hfinish, hsaves⟩ := map_eq_some_iff.mp hreplay
  have hrun := guardedRun_of_runGuarded
    (fun _ _ hlocked => writesAlone_of_locked hlocked) hfinish
  exact ⟨finish, hrun, hsaves,
    handoff_keeps_progress sampleHandoffCrates "/state" "handoff-1" lockedPoll
      finish hrun⟩

end Vellum.Agent

/-
A result is injected at most once, however bridges and publishers share the
files of the handoffs and wherever they crash.  What a process knows of a
handoff stays true while it holds the lock, whatever the others do.
-/
import Vellum.Enhanced.HandoffLocks

namespace Vellum.Enhanced.HandoffInject

open List Option HandoffView

def Traffic.sends (id : String) : Traffic → Bool
  | .sent _ _ handoff _ => handoff = id
  | .received _ _ _ _ => false

/-- A response came behind the injection, over the socket it was sent on. -/
def AcknowledgedBy (traffic : List Traffic) (i client : Nat) (id : String)
    (request : Json) : Prop :=
  ∃ response, acknowledges request response = true ∧
    [.received i client .enhancedCodex response,
      .sent i client id request].Sublist traffic

/-- A handoff is injected at most once, and has at most one outcome. -/
structure InjectedOnce (system : InboxSystem) (id : String) : Prop where
  once : (system.traffic.filter (·.sends id)).length ≤ 1
  outcome : ∀ first second, (id, .outcome first) ∈ system.files.marks →
    (id, .outcome second) ∈ system.files.marks → first = second
  delivered : (id, .outcome .delivered) ∈ system.files.marks →
    ∃ i client request, AcknowledgedBy system.traffic i client id request

/-- What a stage says of the files and the traffic. -/
def Bears (files : Files) (traffic : List Traffic) (i : Nat) (id : String) :
    Stage → Prop
  | .idle => True
  | .fresh => (id, .sent) ∈ files.marks ∧
      ∀ message ∈ traffic, message.sends id = false
  | .flying client request => .sent i client id request ∈ traffic
  | .acknowledged client request => AcknowledgedBy traffic i client id request

/-- What a process knows of a handoff that it has the lock of. -/
structure Knows (files : Files) (traffic : List Traffic) (i : Nat)
    (id : String) (held : Held) : Prop where
  locked : files.locks.get id = some i
  absent : ∀ outcome ∈ held.absent, (id, .outcome outcome) ∉ files.marks
  stage : Bears files traffic i id held.stage

/-- A process has a task that is safe under what it knows. -/
structure InboxSystem.Attended (system : InboxSystem) (i : Nat)
    (process : Process) (view : HandoffView) : Prop where
  walks : Safely process.task (fun view result =>
    ∀ inbox, result = some inbox → inbox.Borne view) view
  handoff : view.handoff = process.handoff
  knows : ∀ id held, view.held id = some held →
    Knows system.files system.traffic i id held

structure InboxSystem.Sound (system : InboxSystem) : Prop where
  injected : ∀ id, InjectedOnce system id
  marked : ∀ id, ∀ message ∈ system.traffic, message.sends id = true →
    (id, .sent) ∈ system.files.marks
  attended : ∀ i process, system.processes[i]? = some process →
    ∃ view, system.Attended i process view

section Keep

variable {files after : Files} {traffic later : List Traffic} {i j : Nat}
  {id : String} {held : Held}

theorem AcknowledgedBy.mono {client : Nat} {request : Json}
    (hacknowledged : AcknowledgedBy traffic i client id request)
    (htraffic : traffic.Sublist later) :
    AcknowledgedBy later i client id request := by
  obtain ⟨response, hresponse, hsublist⟩ := hacknowledged
  exact ⟨response, hresponse, hsublist.trans htraffic⟩

theorem Bears.mono {stage : Stage} (hbears : Bears files traffic i id stage)
    (hmarks : files.marks ⊆ after.marks) (htraffic : traffic.Sublist later)
    (hnew : ∀ message ∈ later, message.sends id = true → message ∈ traffic) :
    Bears after later i id stage := by
  cases stage with
  | idle => trivial
  | fresh =>
    refine ⟨hmarks hbears.1, ?_⟩
    intro message hmessage
    cases hsends : message.sends id with
    | false => rfl
    | true =>
      have hbefore := hbears.2 message (hnew message hmessage hsends)
      rw [hsends] at hbefore
      cases hbefore
  | flying client request => exact htraffic.subset hbears
  | acknowledged client request =>
    exact AcknowledgedBy.mono hbears htraffic

theorem Knows.mono (hknows : Knows files traffic i id held)
    (hlock : after.locks.get id = some i)
    (hmarks : files.marks ⊆ after.marks)
    (habsent : ∀ outcome, (id, .outcome outcome) ∈ after.marks →
      (id, .outcome outcome) ∈ files.marks)
    (htraffic : traffic.Sublist later)
    (hnew : ∀ message ∈ later, message.sends id = true → message ∈ traffic) :
    Knows after later i id held where
  locked := hlock
  absent outcome hmem hafter := hknows.absent outcome hmem
    (habsent outcome hafter)
  stage := hknows.stage.mono hmarks htraffic hnew

theorem sends_trafficOf {handoff : String} {op : InboxOp}
    {answer : InboxAnswer op} {message : Traffic}
    (hmessage : message ∈ trafficOf i handoff op answer)
    (hsends : message.sends id = true) :
    handoff = id ∧ ∃ client request, op = .send client request := by
  cases op with
  | send client request =>
    cases answer with
    | false => cases hmessage
    | true =>
      rw [trafficOf, mem_singleton] at hmessage
      subst hmessage
      exact ⟨of_decide_eq_true hsends, client, request, rfl⟩
  | _ => cases hmessage

/-- A call changes nothing of what is known of a handoff that it neither sends
nor settles, as long as the lock stays. -/
theorem Knows.call {left : Bool} {handoff : String} {op : InboxOp}
    {answer : InboxAnswer op} (hknows : Knows files traffic j id held)
    (hlock : (files.after i left op answer).locks.get id = some j)
    (hwrites : ∀ outcome, Files.writes op ≠ some (id, .outcome outcome))
    (hsend : ∀ client request, op = .send client request → handoff ≠ id) :
    Knows (files.after i left op answer)
      (trafficOf i handoff op answer ++ traffic) j id held := by
  refine hknows.mono hlock Files.marks_subset_after ?_
    (sublist_append_right _ _) ?_
  · intro outcome hafter
    rcases Files.mem_marks_after hafter with hbefore | hwritten
    · exact hbefore
    · exact absurd hwritten (hwrites outcome)
  · intro message hmessage hsends
    rcases mem_append.mp hmessage with hnew | hold
    · obtain ⟨hsame, client, request, hop⟩ := sends_trafficOf hnew hsends
      exact absurd hsame (hsend client request hop)
    · exact hold

end Keep

/-- A call that neither gives the lock of a handoff back nor settles it nor
sends for it. -/
def LeavesAlone (id handoff : String) : InboxOp → Prop
  | .unlock other => other ≠ id
  | .writeOutcome other _ _ => other ≠ id
  | .send _ _ => handoff ≠ id
  | _ => True

section Own

variable {files : Files} {traffic : List Traffic} {i : Nat} {left : Bool}
  {view : HandoffView} {id : String} {held : Held}

theorem Knows.leftAlone {handoff : String} {op : InboxOp}
    {answer : InboxAnswer op} (hknows : Knows files traffic i id held)
    (hleaves : LeavesAlone id handoff op) :
    Knows (files.after i left op answer)
      (trafficOf i handoff op answer ++ traffic) i id held := by
  apply hknows.call
  · apply Files.lock_own_after _ hknows.locked
    rintro rfl
    exact hleaves rfl
  · intro outcome hwrites
    cases op with
    | writeOutcome other written reason =>
      cases hwrites
      exact hleaves rfl
    | _ => cases hwrites
  · rintro client request rfl
    exact hleaves

theorem knows_after {op : InboxOp} {answer : InboxAnswer op}
    (hknows : ∀ id held, view.held id = some held →
      Knows files traffic i id held)
    (hmarked : ∀ id, ∀ message ∈ traffic, message.sends id = true →
      (id, .sent) ∈ files.marks)
    (hgives : files.gives op answer = true)
    (hheld : (view.after op answer).held id = some held) :
    Knows (files.after i left op answer)
      (trafficOf i view.handoff op answer ++ traffic) i id held := by
  have hquiet (hbefore : view.held id = some held)
      (hleaves : LeavesAlone id view.handoff op) :
      Knows (files.after i left op answer)
        (trafficOf i view.handoff op answer ++ traffic) i id held :=
    (hknows id held hbefore).leftAlone hleaves
  cases op with
  | tryLock other =>
    rcases answer with message | got
    · exact hquiet hheld trivial
    · cases got with
      | false => exact hquiet hheld trivial
      | true =>
        by_cases heq : id = other
        · subst heq
          have hnew : (view.lock id).held id = some {} := if_pos rfl
          rw [HandoffView.after, hnew] at hheld
          cases hheld
          refine ⟨HashMap.get_insert_self _ _ _, ?_, trivial⟩
          intro outcome hmem
          cases hmem
        · exact hquiet ((held_lock_of_ne heq) ▸ hheld) trivial
  | unlock other =>
    have hne : id ≠ other := by
      rintro rfl
      have hgone : (view.unlock id).held id = none := if_pos rfl
      rw [HandoffView.after, hgone] at hheld
      cases hheld
    exact hquiet (((view.sameBut_unlock other).held id hne) ▸ hheld)
      hne.symm
  | marked other mark =>
    cases mark with
    | sent => cases answer <;> exact hquiet hheld trivial
    | outcome absent =>
      cases answer with
      | true => exact hquiet hheld trivial
      | false =>
        rcases held_change_eq_some hheld with
          ⟨rfl, before, hbefore, rfl⟩ | ⟨-, hbefore⟩
        · have hbase := hknows _ before hbefore
          refine ⟨hbase.locked, ?_, hbase.stage⟩
          intro outcome hmem
          rcases mem_cons.mp hmem with rfl | hmem
          · have hnone : false = decide ((id, Mark.outcome outcome) ∈
                files.marks) := eq_of_beq hgives
            exact of_decide_eq_false hnone.symm
          · exact hbase.absent outcome hmem
        · exact hquiet hbefore trivial
  | writeSent other launch createdAt =>
    rcases answer with message | isNew
    · exact hquiet hheld trivial
    · cases isNew with
      | false => exact hquiet hheld trivial
      | true =>
        rcases held_change_eq_some hheld with
          ⟨rfl, before, hbefore, rfl⟩ | ⟨-, hbefore⟩
        · have hbase : Knows
              (files.after i left (.writeSent id launch createdAt)
                (.ok true))
              (trafficOf i view.handoff (.writeSent id launch createdAt)
                (.ok true) ++ traffic) i id before :=
            (hknows _ before hbefore).leftAlone trivial
          refine ⟨hbase.locked, hbase.absent, ?_, ?_⟩
          · exact Files.mem_create_iff.mpr (Or.inr ⟨rfl, rfl⟩)
          · intro message hmessage
            cases hsends : message.sends id with
            | false => rfl
            | true =>
              have hmem := hmarked id message hmessage hsends
              rw [Files.gives, decide_eq_true hmem] at hgives
              cases hgives
        · exact hquiet hbefore trivial
  | writeOutcome other outcome reason =>
    rcases held_change_eq_some hheld with
      ⟨rfl, before, hbefore, rfl⟩ | ⟨hne, hbefore⟩
    · have hbase := hknows _ before hbefore
      refine ⟨Files.lock_own_after InboxOp.noConfusion hbase.locked, ?_,
        hbase.stage.mono Files.marks_subset_after (List.Sublist.refl _)
          fun message hmessage _ => hmessage⟩
      intro absent hmem
      cases hmem
    · exact hquiet hbefore hne.symm
  | send client request =>
    rcases held_change_eq_some hheld with
      ⟨rfl, before, hbefore, rfl⟩ | ⟨hne, hbefore⟩
    · have hbase := hknows _ before hbefore
      refine ⟨hbase.locked, hbase.absent, ?_⟩
      cases answer with
      | false => trivial
      | true => exact mem_cons_self
    · exact hquiet hbefore hne.symm
  | _ => exact hquiet hheld trivial

end Own

section Step

variable {system after : InboxSystem} {i : Nat} {process : Process}
  {view : HandoffView}

variable (inbox : Inbox) {left : Bool} {traffic : List Traffic} {op : InboxOp}
  {j : Nat} {id : String} (client : Nat) (plane : ExecutionPlane)
  {held : Held}

theorem InjectedOnce.grow (hinjected : InjectedOnce system id)
    (hmarks : ∀ outcome, (id, .outcome outcome) ∈ after.files.marks →
      (id, .outcome outcome) ∈ system.files.marks)
    (htraffic : system.traffic.Sublist after.traffic)
    (honce : (after.traffic.filter (·.sends id)).length ≤ 1) :
    InjectedOnce after id := by
  refine ⟨honce, ?_, ?_⟩
  · intro first second hfirst hsecond
    exact hinjected.outcome first second (hmarks first hfirst)
      (hmarks second hsecond)
  · intro hdelivered
    obtain ⟨j, client, request, hacknowledged⟩ :=
      hinjected.delivered (hmarks .delivered hdelivered)
    exact ⟨j, client, request, AcknowledgedBy.mono hacknowledged htraffic⟩

theorem filter_sends_eq_nil
    (hnone : ∀ message ∈ traffic, message.sends id = false) :
    traffic.filter (·.sends id) = [] := by
  rw [filter_eq_nil_iff]
  intro message hmessage
  rw [hnone message hmessage]
  exact Bool.false_ne_true

theorem injectedOnce_answered {answer : InboxAnswer op}
    (hinjected : ∀ id, InjectedOnce system id)
    (hknows : ∀ id held, view.held id = some held →
      Knows system.files system.traffic i id held) (hallows : view.Allows op)
    (id : String) (hfiles : after.files = system.files.after i left op answer)
    (htraffic : after.traffic =
      trafficOf i view.handoff op answer ++ system.traffic) :
    InjectedOnce after id := by
  have hgrown : system.traffic.Sublist after.traffic := by
    rw [htraffic]
    exact sublist_append_right _ _
  have hmarks (hwrites : ∀ outcome,
      Files.writes op ≠ some (id, .outcome outcome)) (outcome : Outcome)
      (hafter : (id, .outcome outcome) ∈ after.files.marks) :
      (id, .outcome outcome) ∈ system.files.marks := by
    rw [hfiles] at hafter
    rcases Files.mem_marks_after hafter with hbefore | hwritten
    · exact hbefore
    · exact absurd hwritten (hwrites outcome)
  have hother (hnone : ∀ message ∈ trafficOf i view.handoff op answer,
      message.sends id = false) :
      (after.traffic.filter (·.sends id)).length ≤ 1 := by
    rw [htraffic, filter_append, filter_sends_eq_nil hnone,
      nil_append]
    exact (hinjected id).once
  cases op with
  | send client request =>
    have hwrites : ∀ outcome, Files.writes (.send client request) ≠
        some (id, .outcome outcome) := fun _ hwrites => by cases hwrites
    refine (hinjected id).grow (hmarks hwrites) hgrown ?_
    by_cases hsame : view.handoff = id
    · obtain ⟨held, hheld, hfresh⟩ := hallows
      have hbears := (hknows _ held hheld).stage
      rw [hfresh, hsame] at hbears
      rw [htraffic, filter_append, filter_sends_eq_nil hbears.2,
        append_nil]
      apply (length_filter_le _ _).trans
      cases answer with
      | false => exact Nat.zero_le 1
      | true => exact Nat.le_refl 1
    · apply hother
      intro message hmessage
      cases hsends : message.sends id with
      | false => rfl
      | true => exact absurd (sends_trafficOf hmessage hsends).1 hsame
  | writeOutcome other outcome reason =>
    have hsilent := hother fun message hmessage => by cases hmessage
    by_cases hsame : other = id
    · subst hsame
      obtain ⟨held, hheld, hunsettled, hacknowledged⟩ := hallows
      have hbase := hknows other held hheld
      have hnone (found : Outcome) :
          (other, .outcome found) ∉ system.files.marks :=
        hbase.absent found (hunsettled found)
      have honly (found : Outcome)
          (hfound : (other, .outcome found) ∈ after.files.marks) :
          found = outcome := by
        rw [hfiles] at hfound
        rcases Files.mem_create_iff.mp hfound with hbefore | ⟨-, hnew⟩
        · exact absurd hbefore (hnone found)
        · cases hnew
          rfl
      refine ⟨hsilent, ?_, ?_⟩
      · intro first second hfirst hsecond
        rw [honly first hfirst, honly second hsecond]
      · intro hdelivered
        obtain ⟨client, request, hstage⟩ :=
          hacknowledged (honly .delivered hdelivered).symm
        have hbears := hbase.stage
        rw [hstage] at hbears
        exact ⟨i, client, request, AcknowledgedBy.mono hbears hgrown⟩
    · refine (hinjected id).grow (hmarks ?_) hgrown hsilent
      intro found hwrites
      cases hwrites
      exact hsame rfl
  | _ =>
    refine (hinjected id).grow (hmarks ?_) hgrown (hother ?_)
    · intro outcome hwrites
      cases hwrites
    · intro message hmessage
      cases hmessage

theorem marked_answered {answer : InboxAnswer op}
    (hmarked : ∀ id, ∀ message ∈ system.traffic, message.sends id = true →
      (id, .sent) ∈ system.files.marks)
    (hknows : ∀ id held, view.held id = some held →
      Knows system.files system.traffic i id held) (hallows : view.Allows op)
    (id : String) (message : Traffic)
    (hmessage : message ∈
      trafficOf i view.handoff op answer ++ system.traffic)
    (hsends : message.sends id = true) :
    (id, .sent) ∈ (system.files.after i left op answer).marks := by
  apply Files.marks_subset_after
  rcases mem_append.mp hmessage with hnew | hold
  · obtain ⟨hsame, client, request, rfl⟩ := sends_trafficOf hnew hsends
    obtain ⟨held, hheld, hfresh⟩ := hallows
    have hbears := (hknows _ held hheld).stage
    rw [hfresh, hsame] at hbears
    exact hbears.1
  · exact hmarked id message hold hsends

theorem Knows.other {answer : InboxAnswer op} (hne : j ≠ i)
    (hother : Knows system.files system.traffic j id held)
    (hknows : ∀ id held, view.held id = some held →
      Knows system.files system.traffic i id held) (hallows : view.Allows op)
    (hgives : system.files.gives op answer = true) :
    Knows (system.files.after i left op answer)
      (trafficOf i view.handoff op answer ++ system.traffic) j id held := by
  have hforeign (mine : Held) : view.held id ≠ some mine := by
    intro hmine
    have hlocked := (hknows id mine hmine).locked
    rw [hother.locked] at hlocked
    exact hne (some.inj hlocked)
  apply hother.call (Files.lock_kept_after hgives hne hother.locked)
  · intro outcome hwrites
    cases op with
    | writeOutcome found written reason =>
      cases hwrites
      obtain ⟨mine, hmine, -⟩ := hallows
      exact hforeign mine hmine
    | _ => cases hwrites
  · rintro client request rfl rfl
    obtain ⟨mine, hmine, -⟩ := hallows
    exact hforeign mine hmine

theorem InboxSystem.Attended.other {process : Process} {view : HandoffView}
    (hattended : system.Attended j process view)
    (hknows : ∀ id held, Knows system.files system.traffic j id held →
      Knows after.files after.traffic j id held) :
    after.Attended j process view :=
  ⟨hattended.walks, hattended.handoff, fun id held hheld =>
    hknows id held (hattended.knows id held hheld)⟩

theorem InboxSystem.Sound.moved (hsound : system.Sound) {next : Process}
    (hprocesses : after.processes = system.processes.set i next)
    (hnext : ∃ view, after.Attended i next view)
    (hother : ∀ j id held, j ≠ i →
      Knows system.files system.traffic j id held →
      Knows after.files after.traffic j id held) (j : Nat) (process : Process)
    (hprocess : after.processes[j]? = some process) :
    ∃ view, after.Attended j process view := by
  rw [hprocesses] at hprocess
  by_cases hsame : j = i
  · subst hsame
    have hlt := (List.getElem?_eq_some_iff.mp hprocess).1
    rw [length_set] at hlt
    rw [getElem?_set_self hlt] at hprocess
    cases hprocess
    exact hnext
  · rw [getElem?_set_ne (Ne.symm hsame)] at hprocess
    obtain ⟨view, hattended⟩ := hsound.attended j process hprocess
    exact ⟨view, hattended.other fun id held => hother j id held hsame⟩

/-- A free lock is not one that the process has. -/
theorem fits_of_knows {answer : InboxAnswer op}
    (hknows : ∀ id held, view.held id = some held →
      Knows system.files system.traffic i id held)
    (hgives : system.files.gives op answer = true) : view.Fits op answer := by
  cases op with
  | tryLock id =>
    rcases answer with message | got
    · trivial
    · cases got with
      | false => trivial
      | true =>
        cases hheld : view.held id with
        | none => exact hheld
        | some held =>
          rw [Files.gives, HashMap.contains,
            (hknows id held hheld).locked] at hgives
          cases hgives
  | _ => trivial

theorem handoff_after (view : HandoffView) (op : InboxOp)
    (answer : InboxAnswer op) :
    (view.after op answer).handoff = handoffAfter view.handoff op answer := by
  cases op with
  | tryLock id =>
    rcases answer with message | got
    · rfl
    · cases got <;> rfl
  | marked id mark => cases mark <;> cases answer <;> rfl
  | writeSent id launch createdAt =>
    rcases answer with message | isNew
    · rfl
    · cases isNew <;> rfl
  | _ => rfl

theorem InboxSystem.Sound.answered {answers : (op : InboxOp) → InboxAnswer op}
    (hsound : system.Sound)
    (hstep : system.answer i answers left = some after) : after.Sound := by
  rw [InboxSystem.answer] at hstep
  split at hstep
  · rename_i op next handoff hprocess
    split at hstep
    · rename_i hgives
      cases hstep
      obtain ⟨view, hattended⟩ := hsound.attended i _ hprocess
      have hhandoff : view.handoff = handoff := hattended.handoff
      subst hhandoff
      have hallows : view.Allows op := hattended.walks.1
      refine ⟨?_, ?_, ?_⟩
      · intro id
        exact injectedOnce_answered hsound.injected hattended.knows hallows id
          rfl rfl
      · exact marked_answered hsound.marked hattended.knows hallows
      · refine hsound.moved rfl ?_ ?_
        · have hfits := fits_of_knows hattended.knows hgives
          refine ⟨view.after op (answers op),
            hattended.walks.2 _ _ ⟨hfits, rfl⟩, handoff_after _ _ _, ?_⟩
          intro id held hheld
          exact knows_after hattended.knows hsound.marked hgives hheld
        · intro j id held hne hknows
          exact hknows.other hne hattended.knows hallows hgives
    · cases hstep
  · cases hstep

/-- A bridge takes on a task that is safe under what it knows. -/
theorem InboxSystem.Sound.event {work : Inbox → Task (Option Inbox)}
    (hsound : system.Sound)
    (hwork : ∀ inbox view, inbox.Borne view →
      Safely (work inbox) (fun view result =>
        ∀ inbox, result = some inbox → inbox.Borne view) view)
    (hstep : system.event i work = some after) : after.Sound := by
  rw [InboxSystem.event] at hstep
  split at hstep
  · rename_i inbox handoff hprocess
    cases hstep
    obtain ⟨view, hattended⟩ := hsound.attended i _ hprocess
    have hborne : inbox.Borne view := hattended.walks inbox rfl
    refine ⟨?_, hsound.marked, ?_⟩
    · intro id
      exact (hsound.injected id).grow (fun _ hmem => hmem)
        (List.Sublist.refl _) (hsound.injected id).once
    · refine hsound.moved rfl ?_ fun _ _ _ _ hknows => hknows
      exact ⟨view, hwork inbox view hborne, hattended.handoff,
        hattended.knows⟩
  · cases hstep

theorem InboxSystem.Sound.begin {task : Task (Option Inbox)}
    (hsound : system.Sound)
    (htask : Safely task (fun view result =>
      ∀ inbox, result = some inbox → inbox.Borne view) {}) :
    (system.begin task).Sound := by
  refine ⟨?_, hsound.marked, ?_⟩
  · intro id
    exact (hsound.injected id).grow (fun _ hmem => hmem)
      (List.Sublist.refl _) (hsound.injected id).once
  · intro j process hprocess
    let fresh : Process := { task }
    have hget : (system.processes ++ [fresh])[j]? = some process := hprocess
    rcases Nat.lt_or_ge j system.processes.length with hlt | hge
    · rw [getElem?_append_left hlt] at hget
      obtain ⟨view, hattended⟩ := hsound.attended j process hget
      exact ⟨view, hattended.other fun _ _ hknows => hknows⟩
    · rw [getElem?_append_right hge] at hget
      have hfresh : process = fresh :=
        mem_singleton.mp (mem_of_getElem? hget)
      rw [hfresh]
      refine ⟨{}, htask, rfl, ?_⟩
      intro id held hheld
      cases hheld

/-- A response of the owner is noted down with what was sent. -/
theorem Knows.received {files : Files} (hknows : Knows files traffic j id held)
    (client : Nat) (plane : ExecutionPlane) (response : Json) :
    Knows files (.received i client plane response :: traffic) j id held := by
  refine hknows.mono hknows.locked (fun _ hmem => hmem) (fun _ hmem => hmem)
    (sublist_cons_self _ _) ?_
  intro message hmessage hsends
  rcases mem_cons.mp hmessage with rfl | hold
  · cases hsends
  · exact hold

theorem Knows.receivedOwn {files : Files}
    (hknows : Knows files traffic i id held) (client : Nat)
    (plane : ExecutionPlane) (response : Json) :
    Knows files (.received i client plane response :: traffic) i id
      (held.received client plane response) := by
  have hbase := hknows.received (i := i) client plane response
  refine ⟨hbase.locked, ?_, ?_⟩
  · rw [Held.absent_received]
    exact hbase.absent
  · rw [Held.received]
    split
    · rename_i owner request hstage
      split
      · rename_i hacknowledges
        obtain ⟨rfl, rfl, hresponse⟩ := hacknowledges
        have hbears := hknows.stage
        rw [hstage] at hbears
        exact ⟨response, hresponse,
          cons_sublist_cons.mpr (singleton_sublist.mpr hbears)⟩
      · exact hbase.stage
    · exact hbase.stage

theorem InboxSystem.Sound.response {client : Nat} {plane : ExecutionPlane}
    {value : Json} (hsound : system.Sound)
    (hstep : system.step (.response i client plane value) = some after) :
    after.Sound := by
  obtain ⟨before, hevent, rfl⟩ := map_eq_some_iff.mp hstep
  rw [InboxSystem.event] at hevent
  split at hevent
  · rename_i inbox handoff hprocess
    cases hevent
    obtain ⟨view, hattended⟩ := hsound.attended i _ hprocess
    have hborne : inbox.Borne view := hattended.walks inbox rfl
    have hsilent (id : String) (message : Traffic)
        (hmessage : message ∈ Traffic.received i client plane value ::
          system.traffic) (hsends : message.sends id = true) :
        message ∈ system.traffic := by
      rcases mem_cons.mp hmessage with rfl | hold
      · cases hsends
      · exact hold
    refine ⟨?_, ?_, ?_⟩
    · intro id
      exact (hsound.injected id).grow (fun _ hmem => hmem)
        (sublist_cons_self _ _) (hsound.injected id).once
    · intro id message hmessage hsends
      exact hsound.marked id message (hsilent id message hmessage hsends) hsends
    · refine hsound.moved rfl ?_ ?_
      · refine ⟨view.received client plane value, ?_, hattended.handoff, ?_⟩
        · apply Safely.bind (response_safely client plane value hborne)
          rintro after ⟨result, swallowed⟩ hresult inbox hinbox
          cases hinbox
          exact hresult
        · intro id held hheld
          obtain ⟨mine, hmine, rfl⟩ := map_eq_some_iff.mp hheld
          exact (hattended.knows id mine hmine).receivedOwn client plane value
      · intro j id held _ hknows
        exact hknows.received client plane value
  · cases hevent

/-- The locks of a process that crashed are nobody's. -/
theorem InboxSystem.Sound.crashed (hsound : system.Sound) :
    InboxSystem.Sound { system with
      files := system.files.crash i
      processes := system.processes.set i { task := .done none } } := by
  refine ⟨?_, hsound.marked, ?_⟩
  · intro id
    exact (hsound.injected id).grow (fun _ hmem => hmem)
      (List.Sublist.refl _) (hsound.injected id).once
  · refine hsound.moved rfl ?_ ?_
    · refine ⟨{}, ?_, rfl, ?_⟩
      · intro inbox hnone
        cases hnone
      · intro id held hheld
        cases hheld
    · intro j id held hne hknows
      exact hknows.mono (Files.lock_kept_crash hne hknows.locked)
        (fun _ hmem => hmem) (fun _ hmem => hmem) (List.Sublist.refl _)
        fun _ hmessage _ => hmessage

theorem Safely.serving {task : Task Inbox} {view : HandoffView}
    (htask : Safely task (fun view result => result.Borne view) view) :
    Safely (serving task) (fun view result =>
      ∀ inbox, result = some inbox → inbox.Borne view) view := by
  apply Safely.bind htask
  rintro after result hresult inbox hinbox
  cases hinbox
  exact hresult

theorem flights_forward (value : Json) :
    (inbox.forward client plane value).flights = inbox.flights := by
  rw [Inbox.forward]
  split
  · split <;> rfl
  · rfl

theorem flights_learn (value : Json)
    (bindings : String → Option ThreadRuntimeBinding) (request : Forwarded) :
    (inbox.learn plane value bindings request).flights = inbox.flights := by
  rw [Inbox.learn]
  split
  · rfl
  · split
    · rfl
    · split
      · rfl
      · dsimp only
        split <;> rfl

theorem flights_observe (value : Json)
    (bindings : String → Option ThreadRuntimeBinding) :
    (inbox.observe client plane value bindings).flights = inbox.flights := by
  rw [Inbox.observe]
  split
  · rw [Inbox.observeNotification]
    split
    · split <;> rfl
    · rfl
  · rw [Inbox.observeResponse]
    split
    · rfl
    · dsimp only
      split
      · rfl
      · split
        · split
          · rw [Inbox.dropOwner]
            split <;> rfl
          · rfl
        · exact flights_learn _ _ _ _ _

theorem InboxSystem.Sound.step {action : InboxAction} (hsound : system.Sound)
    (hstep : system.step action = some after) : after.Sound := by
  cases action with
  | launch launch =>
    cases hstep
    apply hsound.begin
    rintro inbox hinbox
    cases hinbox
    refine ⟨?_, ?_⟩
    · intro rpcId flight hget
      cases hget
    · intro left right flight other hget
      cases hget
  | publish id =>
    cases hstep
    apply hsound.begin
    apply Safely.bind (publish_safely id {})
    intro view _ _ inbox hnone
    cases hnone
  | recover id =>
    cases hstep
    apply hsound.begin
    apply Safely.bind (recover_safely id {})
    intro view _ _ inbox hnone
    cases hnone
  | forwarded i client plane value =>
    refine hsound.event ?_ hstep
    rintro inbox view hborne later hlater
    cases hlater
    exact hborne.of_flights (flights_forward inbox client plane value)
  | observed i client plane value bindings =>
    refine hsound.event ?_ hstep
    rintro inbox view hborne later hlater
    cases hlater
    exact hborne.of_flights
      (flights_observe inbox client plane value bindings)
  | response i client plane value => exact hsound.response hstep
  | disconnected i client plane =>
    refine hsound.event ?_ hstep
    intro inbox view hborne
    exact (disconnected_safely client plane hborne).serving
  | scan i digest =>
    refine hsound.event ?_ hstep
    intro inbox view hborne
    exact (scan_safely digest hborne).serving
  | shutdown i =>
    refine hsound.event ?_ hstep
    intro inbox view hborne
    apply Safely.bind (shutdown_safely hborne)
    intro after _ _ later hnone
    cases hnone
  | answer i answers left => exact hsound.answered hstep
  | crash i =>
    rw [InboxSystem.step] at hstep
    split at hstep
    · cases hstep
      exact hsound.crashed
    · cases hstep

end Step

theorem InboxSystem.Sound.new : InboxSystem.Sound {} := by
  refine ⟨?_, ?_, ?_⟩
  · intro id
    refine ⟨Nat.zero_le 1, ?_, ?_⟩
    · intro first second hfirst
      cases hfirst
    · intro hdelivered
      cases hdelivered
  · intro id message hmessage
    cases hmessage
  · intro i process hprocess
    cases hprocess

theorem InboxSystem.Sound.run {actions : List InboxAction}
    {system after : InboxSystem} (hsound : system.Sound)
    (hrun : runActions InboxSystem.step system actions = some after) :
    after.Sound := by
  induction actions generalizing system with
  | nil =>
    cases hrun
    exact hsound
  | cons action rest ih =>
    obtain ⟨next, hstep, hrest⟩ := bind_eq_some_iff.mp hrun
    exact ih (hsound.step hstep) hrest

/-- Whatever bridges and publishers do to the files of a handoff and wherever
they crash, it is injected at most once, it gets at most one outcome, and it is
delivered only if its owner said so. -/
theorem injected_once (actions : List InboxAction) (finish : InboxSystem)
    (hrun : runActions InboxSystem.step {} actions = some finish)
    (id : String) : InjectedOnce finish id :=
  (InboxSystem.Sound.new.run hrun).injected id

namespace DeliveredResult

/-- Every call is answered in favour of handoff `h`. -/
def answers : (op : InboxOp) → InboxAnswer op
  | .tryLock _ => .ok true
  | .unlock _ => ()
  | .marked _ _ => false
  | .writeSent _ _ _ => .ok true
  | .writeOutcome _ _ _ => .ok true
  | .writeRequest _ _ => .ok true
  | .removeRequest _ => .ok ()
  | .readRequest id => some ⟨id, 0⟩
  | .readJournal id =>
    some { id, threadId := "t", remote := some ⟨"completed", "done"⟩ }
  | .journalModified _ => some 0
  | .readDir => some ["h"]
  | .timestamp => (0 : Int)
  | .instant => (0 : Nat)
  | .binding thread => some (.new thread .enhancedCodex "d" "p" "m" "n" 0)
  | .send _ _ => true

def answered (i count : Nat) : List InboxAction :=
  List.replicate count (.answer i answers false)

/-- Thread `t` is resumed on connection 1 and is idle. -/
def resumed : List InboxAction :=
  [.forwarded 1 1 .enhancedCodex (.obj [("id", .str "1"),
      ("method", .str "thread/resume"),
      ("params", .obj [("threadId", .str "t")])]),
    .observed 1 1 .enhancedCodex (.obj [("id", .str "1"), ("result",
      .obj [("thread", .obj [("id", .str "t"),
        ("status", .obj [("type", .str "idle")])])])])
      (fun thread => answers (.binding thread))]

/-- The response to the first injection of launch `l`. -/
def taken : Json :=
  .obj [("id", .str "vellum:handoff-inject:l:0"), ("result", .obj [])]

def delivery : List InboxAction :=
  [.publish "h", .launch "l"] ++ answered 0 6 ++ resumed ++
    [.scan 1 "d"] ++ answered 1 13 ++
    [.response 1 1 .enhancedCodex taken] ++ answered 1 3

theorem delivered_result_is_injected_once : ∃ finish,
    runActions InboxSystem.step {} delivery = some finish ∧
      finish.files.marks = [("h", .outcome .delivered), ("h", .sent)] ∧
      finish.files.locks.rows = [] ∧ finish.traffic.length = 2 ∧
      InjectedOnce finish "h" := by
  have hreplay : (runActions InboxSystem.step {} delivery).map (fun finish =>
      (finish.files.marks, finish.files.locks.rows, finish.traffic.length)) =
        some ([("h", .outcome .delivered), ("h", .sent)], [], 2) := by
    decide +kernel
  obtain ⟨finish, hrun, hstate⟩ := map_eq_some_iff.mp hreplay
  rw [Prod.mk.injEq, Prod.mk.injEq] at hstate
  exact ⟨finish, hrun, hstate.1, hstate.2.1, hstate.2.2,
    injected_once delivery finish hrun "h"⟩

end DeliveredResult

end Vellum.Enhanced.HandoffInject

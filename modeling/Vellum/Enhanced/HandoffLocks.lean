/-
What a process does to the handoffs that it holds the locks of.  It writes an
outcome of a handoff only where it saw none under the same lock, it sends only
what it has just marked as sent, and a flight keeps the lock of its handoff
until its outcome is written.
-/
import Vellum.Enhanced.HandoffFiles

namespace Vellum.Enhanced.HandoffInject

open List Option HashMap

/-- The response of an owner that took the items. -/
def acknowledges (request response : Json) : Bool :=
  (response.get "method").isNone && (response.get "error").isNone &&
    (response.get "result").isSome && (stringField "id" response).isSome &&
    stringField "id" response = stringField "id" request

/-! What a process knows of the handoffs that it holds the locks of. -/

inductive Stage where
  | idle
  /-- Its `.sent` was created, and nothing was sent since. -/
  | fresh
  | flying (client : Nat) (request : Json)
  | acknowledged (client : Nat) (request : Json)

/-- `absent` are outcomes that were not there, and have not been written. -/
structure Held where
  absent : List Outcome := []
  stage : Stage := .idle

structure HandoffView where
  handoff : String := ""
  held : String → Option Held := fun _ => none

namespace Held

def lacks (held : Held) (outcome : Outcome) : Held :=
  { held with absent := outcome :: held.absent }

def Unsettled (held : Held) : Prop := ∀ outcome, outcome ∈ held.absent

/-- The handoff was sent to a client. -/
def Carries (held : Held) (client : Nat) (request : Json) : Prop :=
  held.stage = .flying client request ∨
    held.stage = .acknowledged client request

def Acknowledged (held : Held) : Prop :=
  ∃ client request, held.stage = .acknowledged client request

def received (client : Nat) (plane : ExecutionPlane) (response : Json)
    (held : Held) : Held :=
  match held.stage with
  | .flying owner request =>
    if owner = client ∧ plane = .enhancedCodex ∧
        acknowledges request response = true then
      { held with stage := .acknowledged owner request }
    else held
  | _ => held

end Held

namespace HandoffView

variable (view : HandoffView) (id : String)

def change (f : Held → Held) : HandoffView :=
  { view with held := fun other =>
      if other = id then (view.held other).map f else view.held other }

def lock : HandoffView where
  handoff := id
  held := fun other => if other = id then some {} else view.held other

def unlock : HandoffView :=
  { view with held := fun other =>
      if other = id then none else view.held other }

def received (view : HandoffView) (client : Nat) (plane : ExecutionPlane)
    (response : Json) : HandoffView :=
  { view with held := fun id =>
      (view.held id).map (Held.received client plane response) }

def after : (op : InboxOp) → InboxAnswer op → HandoffView
  | .tryLock id, .ok true => view.lock id
  | .unlock id, _ => view.unlock id
  | .marked id (.outcome outcome), false =>
    view.change id (·.lacks outcome)
  | .writeSent id _ _, .ok true =>
    view.change id fun held => { held with stage := .fresh }
  | .writeOutcome id _ _, _ =>
    view.change id fun held => { held with absent := [] }
  | .send client request, sent =>
    view.change view.handoff fun held =>
      { held with stage := if sent then .flying client request else .idle }
  | _, _ => view

/-- The calls that keep every handoff injected once. -/
def Allows : InboxOp → Prop
  | .writeOutcome id outcome _ => ∃ held, view.held id = some held ∧
      held.Unsettled ∧ (outcome = .delivered → held.Acknowledged)
  | .send _ _ => ∃ held, view.held view.handoff = some held ∧
      held.stage = .fresh
  | _ => True

/-- A lock is got by a process that does not have it yet. -/
def Fits : (op : InboxOp) → InboxAnswer op → Prop
  | .tryLock id, .ok true => view.held id = none
  | _, _ => True

def Sees (op : InboxOp) (answer : InboxAnswer op) (after : HandoffView) :
    Prop :=
  view.Fits op answer ∧ after = view.after op answer

/-- The views tell the same about all handoffs but one. -/
structure SameBut (id : String) (left right : HandoffView) : Prop where
  handoff : right.handoff = left.handoff
  held : ∀ other, other ≠ id → right.held other = left.held other

theorem SameBut.trans {id : String} {left middle right : HandoffView}
    (hfirst : SameBut id left middle) (hlast : SameBut id middle right) :
    SameBut id left right where
  handoff := hlast.handoff.trans hfirst.handoff
  held other hne := (hlast.held other hne).trans (hfirst.held other hne)

variable {view : HandoffView} {id : String} {held : Held}

theorem sameBut_change (view : HandoffView) (id : String) (f : Held → Held) :
    SameBut id view (view.change id f) :=
  ⟨rfl, fun _ hne => if_neg hne⟩

theorem sameBut_unlock (view : HandoffView) (id : String) :
    SameBut id view (view.unlock id) :=
  ⟨rfl, fun _ hne => if_neg hne⟩

theorem held_lock_of_ne {other : String} (hne : other ≠ id) :
    (view.lock id).held other = view.held other :=
  if_neg hne

theorem held_change_eq_some {other : String} {f : Held → Held}
    (hheld : (view.change id f).held other = some held) :
    (other = id ∧ ∃ before, view.held id = some before ∧ held = f before) ∨
      (other ≠ id ∧ view.held other = some held) := by
  by_cases hsame : other = id
  · subst hsame
    have hself : (view.change other f).held other = (view.held other).map f :=
      if_pos rfl
    rw [hself, map_eq_some_iff] at hheld
    obtain ⟨before, hbefore, rfl⟩ := hheld
    exact Or.inl ⟨rfl, before, hbefore, rfl⟩
  · exact Or.inr ⟨hsame, ((view.sameBut_change id f).held other hsame) ▸ hheld⟩

theorem held_change_self (hheld : view.held id = some held) (f : Held → Held) :
    (view.change id f).held id = some (f held) := by
  simp [change, hheld]

end HandoffView

/-- The task makes only calls that are allowed, and promises something about
the view it ends with. -/
abbrev Safely {α : Type} (task : Task α) (post : HandoffView → α → Prop)
    (view : HandoffView) : Prop :=
  Program.Always HandoffView.Sees HandoffView.Allows post task view

/-- A flight was sent for a handoff whose lock it holds and which has no
outcome. -/
def Flight.Borne (view : HandoffView) (rpcId : String) (flight : Flight) :
    Prop :=
  ∃ held, view.held flight.handoff = some held ∧ held.Unsettled ∧
    ∃ request, held.Carries flight.client request ∧
      stringField "id" request = some rpcId

/-- No flight is for the handoff. -/
def Inbox.Apart (inbox : Inbox) (id : String) : Prop :=
  ∀ rpcId flight, inbox.flights.get rpcId = some flight → flight.handoff ≠ id

/-- Every flight is one of its own. -/
structure Inbox.Borne (inbox : Inbox) (view : HandoffView) : Prop where
  flights : ∀ rpcId flight, inbox.flights.get rpcId = some flight →
    flight.Borne view rpcId
  single : ∀ left right flight other, inbox.flights.get left = some flight →
    inbox.flights.get right = some other →
    flight.handoff = other.handoff → left = right

/-- The inbox works on a handoff whose lock it holds. -/
structure Inbox.Working (inbox : Inbox) (id : String) (known : Held → Prop)
    (view : HandoffView) : Prop where
  borne : inbox.Borne view
  apart : inbox.Apart id
  handoff : view.handoff = id
  held : ∃ held, view.held id = some held ∧ known held

section Walk

variable {α β : Type} {view : HandoffView} {inbox : Inbox} {id : String}
  {known : Held → Prop}

theorem Safely.bind {task : Task α} {f : α → Task β}
    {middle : HandoffView → α → Prop} {post : HandoffView → β → Prop}
    (hfirst : Safely task middle view)
    (hrest : ∀ view result, middle view result →
      Safely (f result) post view) :
    Safely (task >>= f) post view := by
  apply Program.Always.bind
  exact Program.Always.mono hfirst hrest

theorem Safely.ask {op : InboxOp} {f : InboxAnswer op → Task β}
    {post : HandoffView → β → Prop} (hallows : view.Allows op)
    (hrest : ∀ answer, view.Fits op answer →
      Safely (f answer) post (view.after op answer)) :
    Safely (ask op >>= f) post view := by
  refine ⟨hallows, ?_⟩
  rintro answer after ⟨hfits, rfl⟩
  exact hrest answer hfits

theorem Inbox.Borne.of_flights {other : Inbox} (hborne : inbox.Borne view)
    (hsame : other.flights = inbox.flights) : other.Borne view := by
  constructor
  · rw [hsame]
    exact hborne.flights
  · rw [hsame]
    exact hborne.single

theorem Inbox.Borne.sameBut {other : HandoffView} (hborne : inbox.Borne view)
    (hapart : inbox.Apart id) (hsame : HandoffView.SameBut id view other) :
    inbox.Borne other := by
  refine ⟨?_, hborne.single⟩
  intro rpcId flight hget
  obtain ⟨held, hheld, hrest⟩ := hborne.flights rpcId flight hget
  refine ⟨held, ?_, hrest⟩
  rw [hsame.held _ (hapart rpcId flight hget)]
  exact hheld

theorem Inbox.Borne.lock (hborne : inbox.Borne view)
    (hfree : view.held id = none) :
    inbox.Working id (fun _ => True) (view.lock id) := by
  have hapart : inbox.Apart id := by
    rintro rpcId flight hget rfl
    obtain ⟨held, hheld, -⟩ := hborne.flights rpcId flight hget
    rw [hfree] at hheld
    cases hheld
  refine ⟨⟨?_, hborne.single⟩, hapart, rfl, {}, if_pos rfl, trivial⟩
  intro rpcId flight hget
  obtain ⟨held, hheld, hrest⟩ := hborne.flights rpcId flight hget
  refine ⟨held, ?_, hrest⟩
  rw [HandoffView.held_lock_of_ne (hapart rpcId flight hget)]
  exact hheld

theorem Inbox.Working.mono {weaker : Held → Prop}
    (hworking : inbox.Working id known view)
    (hweaker : ∀ held, known held → weaker held) :
    inbox.Working id weaker view := by
  obtain ⟨held, hheld, hknown⟩ := hworking.held
  exact ⟨hworking.borne, hworking.apart, hworking.handoff, held, hheld,
    hweaker held hknown⟩

/-- Learning something about the handoff. -/
theorem Inbox.Working.change {f : Held → Held} {after : Held → Prop}
    (hworking : inbox.Working id known view)
    (hafter : ∀ held, known held → after (f held)) :
    inbox.Working id after (view.change id f) := by
  obtain ⟨held, hheld, hknown⟩ := hworking.held
  exact ⟨hworking.borne.sameBut hworking.apart (view.sameBut_change id f),
    hworking.apart, hworking.handoff, f held,
    HandoffView.held_change_self hheld f, hafter held hknown⟩

theorem Inbox.Working.unlock (hworking : inbox.Working id known view) :
    inbox.Borne (view.unlock id) :=
  hworking.borne.sameBut hworking.apart (view.sameBut_unlock id)

theorem anyMarked_reads (id : String) (marks : List Mark)
    (view : HandoffView) :
    Safely (anyMarked id marks) (fun _ _ => True) view := by
  induction marks generalizing view with
  | nil => trivial
  | cons mark rest ih =>
    apply Safely.ask
    · trivial
    intro found _
    cases found with
    | false => exact ih _
    | true => trivial

/-- Outcomes that are not found are known to be absent. -/
theorem anyMarked_safely (marks : List Mark) {seen : List Outcome}
    (hworking : inbox.Working id (fun held => ∀ outcome ∈ seen,
      outcome ∈ held.absent) view) :
    Safely (anyMarked id marks)
      (fun view found => inbox.Working id (fun held => found = false →
        ∀ outcome, Mark.outcome outcome ∈ marks ∨ outcome ∈ seen →
          outcome ∈ held.absent) view) view := by
  induction marks generalizing view seen with
  | nil =>
    apply hworking.mono
    rintro held hseen - outcome (hnone | hmem)
    · cases hnone
    · exact hseen outcome hmem
  | cons mark rest ih =>
    apply Safely.ask
    · trivial
    intro found _
    cases found with
    | true =>
      have hsame : view.after (.marked id mark) true = view := by
        cases mark <;> rfl
      rw [hsame]
      apply hworking.mono
      intro held _ hfalse
      cases hfalse
    | false =>
      cases mark with
      | sent =>
        apply Program.Always.mono (ih hworking)
        intro view found hafter
        apply hafter.mono
        rintro held hknown hfound outcome (hmark | hmem)
        · rcases mem_cons.mp hmark with hsent | hrest
          · cases hsent
          · exact hknown hfound outcome (Or.inl hrest)
        · exact hknown hfound outcome (Or.inr hmem)
      | outcome absent =>
        have hlacks : inbox.Working id (fun held =>
            ∀ outcome ∈ absent :: seen, outcome ∈ held.absent)
            (view.change id (·.lacks absent)) := by
          apply hworking.change
          intro held hseen outcome hmem
          rcases mem_cons.mp hmem with rfl | hmem
          · exact mem_cons_self
          · exact mem_cons_of_mem _ (hseen outcome hmem)
        apply Program.Always.mono (ih hlacks)
        intro view found hafter
        apply hafter.mono
        rintro held hknown hfound outcome (hmark | hmem)
        · rcases mem_cons.mp hmark with hsame | hrest
          · cases hsame
            exact hknown hfound absent (Or.inr mem_cons_self)
          · exact hknown hfound outcome (Or.inl hrest)
        · exact hknown hfound outcome
            (Or.inr (mem_cons_of_mem _ hmem))

theorem mem_outcomes (outcome : Outcome) :
    Mark.outcome outcome ∈ outcomes := by
  cases outcome <;> decide

theorem outcomes_safely (hworking : inbox.Working id known view) :
    Safely (anyMarked id outcomes)
      (fun view found => inbox.Working id (fun held =>
        found = false → held.Unsettled) view) view := by
  have hnothing : inbox.Working id (fun held => ∀ outcome ∈ [],
      outcome ∈ held.absent) view :=
    hworking.mono fun _ _ _ hmem => absurd hmem not_mem_nil
  apply Program.Always.mono (anyMarked_safely outcomes hnothing)
  intro view found hafter
  apply hafter.mono
  intro held hknown hfound outcome
  exact hknown hfound outcome (Or.inl (mem_outcomes outcome))

variable (rpcId : String) (record : Journal) {held : Held} (client : Nat)
  {outcome : Outcome} (reason : String) (plane : ExecutionPlane)

theorem settle_safely (hheld : view.held id = some held)
    (hunsettled : held.Unsettled)
    (hacknowledged : outcome = .delivered → held.Acknowledged) :
    Safely (settle id outcome reason)
      (fun after _ => HandoffView.SameBut id view after ∧
        (after.held id).isSome) view := by
  have hchanged (f : Held → Held) :
      HandoffView.SameBut id view (view.change id f) ∧
        ((view.change id f).held id).isSome := by
    refine ⟨view.sameBut_change id f, ?_⟩
    rw [HandoffView.held_change_self hheld]
    rfl
  apply Safely.ask
  · exact ⟨held, hheld, hunsettled, hacknowledged⟩
  intro written _
  cases written with
  | error message => exact hchanged _
  | ok isNew =>
    apply Safely.ask
    · trivial
    intro _ _
    exact hchanged _

theorem settled_safely (inFlight : Bool)
    (hworking : inbox.Working id Held.Unsettled view)
    (houtcome : outcome ≠ .delivered) :
    Safely
      (do settle id outcome reason
          pure (inbox, inFlight))
      (fun view result => result = (inbox, inFlight) ∧
        inbox.Working id (fun _ => True) view) view := by
  obtain ⟨held, hheld, hunsettled⟩ := hworking.held
  apply Safely.bind (settle_safely reason hheld hunsettled
    fun hsame => absurd hsame houtcome)
  rintro after _ ⟨hsame, hsome⟩
  obtain ⟨later, hlater⟩ := isSome_iff_exists.mp hsome
  exact ⟨rfl, hworking.borne.sameBut hworking.apart hsame, hworking.apart,
    hsame.handoff.trans hworking.handoff, later, hlater, trivial⟩

/-- What is left of an inbox without one of its flights. -/
abbrev Inbox.without (inbox : Inbox) (rpcId : String) : Inbox :=
  { inbox with flights := inbox.flights.remove rpcId }

theorem Inbox.Borne.without (hborne : inbox.Borne view) (rpcId : String) :
    (inbox.without rpcId).Borne view where
  flights other flight hget :=
    hborne.flights other flight (get_of_remove hget)
  single left right flight other hleft hright :=
    hborne.single left right flight other (get_of_remove hleft)
      (get_of_remove hright)

theorem Inbox.Borne.apart (hborne : inbox.Borne view) {rpcId : String}
    {flight : Flight} (hget : inbox.flights.get rpcId = some flight) :
    (inbox.without rpcId).Apart flight.handoff := by
  intro other found hfound hsame
  rw [get_remove] at hfound
  split at hfound
  · cases hfound
  · rename_i hne
    exact hne (hborne.single other rpcId found flight hfound hget hsame)

/-- A flight that ends gives its lock back. -/
theorem landed_safely {rpcId : String} {flight : Flight}
    (hget : inbox.flights.get rpcId = some flight)
    (hborne : (inbox.without rpcId).Borne view)
    (hapart : (inbox.without rpcId).Apart flight.handoff)
    (hheld : view.held flight.handoff = some held) (hunsettled : held.Unsettled)
    (hacknowledged : outcome = .delivered → held.Acknowledged) :
    Safely (inbox.finish rpcId outcome reason)
      (fun view result => result.Borne view) view := by
  rw [Inbox.finish, hget]
  apply Safely.bind (settle_safely reason hheld hunsettled hacknowledged)
  rintro after _ ⟨hsame, -⟩
  apply Safely.ask
  · trivial
  intro _ _
  exact hborne.sameBut hapart
    (hsame.trans (after.sameBut_unlock flight.handoff))

theorem finish_safely (hborne : inbox.Borne view)
    (hacknowledged : ∀ flight held, inbox.flights.get rpcId = some flight →
      view.held flight.handoff = some held → outcome = .delivered →
        held.Acknowledged) :
    Safely (inbox.finish rpcId outcome reason)
      (fun view result => result.Borne view) view := by
  cases hget : inbox.flights.get rpcId with
  | none =>
    rw [Inbox.finish, hget]
    exact hborne
  | some flight =>
    obtain ⟨held, hheld, hunsettled, -⟩ := hborne.flights rpcId flight hget
    exact landed_safely reason hget (hborne.without rpcId)
      (hborne.apart hget) hheld hunsettled
      (hacknowledged flight held hget hheld)

theorem finishAll_safely (ids : List String) (hborne : inbox.Borne view) :
    Safely (Inbox.finishAll reason ids inbox)
      (fun view result => result.Borne view) view := by
  induction ids generalizing inbox view with
  | nil => exact hborne
  | cons rpcId rest ih =>
    apply Safely.bind (finish_safely rpcId reason hborne ?_)
    · intro view finished hfinished
      exact ih hfinished
    · intro flight held _ _ huncertain
      cases huncertain

theorem stringField_injection (binding : ThreadRuntimeBinding) :
    stringField "id" (injection rpcId record binding) = some rpcId := rfl

/-- What was marked as sent is sent, and its flight keeps the lock. -/
theorem inject_safely (binding : ThreadRuntimeBinding) (client : Nat)
    (hworking : inbox.Working id (fun held =>
      held.Unsettled ∧ held.stage = .fresh) view) :
    Safely (inbox.inject id record binding client)
      (fun view result => result.Borne view) view := by
  have hview : view.handoff = id := hworking.handoff
  have hapart (rpcId : String) : (inbox.without rpcId).Apart id := by
    intro other flight hget
    exact hworking.apart other flight (get_of_remove hget)
  apply Safely.ask
  · trivial
  intro now _
  have hsame : view.after .instant now = view := rfl
  rw [hsame]
  apply Safely.ask
  · obtain ⟨held, hheld, -, hfresh⟩ := hworking.held
    refine ⟨held, ?_, hfresh⟩
    rw [hview]
    exact hheld
  intro sent _
  let request := injection inbox.rpcId record binding
  have hafter : inbox.Working id (fun held => held.Unsettled ∧
      (sent = true → held.Carries client request))
      (view.after (.send client request) sent) := by
    rw [HandoffView.after, hview]
    apply hworking.change
    rintro held ⟨hunsettled, -⟩
    refine ⟨hunsettled, ?_⟩
    rintro rfl
    exact Or.inl rfl
  obtain ⟨held, hheld, hunsettled, hcarries⟩ := hafter.held
  cases sent with
  | true =>
    refine ⟨?_, ?_⟩
    · intro rpcId flight hget
      rw [get_insert] at hget
      split at hget
      · rename_i hrpc
        cases hget
        exact ⟨held, hheld, hunsettled, request, hcarries rfl,
          hrpc ▸ stringField_injection _ _ _⟩
      · exact hafter.borne.flights rpcId flight hget
    · intro left right flight other hleft hright hsame
      rw [get_insert] at hleft hright
      split at hleft
      · rename_i hfirst
        cases hleft
        split at hright
        · rename_i hsecond
          rw [hfirst, hsecond]
        · exact absurd hsame.symm (hworking.apart right other hright)
      · split at hright
        · cases hright
          exact absurd hsame (hworking.apart left flight hleft)
        · exact hafter.borne.single left right flight other hleft hright
            hsame
  | false =>
    have hwithout : (inbox.flights.insert inbox.rpcId
        ⟨id, client, now + responseTimeout⟩).remove inbox.rpcId =
        inbox.flights.remove inbox.rpcId :=
      remove_insert_self _ _ _
    apply landed_safely
    · exact get_insert_self _ _ _
    · exact (hafter.borne.without inbox.rpcId).of_flights hwithout
    · intro rpcId flight hget
      rw [Inbox.without, hwithout] at hget
      exact hapart inbox.rpcId rpcId flight hget
    · exact hheld
    · exact hunsettled
    · intro hskipped
      cases hskipped

/-- Either a flight has the lock now, or the work on the handoff is over. -/
def Inbox.Worked (inbox : Inbox) (id : String) (view : HandoffView)
    (result : Inbox × Bool) : Prop :=
  (result.2 = true ∧ result.1.Borne view) ∨
    (result = (inbox, false) ∧ inbox.Working id (fun _ => True) view)

theorem Inbox.Working.left (hworking : inbox.Working id known view) :
    inbox.Worked id view (inbox, false) :=
  Or.inr ⟨rfl, hworking.mono fun _ _ => trivial⟩

theorem skipped_safely (hworking : inbox.Working id Held.Unsettled view) :
    Safely
      (do settle id .skipped reason
          pure (inbox, false))
      (inbox.Worked id) view := by
  apply Program.Always.mono
    (settled_safely reason false hworking Outcome.noConfusion)
  rintro after result ⟨rfl, hafter⟩
  exact hafter.left

variable {digest : String}

theorem processRecord_safely (now : Int) (record : Journal)
    (hworking : inbox.Working id Held.Unsettled view) :
    Safely (inbox.processRecord id digest now record) (inbox.Worked id)
      view := by
  apply Safely.ask
  · trivial
  intro found _
  have hsame : view.after (.binding record.threadId) found = view := rfl
  rw [hsame]
  cases found with
  | none => exact hworking.left
  | some binding =>
    dsimp only
    split
    · exact skipped_safely _ hworking
    · split
      · exact hworking.left
      · split
        · exact skipped_safely _ hworking
        · cases inbox.idleOwner record.threadId with
          | none => exact hworking.left
          | some client =>
            apply Safely.ask
            · trivial
            intro written _
            rcases written with message | isNew
            · exact hworking.left
            · cases isNew with
              | false => exact hworking.left
              | true =>
                have hfresh : inbox.Working id (fun held =>
                    held.Unsettled ∧ held.stage = .fresh)
                    (view.after (.writeSent id inbox.launch now)
                      (.ok true)) :=
                  hworking.change fun held hunsettled =>
                    ⟨hunsettled, rfl⟩
                apply Safely.bind
                  (inject_safely record binding client hfresh)
                intro after injected hborne
                exact Or.inl ⟨rfl, hborne⟩

theorem removed_safely (hworking : inbox.Working id known view) :
    Safely
      (do let _ ← ask (.removeRequest id)
          pure (inbox, false))
      (inbox.Worked id) view := by
  apply Safely.ask
  · trivial
  intro removed _
  have hsame : view.after (.removeRequest id) removed = view := by
    cases removed <;> rfl
  rw [hsame]
  exact hworking.left

theorem processLocked_safely (hworking : inbox.Working id known view) :
    Safely (inbox.processLocked id digest) (inbox.Worked id) view := by
  apply Safely.ask
  · trivial
  intro sent _
  have hsent : view.after (.marked id .sent) sent = view := by
    cases sent <;> rfl
  rw [hsent]
  cases sent with
  | true =>
    apply Safely.bind (outcomes_safely hworking)
    intro view found hafter
    cases found with
    | true => exact removed_safely hafter
    | false =>
      have hunsettled := hafter.mono fun _ hknown => hknown rfl
      apply Program.Always.mono
        (settled_safely "priorIntentWithoutAcknowledgement" false
          hunsettled Outcome.noConfusion)
      rintro after result ⟨rfl, hsettled⟩
      exact hsettled.left
  | false =>
    apply Safely.bind (outcomes_safely hworking)
    intro view found hafter
    cases found with
    | true => exact removed_safely hafter
    | false =>
      have hunsettled := hafter.mono fun _ hknown => hknown rfl
      apply Safely.ask
      · trivial
      intro request _
      have hread : view.after (.readRequest id) request = view := by
        cases request <;> rfl
      rw [hread]
      cases request with
      | none => exact skipped_safely _ hunsettled
      | some request =>
        apply Safely.ask
        · trivial
        intro now _
        have hnow : view.after .timestamp now = view := rfl
        rw [hnow]
        split
        · exact skipped_safely _ hunsettled
        · split
          · exact skipped_safely _ hunsettled
          · apply Safely.ask
            · trivial
            intro record _
            have hrecord : view.after (.readJournal id) record =
                view := by
              cases record <;> rfl
            rw [hrecord]
            cases record with
            | none => exact skipped_safely _ hunsettled
            | some record =>
              dsimp only
              split
              · exact skipped_safely _ hunsettled
              · exact processRecord_safely now record hunsettled

/-- The work on a handoff goes from its lock to giving the lock back, or to a
flight that keeps it. -/
theorem process_safely (id : String) (hborne : inbox.Borne view) :
    Safely (inbox.process id digest) (fun view result => result.Borne view)
      view := by
  apply Safely.ask
  · trivial
  intro locked hfits
  rcases locked with message | got
  · exact hborne
  · cases got with
    | false => exact hborne
    | true =>
      have hfree : view.held id = none := hfits
      apply Safely.bind (processLocked_safely (hborne.lock hfree))
      rintro after ⟨result, inFlight⟩ hworked
      rcases hworked with ⟨hflight, hresult⟩ | ⟨hsame, hworking⟩
      · have htrue : inFlight = true := hflight
        subst htrue
        exact hresult
      · cases hsame
        apply Safely.ask
        · trivial
        intro _ _
        exact hworking.unlock

theorem processAll_safely (ids : List String) (hborne : inbox.Borne view) :
    Safely (Inbox.processAll digest ids inbox)
      (fun view result => result.Borne view) view := by
  induction ids generalizing inbox view with
  | nil => exact hborne
  | cons id rest ih =>
    have hcursor : Inbox.Borne { inbox with cursor := id } view :=
      hborne.of_flights rfl
    apply Safely.bind (process_safely id hcursor)
    intro view processed hprocessed
    exact ih hprocessed

theorem expiredFlights_safely (flights : List (String × Flight))
    (view : HandoffView) :
    Safely (expiredFlights flights) (fun after _ => after = view) view := by
  induction flights with
  | nil => rfl
  | cons flight rest ih =>
    apply Safely.ask
    · trivial
    intro now _
    apply Safely.bind ih
    intro after _ hsame
    exact hsame

theorem scan_safely (digest : String) (hborne : inbox.Borne view) :
    Safely (inbox.scan digest) (fun view result => result.Borne view)
      view := by
  apply Safely.bind (expiredFlights_safely inbox.flights.rows view)
  rintro after expired rfl
  apply Safely.bind (finishAll_safely "responseTimeout" expired hborne)
  intro view finished hfinished
  apply Safely.ask
  · trivial
  intro files _
  have hfiles : view.after .readDir files = view := by cases files <;> rfl
  rw [hfiles]
  cases files with
  | none => exact hfinished
  | some requests => exact processAll_safely _ hfinished

theorem disconnected_safely (plane : Option ExecutionPlane)
    (hborne : inbox.Borne view) :
    Safely (inbox.disconnected client plane)
      (fun view result => result.Borne view) view := by
  rw [Inbox.disconnected]
  exact finishAll_safely _ _ (hborne.of_flights rfl)

theorem shutdown_safely (hborne : inbox.Borne view) :
    Safely inbox.shutdown (fun view result => result.Borne view) view :=
  finishAll_safely _ _ hborne

theorem Held.absent_received (response : Json) (held : Held) :
    (held.received client plane response).absent = held.absent := by
  rw [Held.received]
  split
  · split <;> rfl
  · rfl

theorem Held.Carries.received {owner : Nat} {request : Json}
    (hcarries : held.Carries owner request) (client : Nat)
    (plane : ExecutionPlane) (response : Json) :
    (held.received client plane response).Carries owner request := by
  rcases hcarries with hflying | hacknowledged
  · rw [Held.received, hflying]
    dsimp only
    split
    · exact Or.inr rfl
    · exact Or.inl hflying
  · rw [Held.received, hacknowledged]
    exact Or.inr hacknowledged

/-- The response of the owner is seen. -/
theorem Held.Carries.acknowledged {client : Nat} {request response : Json}
    (hcarries : held.Carries client request)
    (hresponse : acknowledges request response = true) :
    (held.received client .enhancedCodex response).Acknowledged := by
  rcases hcarries with hflying | hacknowledged
  · refine ⟨client, request, ?_⟩
    rw [Held.received, hflying]
    dsimp only
    rw [if_pos ⟨rfl, rfl, hresponse⟩]
  · refine ⟨client, request, ?_⟩
    rw [Held.received, hacknowledged]
    exact hacknowledged

theorem HandoffView.held_received_eq_some {client : Nat}
    {plane : ExecutionPlane} {response : Json}
    (hheld : view.held id = some held) :
    (view.received client plane response).held id =
      some (held.received client plane response) := by
  change (view.held id).map _ = _
  rw [hheld, map_some]

theorem Inbox.Borne.received (hborne : inbox.Borne view) (client : Nat)
    (plane : ExecutionPlane) (response : Json) :
    inbox.Borne (view.received client plane response) := by
  refine ⟨?_, hborne.single⟩
  intro rpcId flight hget
  obtain ⟨held, hheld, hunsettled, request, hcarries, hid⟩ :=
    hborne.flights rpcId flight hget
  refine ⟨held.received client plane response,
    HandoffView.held_received_eq_some hheld, ?_, request,
    hcarries.received client plane response, hid⟩
  intro outcome
  rw [Held.absent_received]
  exact hunsettled outcome

theorem response_safely (value : Json) (hborne : inbox.Borne view) :
    Safely (inbox.response client plane value)
      (fun view result => result.1.Borne view)
      (view.received client plane value) := by
  have hreceived := hborne.received client plane value
  have hfinished (rpcId : String) (outcome : Outcome) (reason : String)
      (hacknowledged : ∀ flight held, inbox.flights.get rpcId = some flight →
        (view.received client plane value).held flight.handoff = some held →
        outcome = .delivered → held.Acknowledged) :
      Safely
        (do let inbox ← inbox.finish rpcId outcome reason
            pure (inbox, true))
        (fun view result => result.1.Borne view)
        (view.received client plane value) := by
    apply Safely.bind (finish_safely rpcId reason hreceived hacknowledged)
    intro after finished hafter
    exact hafter
  rw [Inbox.response]
  split
  · exact hreceived
  · rename_i hmethod
    split
    · exact hreceived
    · rename_i rpcId hid
      split
      · rename_i howned
        split
        · exact hfinished rpcId _ _ fun _ _ _ _ hskipped => by cases hskipped
        · rename_i herror
          split
          · rename_i hresult
            apply hfinished
            rintro flight held hget hheld -
            obtain ⟨before, hbefore, -, request, hcarries, hrequest⟩ :=
              hborne.flights rpcId flight hget
            rw [hget, any_some, Bool.and_eq_true, decide_eq_true_iff,
              decide_eq_true_iff] at howned
            obtain ⟨rfl, rfl⟩ := howned
            rw [HandoffView.held_received_eq_some hbefore] at hheld
            cases hheld
            apply hcarries.acknowledged
            have hvalue : stringField "id" value = some rpcId :=
              (filter_eq_some_iff.mp hid).1
            rw [acknowledges, hvalue, hrequest]
            simp [hresult, not_isSome_iff_eq_none.mp hmethod,
              not_isSome_iff_eq_none.mp herror]
          · exact hfinished rpcId _ _
              fun _ _ _ _ huncertain => by cases huncertain
      · exact hreceived

/-- Publishers neither send nor settle anything. -/
theorem publishAt_safely (createdAt : Int) (view : HandoffView) :
    Safely (publishAt id createdAt) (fun _ _ => True) view := by
  rw [publishAt]
  split
  · trivial
  · apply Safely.bind (anyMarked_reads id _ view)
    intro view found _
    cases found with
    | true => trivial
    | false =>
      apply Safely.ask
      · trivial
      intro _ _
      trivial

theorem publish_safely (id : String) (view : HandoffView) :
    Safely (publish id) (fun _ _ => True) view := by
  apply Safely.ask
  · trivial
  intro now _
  exact publishAt_safely now _

theorem recover_safely (id : String) (view : HandoffView) :
    Safely (recover id) (fun _ _ => True) view := by
  rw [recover]
  split
  · trivial
  · apply Safely.ask
    · trivial
    intro modified _
    cases modified with
    | none => trivial
    | some modified =>
      apply Safely.ask
      · trivial
      intro now _
      exact publishAt_safely _ _

end Walk

end Vellum.Enhanced.HandoffInject

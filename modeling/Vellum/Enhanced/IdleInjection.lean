/-
A result is injected while its thread is quiet.  A scan sends only for a thread
whose owner it found idle, and what it does on the way leaves alone what the
inbox knows of the threads; so an inbox that has kept track injects into no
running turn.
-/
import Vellum.Enhanced.TurnTracking

namespace Vellum.Enhanced.HandoffInject

open List

/-! A scan from the side of the bindings. -/

/-- The last binding that was read, with its thread. -/
abbrev Resolved := Option (String × ThreadRuntimeBinding)

def resolvedAfter (seen : Resolved) :
    (op : InboxOp) → InboxAnswer op → Resolved
  | .binding thread, some binding => some (thread, binding)
  | _, _ => seen

def Resolves (seen : Resolved) (op : InboxOp) (answer : InboxAnswer op)
    (after : Resolved) : Prop :=
  after = resolvedAfter seen op answer

/-- What is sent is an injection for the thread whose binding was read last,
and the thread is one of some. -/
def InjectsInto (allowed : String → Prop) (seen : Resolved) : InboxOp → Prop
  | .send _ value => ∃ thread binding, seen = some (thread, binding) ∧
      methodOf value = "thread/inject_items" ∧
      strAt ["params", "threadId"] value = some binding.nativeThreadId ∧
      allowed thread
  | _ => True

/-- The two inboxes know the same of the threads. -/
structure SameThreads (left right : Inbox) : Prop where
  owners : left.owners = right.owners
  activity : left.activity = right.activity
  forwarded : left.forwarded = right.forwarded

namespace SameThreads

variable {left middle right : Inbox}

theorem refl (inbox : Inbox) : SameThreads inbox inbox := ⟨rfl, rfl, rfl⟩

theorem trans (hfirst : SameThreads left middle)
    (hlast : SameThreads middle right) : SameThreads left right where
  owners := hfirst.owners.trans hlast.owners
  activity := hfirst.activity.trans hlast.activity
  forwarded := hfirst.forwarded.trans hlast.forwarded

theorem idleOwner (hsame : SameThreads left right) (thread : String) :
    left.idleOwner thread = right.idleOwner thread := by
  rw [Inbox.idleOwner, Inbox.idleOwner, hsame.owners, hsame.activity,
    hsame.forwarded]

end SameThreads

section Walk

/-- The task sends only for threads of some, and promises something about its
result. -/
abbrev Walks {α : Type} (allowed : String → Prop) (task : Task α)
    (post : α → Prop) (seen : Resolved) : Prop :=
  Program.Always Resolves (InjectsInto allowed) (fun _ result => post result)
    task seen

variable {allowed : String → Prop} {α β : Type} {seen : Resolved}

theorem Walks.bind {task : Task α} {f : α → Task β} {middle : α → Prop}
    {post : β → Prop} (hfirst : Walks allowed task middle seen)
    (hrest : ∀ seen result, middle result →
      Walks allowed (f result) post seen) :
    Walks allowed (task >>= f) post seen := by
  apply Program.Always.bind
  exact Program.Always.mono hfirst hrest

theorem Walks.ask {op : InboxOp} {f : InboxAnswer op → Task β}
    {post : β → Prop} (hgood : InjectsInto allowed seen op)
    (hrest : ∀ answer,
      Walks allowed (f answer) post (resolvedAfter seen op answer)) :
    Walks allowed (ask op >>= f) post seen := by
  refine ⟨hgood, ?_⟩
  rintro answer after rfl
  exact hrest answer

theorem anyMarked_walks (id : String) (marks : List Mark) (seen : Resolved) :
    Walks allowed (anyMarked id marks) (fun _ => True) seen := by
  induction marks generalizing seen with
  | nil => trivial
  | cons mark rest ih =>
    apply Walks.ask
    · trivial
    intro found
    cases found with
    | false => exact ih _
    | true => trivial

theorem settle_walks (id : String) (outcome : Outcome) (reason : String)
    (seen : Resolved) :
    Walks allowed (settle id outcome reason) (fun _ => True) seen := by
  apply Walks.ask
  · trivial
  intro written
  cases written with
  | error message => trivial
  | ok fresh =>
    apply Walks.ask
    · trivial
    intro removed
    trivial

theorem finish_walks (inbox : Inbox) (rpcId : String) (outcome : Outcome)
    (reason : String) (seen : Resolved) :
    Walks allowed (inbox.finish rpcId outcome reason) (SameThreads inbox)
      seen := by
  rw [Inbox.finish]
  split
  · exact SameThreads.refl inbox
  · apply Walks.bind (settle_walks _ _ _ _)
    intro seen _ _
    apply Walks.ask
    · trivial
    intro _
    exact ⟨rfl, rfl, rfl⟩

theorem finishAll_walks (reason : String) (ids : List String) (inbox : Inbox)
    (seen : Resolved) :
    Walks allowed (Inbox.finishAll reason ids inbox) (SameThreads inbox)
      seen := by
  induction ids generalizing inbox seen with
  | nil => exact SameThreads.refl inbox
  | cons rpcId rest ih =>
    apply Walks.bind (finish_walks inbox rpcId .uncertain reason seen)
    intro seen finished hsame
    apply Program.Always.mono (ih finished seen)
    intro _ result hrest
    exact hsame.trans hrest

theorem inject_walks (inbox : Inbox) (id thread : String) (record : Journal)
    (binding : ThreadRuntimeBinding) (client : Nat)
    (hallowed : allowed thread) :
    Walks allowed (inbox.inject id record binding client) (SameThreads inbox)
      (some (thread, binding)) := by
  apply Walks.ask
  · trivial
  intro now
  apply Walks.ask
  · exact ⟨thread, binding, rfl, rfl, rfl, hallowed⟩
  intro sent
  cases sent with
  | true => exact ⟨rfl, rfl, rfl⟩
  | false =>
    apply Program.Always.mono (finish_walks _ _ _ _ _)
    intro _ result hsame
    exact ⟨hsame.owners, hsame.activity, hsame.forwarded⟩

theorem settled_walks (inbox : Inbox) (id : String) (outcome : Outcome)
    (reason : String) (inFlight : Bool) (seen : Resolved) :
    Walks allowed
      (do settle id outcome reason
          pure (inbox, inFlight))
      (fun result => SameThreads inbox result.1) seen := by
  apply Walks.bind (settle_walks _ _ _ _)
  intro _ _ _
  exact SameThreads.refl inbox

variable {inbox : Inbox} {digest : String}

section

variable
  (hallowed : ∀ thread client,
      inbox.idleOwner thread = some client → allowed thread)
include hallowed

theorem processRecord_walks (id : String) (now : Int) (record : Journal)
    (seen : Resolved) :
    Walks allowed (inbox.processRecord id digest now record)
      (fun result => SameThreads inbox result.1) seen := by
  apply Walks.ask
  · trivial
  intro found
  cases found with
  | none => exact SameThreads.refl inbox
  | some binding =>
    dsimp only
    split
    · exact settled_walks inbox _ _ _ _ _
    · split
      · exact SameThreads.refl inbox
      · split
        · exact settled_walks inbox _ _ _ _ _
        · cases hidle : inbox.idleOwner record.threadId with
          | none => exact SameThreads.refl inbox
          | some client =>
            apply Walks.ask
            · trivial
            intro written
            split
            · apply Walks.bind (inject_walks inbox id record.threadId record
                binding client (hallowed _ _ hidle))
              intro _ injected hsame
              exact hsame
            · exact SameThreads.refl inbox

theorem processLocked_walks (id : String) (seen : Resolved) :
    Walks allowed (inbox.processLocked id digest)
      (fun result => SameThreads inbox result.1) seen := by
  have hremove : ∀ seen, Walks allowed
      (do let _ ← ask (.removeRequest id)
          pure (inbox, false))
      (fun result => SameThreads inbox result.1) seen := by
    intro seen
    apply Walks.ask
    · trivial
    intro _
    exact SameThreads.refl inbox
  apply Walks.ask
  · trivial
  intro sent
  cases sent with
  | true =>
    apply Walks.bind (anyMarked_walks id outcomes _)
    intro seen known _
    cases known with
    | true => exact hremove seen
    | false => exact settled_walks inbox _ _ _ _ _
  | false =>
    apply Walks.bind (anyMarked_walks id outcomes _)
    intro seen known _
    cases known with
    | true => exact hremove seen
    | false =>
      apply Walks.ask
      · trivial
      intro request
      cases request with
      | none => exact settled_walks inbox _ _ _ _ _
      | some request =>
        apply Walks.ask
        · trivial
        intro now
        split
        · exact settled_walks inbox _ _ _ _ _
        · split
          · exact settled_walks inbox _ _ _ _ _
          · apply Walks.ask
            · trivial
            intro record
            cases record with
            | none => exact settled_walks inbox _ _ _ _ _
            | some record =>
              dsimp only
              split
              · exact settled_walks inbox _ _ _ _ _
              · exact processRecord_walks hallowed id now record _

theorem process_walks (id : String) (seen : Resolved) :
    Walks allowed (inbox.process id digest) (SameThreads inbox) seen := by
  apply Walks.ask
  · trivial
  intro locked
  split
  · apply Walks.bind (processLocked_walks hallowed id _)
    rintro seen ⟨result, inFlight⟩ hsame
    cases inFlight with
    | true => exact hsame
    | false =>
      apply Walks.ask
      · trivial
      intro _
      exact hsame
  · exact SameThreads.refl inbox

end

theorem processAll_walks (ids : List String)
    (hallowed : ∀ thread client, inbox.idleOwner thread = some client →
      allowed thread) (seen : Resolved) :
    Walks allowed (Inbox.processAll digest ids inbox) (SameThreads inbox)
      seen := by
  induction ids generalizing inbox seen with
  | nil => exact SameThreads.refl inbox
  | cons id rest ih =>
    have hcursor : SameThreads inbox { inbox with cursor := id } :=
      ⟨rfl, rfl, rfl⟩
    apply Walks.bind (process_walks ?_ id seen)
    · intro seen processed hsame
      have hfirst := hcursor.trans hsame
      apply Program.Always.mono (ih ?_ seen)
      · intro _ result hrest
        exact hfirst.trans hrest
      · intro thread client hidle
        rw [← hfirst.idleOwner] at hidle
        exact hallowed thread client hidle
    · intro thread client hidle
      rw [← hcursor.idleOwner] at hidle
      exact hallowed thread client hidle

theorem expiredFlights_walks (flights : List (String × Flight))
    (seen : Resolved) :
    Walks allowed (expiredFlights flights) (fun _ => True) seen := by
  induction flights generalizing seen with
  | nil => trivial
  | cons flight rest ih =>
    apply Walks.ask
    · trivial
    intro now
    apply Walks.bind (ih _)
    intro _ _ _
    trivial

/-- A scan injects into threads that have an idle owner. -/
theorem scan_walks (hallowed : ∀ thread client,
      inbox.idleOwner thread = some client → allowed thread)
    (seen : Resolved) :
    Walks allowed (inbox.scan digest) (SameThreads inbox) seen := by
  apply Walks.bind (expiredFlights_walks inbox.flights.rows seen)
  intro seen expired _
  apply Walks.bind (finishAll_walks "responseTimeout" expired inbox seen)
  intro seen finished hsame
  apply Walks.ask
  · trivial
  intro files
  cases files with
  | none => exact hsame
  | some requests =>
    apply Program.Always.mono (processAll_walks _ ?_ _)
    · intro _ result hrest
      exact hsame.trans hrest
    · intro thread client hidle
      rw [← hsame.idleOwner] at hidle
      exact hallowed thread client hidle

theorem response_walks (inbox : Inbox) (client : Nat)
    (plane : ExecutionPlane) (value : Json) (seen : Resolved) :
    Walks allowed (inbox.response client plane value)
      (fun result => SameThreads inbox result.1) seen := by
  have hfinished : ∀ id outcome reason,
      Walks allowed
        (do let inbox ← inbox.finish id outcome reason
            pure (inbox, true))
        (fun result => SameThreads inbox result.1) seen := by
    intro id outcome reason
    apply Walks.bind (finish_walks inbox id outcome reason seen)
    intro _ finished hsame
    exact hsame
  rw [Inbox.response]
  split
  · exact SameThreads.refl inbox
  · split
    · exact SameThreads.refl inbox
    · split
      · split
        · exact hfinished _ _ _
        · split
          · exact hfinished _ _ _
          · exact hfinished _ _ _
      · exact SameThreads.refl inbox

end Walk

/-- Behind a task that leaves the threads alone, their inbox still tracks. -/
theorem Tracks.of_same {inbox : Inbox} {watched : Watched}
    (htracks : Tracks watched) (hsame : SameThreads watched.inbox inbox) :
    Tracks ⟨inbox, watched.history⟩ := by
  constructor
  · intro thread turn hrunning
    have hbefore := htracks.running thread turn hrunning
    rwa [Watched.follows, hsame.activity] at hbefore
  · rw [← hsame.activity]
    exact htracks.idle
  · rw [← hsame.forwarded]
    exact htracks.waiting

/-- The states that an inbox comes through from its launch on: events, each
under a condition, with scans and with responses to injections between them. -/
inductive Reached (kept : Watched → TurnEvent → Prop) (launch : String) :
    Watched → Prop
  | launched : Reached kept launch (.new launch)
  | turn {watched : Watched} {event : TurnEvent}
      (hreached : Reached kept launch watched) (hkept : kept watched event) :
      Reached kept launch (watched.step event)
  | scan {watched : Watched} {inbox : Inbox} (digest : String)
      (hreached : Reached kept launch watched)
      (hends : (watched.inbox.scan digest).Ends inbox) :
      Reached kept launch ⟨inbox, watched.history⟩
  | response {watched : Watched} {inbox : Inbox} {swallowed : Bool}
      (client : Nat) (plane : ExecutionPlane) (value : Json)
      (hreached : Reached kept launch watched)
      (hends : (watched.inbox.response client plane value).Ends
        (inbox, swallowed)) :
      Reached kept launch ⟨inbox, watched.history⟩

/-- Every event of the run meets the condition where it happens. -/
def Watched.AllKept (kept : Watched → TurnEvent → Prop) (watched : Watched) :
    List TurnEvent → Prop
  | [] => True
  | event :: rest =>
    kept watched event ∧ (watched.step event).AllKept kept rest

theorem Reached.run {kept : Watched → TurnEvent → Prop} {launch : String}
    {watched : Watched} {events : List TurnEvent}
    (hreached : Reached kept launch watched)
    (hkept : watched.AllKept kept events) :
    Reached kept launch (watched.run events) := by
  induction events generalizing watched with
  | nil => exact hreached
  | cons event rest ih => exact ih (hreached.turn hkept.1) hkept.2

theorem resolves_total (seen : Resolved) (op : InboxOp)
    (answer : InboxAnswer op) : ∃ after, Resolves seen op answer after :=
  ⟨_, rfl⟩

theorem Reached.tracks {launch : String} {watched : Watched}
    (hreached : Reached Watched.KeepsTrack launch watched) :
    Tracks watched := by
  induction hreached with
  | launched => exact .new launch
  | turn hreached hkept ih => exact ih.step hkept
  | scan digest hreached hends ih =>
    obtain ⟨_, hsame⟩ := Program.Always.ended resolves_total
      (scan_walks (fun _ _ _ => trivial) none : Walks (fun _ => True) _ _ _)
      hends
    exact ih.of_same hsame
  | response client plane value hreached hends ih =>
    obtain ⟨_, hsame⟩ := Program.Always.ended resolves_total
      (response_walks _ client plane value none : Walks (fun _ => True) _ _ _)
      hends
    exact ih.of_same hsame

/-- A run that keeps track of the turns injects only into quiet threads. -/
theorem injected_while_quiet {launch : String} {watched : Watched}
    (hreached : Reached Watched.KeepsTrack launch watched) (digest : String) :
    Walks watched.history.Quiet (watched.inbox.scan digest) (fun _ => True)
      none := by
  have hwalks : Walks watched.history.Quiet (watched.inbox.scan digest)
      (SameThreads watched.inbox) none :=
    scan_walks (fun _ _ hidle => hreached.tracks.quiet hidle) none
  apply Program.Always.mono hwalks
  intro _ _ _
  trivial

namespace OverruledStart

/-- Thread `t` of the enhanced plane. -/
def binding : ThreadRuntimeBinding :=
  .new "t" .enhancedCodex "d" "p" "m" "n" 0

def bindings (thread : String) : Option ThreadRuntimeBinding :=
  if thread = "t" then some binding else none

def forwarded (id method : String) : TurnEvent :=
  .forwarded 1 .enhancedCodex (.obj [("id", .str id), ("method", .str method),
    ("params", .obj [("threadId", .str "t")])])

def observed (value : Json) : TurnEvent :=
  .observed 1 .enhancedCodex value bindings

def resumed : TurnEvent :=
  observed (.obj [("id", .str "1"), ("result", .obj [("thread",
    .obj [("id", .str "t"), ("status", .obj [("type", .str "idle")])])])])

def notified (method turn : String) : TurnEvent :=
  observed (.obj [("method", .str method), ("params",
    .obj [("threadId", .str "t"), ("turn", .obj [("id", .str turn)])])])

def begun (id turn : String) : TurnEvent :=
  observed (.obj [("id", .str id), ("result", .obj [("turn",
    .obj [("id", .str turn), ("status", .str "inProgress")])])])

/-- A turn starts and completes. -/
def plain : List TurnEvent :=
  [forwarded "1" "thread/resume", resumed, forwarded "2" "turn/start",
    begun "2" "a", notified "turn/completed" "a"]

/-- Turn `b` completes while `a` is being started. -/
def crossed : List TurnEvent :=
  [forwarded "1" "thread/resume", resumed, notified "turn/started" "b",
    forwarded "2" "turn/start", notified "turn/completed" "b", begun "2" "a"]

/-- One handoff is asked for and was completed. -/
def remote : Journal :=
  { id := "h", threadId := "t", remote := some ⟨"completed", "done"⟩ }

theorem turnOf_single (id : String) : turnOf "" [id] = [id] := by
  rw [turnOf, mergeSort_singleton]
  simp only [countP_singleton]
  split <;> rfl

/-- A scan that finds the handoff injects into its thread. -/
theorem injects {allowed : String → Prop} {inbox : Inbox}
    (hflights : inbox.flights.rows = []) (hcursor : inbox.cursor = "")
    (hidle : inbox.idleOwner "t" = some 1)
    (hwalks : Walks allowed (inbox.scan "d") (fun _ => True) none) :
    allowed "t" := by
  rw [Inbox.scan, hflights] at hwalks
  have hfiles : Walks allowed
      (Inbox.processAll "d" (turnOf inbox.cursor (["h"].filter (validId ·)))
        inbox) (fun _ => True) none :=
    hwalks.2 (some ["h"]) none rfl
  have hvalid : ["h"].filter (validId ·) = ["h"] := by decide
  rw [hcursor, hvalid, turnOf_single] at hfiles
  let serving : Inbox := { inbox with cursor := "h" }
  have hprocess : Walks allowed (serving.process "h" "d") (fun _ => True)
      none := Program.Always.front hfiles
  have hlocked : Walks allowed (serving.processLocked "h" "d")
      (fun _ => True) none :=
    Program.Always.front (hprocess.2 (.ok true) none rfl)
  have hfresh : Walks allowed (anyMarked "h" outcomes >>= fun _ => _)
      (fun _ => True) none := hlocked.2 false none rfl
  have hrequest := ((hfresh.2 false none rfl).2 false none rfl).2 false none rfl
  have hjournal := (hrequest.2 (some ⟨"h", 0⟩) none rfl).2 (0 : Int) none rfl
  have hrecord : Walks allowed (serving.processRecord "h" "d" 0 remote)
      (fun _ => True) none :=
    hjournal.2 (some remote) none rfl
  have howner : serving.idleOwner "t" = some 1 := hidle
  have hbound := hrecord.2 (some binding) _ rfl
  simp only [Program.bind, binding, ThreadRuntimeBinding.new, ne_eq,
    not_true_eq_false, ↓reduceIte, String.reduceEq, or_self, remote, howner]
    at hbound
  have hsend := ((hbound.2 (.ok true) _ rfl).2 (0 : Nat) _ rfl).1
  obtain ⟨thread, found, hseen, -, -, hallowed⟩ := hsend
  cases hseen
  exact hallowed

/-- The response to the start of `a` is overruled by the end of `b`. -/
theorem crossed_injects_into_running_turn :
    ¬ ∀ (launch : String) (watched : Watched),
      Reached (fun _ _ => True) launch watched → ∀ digest : String,
        Walks watched.history.Quiet (watched.inbox.scan digest)
          (fun _ => True) none := by
  intro hall
  have hkept : Watched.AllKept (fun _ _ => True) (.new "l") crossed :=
    ⟨trivial, trivial, trivial, trivial, trivial, trivial, trivial⟩
  have hwalks := hall "l" (Watched.run (.new "l") crossed)
    (.run .launched hkept) "d"
  have hquiet := injects (by rfl) (by rfl) (by decide) hwalks
  have hstarted :
      ("t", "a") ∈ (Watched.run (.new "l") crossed).history.started := by
    decide
  exact absurd (hquiet.completed "a" hstarted) (by decide)

/-- While no turn has started, a response keeps track if the one to a start
is taken as news. -/
theorem first_keeps_track {watched : Watched} {value : Json}
    {answer : Json × Forwarded}
    (hstarted : watched.history.started = [])
    (hanswered :
      watched.inbox.answered 1 .enhancedCodex value = some answer)
    (hlearns : answer.2.method = "turn/start" → answer.2.thread = some "t" ∧
      watched.Learns .enhancedCodex bindings "t" answer.2) :
    watched.KeepsTrack (observed value) := by
  intro id request thread _ hsome hreports
  rw [hanswered] at hsome
  cases hsome
  constructor
  · intro _ turn hrunning
    have hmem := hrunning.1
    rw [hstarted] at hmem
    exact absurd hmem not_mem_nil
  · intro hold hmethod
    obtain ⟨hthread, hnews⟩ := hlearns hmethod
    have hnamed := hreports.thread
    rw [responseThread, if_pos hmethod, hthread] at hnamed
    cases hnamed
    exact absurd hnews hold

theorem plain_keeps_track :
    Watched.AllKept Watched.KeepsTrack (.new "l") plain := by
  refine ⟨?_, ?_, ?_, ?_, ?_, trivial⟩
  · exact fun _ _ _ _ hmem => absurd hmem not_mem_nil
  · exact first_keeps_track rfl rfl fun hmethod => absurd hmethod (by decide)
  · exact fun _ _ _ _ hmem => absurd hmem not_mem_nil
  · exact first_keeps_track rfl rfl fun _ => ⟨rfl, rfl, rfl⟩
  · exact fun _ _ _ hmethod => absurd hmethod (by decide)

theorem plain_injects_while_quiet :
    (Watched.run (.new "l") plain).inbox.idleOwner "t" = some 1 ∧
      Walks (Watched.run (.new "l") plain).history.Quiet
        ((Watched.run (.new "l") plain).inbox.scan "d") (fun _ => True) none :=
  ⟨by decide,
    injected_while_quiet (.run .launched plain_keeps_track) "d"⟩

end OverruledStart

end Vellum.Enhanced.HandoffInject

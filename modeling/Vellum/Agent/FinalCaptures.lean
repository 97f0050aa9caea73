/-
Captures that a poll records as final (`vellum-remote-agent/src/handoff.rs`).
Polls come one after the other and may fail or be cut off anywhere.  A label is
fixed by the first attempt at a capture; a later attempt keeps it, whatever the
thread has come to in between.
-/
import Vellum.Agent.HandoffRuns

namespace Vellum.Agent

open Option

/-- The thread is at rest and the handoff's turn is completed. -/
def threadAtRest (turnId : Option String) (response : Json) : Bool :=
  match response.get "thread" with
  | none => false
  | some thread =>
    !isActive thread &&
      (((thread.get "turns").bind Json.asArr).bind fun turns =>
        turns.find? fun turn => strAt ["id"] turn = turnId).any
          fun turn => strAt ["status"] turn = some "completed"

/-- A record that is written, the one it replaces, and whether the call has
seen the thread at rest. -/
structure Written where
  before : Option Record
  atRest : Bool
  record : Record

/-- What is new and final in the record was taken at rest. -/
def Written.Justified (written : Written) : Prop :=
  ∀ operation capture,
    written.record.captures.get operation = some capture →
    capture.isPartial = false →
    written.atRest = true ∨ ∃ before, written.before = some before ∧
      before.captures.get operation = some capture

structure PollHost where
  record : Option Record
  /-- What the last `thread/read` of the call has shown. -/
  atRest : Bool := false
  writes : List Written := []

namespace PollHost

def put (host : PollHost) (record : Record) : PollHost :=
  { host with
    record := some record
    writes := ⟨host.record, host.atRest, record⟩ :: host.writes }

def shown (host : PollHost) (method : String) (response : Json) : PollHost :=
  if method = "thread/read" then
    { host with
      atRest := threadAtRest (host.record.bind Record.turnId) response }
  else host

/-- The client labels a capture as it is asked to. -/
def serve (host : PollHost) :
    (op : HandoffOp) → Outcome → Option (HandoffAnswer op × PollHost)
  | .preflight, .done => some (.ok (), host)
  | .preflight, .error message _ => some (.error message, host)
  | .acquireLock, .done => some (.ok (), host)
  | .acquireLock, .error message _ => some (.error message, host)
  | .releaseLock, _ => some ((), host)
  | .recordExists _, .done => some (.ok host.record.isSome, host)
  | .recordExists _, .error message _ => some (.error message, host)
  | .readRecord _, .done => host.record.map fun record => (.ok record, host)
  | .readRecord _, .error message _ => some (.error message, host)
  | .writeRecord record, .done => some (.ok (), host.put record)
  | .writeRecord record, .error message applied =>
    some (.error message, if applied then host.put record else host)
  | .prepareRepo _, .done => some (.ok (), host)
  | .prepareRepo _, .error message _ => some (.error message, host)
  | .prepareWorktree _ _, .done => some (.ok (), host)
  | .prepareWorktree _ _, .error message _ => some (.error message, host)
  | .rpc method _, .json value => some (.ok value, host.shown method value)
  | .rpc _ _, .error message _ => some (.error message, host)
  | .capture _ _ _ isPartial, .capture value =>
    some (.ok { value with isPartial }, host)
  | .capture _ _ _ _, .error message _ => some (.error message, host)
  | _, _ => none

end PollHost

/-- An attempt at a capture that was labelled final before finds the thread at
rest again. -/
def retriesAtRest (request : ResultRequest) (host : PollHost) :
    (op : HandoffOp) → HandoffAnswer op → Bool
  | .rpc method _, .ok response =>
    if request.capture && method = "thread/read" then
      match host.record, request.operationId with
      | some record, some operation =>
        record.captureIntents.get operation ≠ some false ||
          threadAtRest record.turnId response
      | _, _ => true
    else true
  | _, _ => true

/-- The calls of a poll, with a condition on what they are answered. -/
def PollServes (meets : PollHost → (op : HandoffOp) → HandoffAnswer op → Bool)
    (host : PollHost) (op : HandoffOp) (answer : HandoffAnswer op)
    (after : PollHost) : Prop :=
  (∃ outcome, host.serve op outcome = some (answer, after)) ∧
    meets host op answer = true

/-- The states a host gets into by polls, each of them cut off anywhere or run
to its end. -/
inductive Polled (crates : HandoffCrates) (pathsRoot : String)
    (meets : ResultRequest → PollHost → (op : HandoffOp) → HandoffAnswer op →
      Bool) (start : Option Record) : PollHost → Prop
  | new : Polled crates pathsRoot meets start { record := start }
  | poll {host after : PollHost} (request : ResultRequest)
      (hhost : Polled crates pathsRoot meets start host)
      (hcut : Program.Reaches (PollServes (meets request))
        (resultWith crates pathsRoot request).run
        { host with atRest := false } after) :
      Polled crates pathsRoot meets start after

section Walk

variable (request : ResultRequest)

def PollHost.Good (host : PollHost) : HandoffOp → Prop
  | .writeRecord record => Written.Justified ⟨host.record, host.atRest, record⟩
  | _ => True

/-- Every write of the program is justified, and what it hands on is as
promised. -/
def Polls (program : Attempt α) (post : PollHost → α → Prop)
    (host : PollHost) : Prop :=
  program.run.Always (PollServes (retriesAtRest request)) PollHost.Good
    (fun after result => ∀ value, result = .ok value → post after value) host

variable {request} {host : PollHost} {post : PollHost → α → Prop}

theorem Polls.pure {value : α} (hpost : post host value) :
    Polls request (pure value) post host := by
  rintro _ ⟨⟩
  exact hpost

theorem Polls.throw {message : String} :
    Polls request (throw message : Attempt α) post host := by
  rintro _ ⟨⟩

theorem Polls.bind {program : Attempt β} {f : β → Attempt α}
    (hpolls : Polls request program
      (fun after value => Polls request (f value) post after) host) :
    Polls request (program >>= f) post host := by
  apply Program.Always.attempt
  apply Program.Always.mono hpolls
  intro after result hresult
  cases result with
  | ok value => exact hresult value rfl
  | error message => rintro _ ⟨⟩

theorem Polls.ofExcept {result : Except String α}
    (hok : ∀ value, result = .ok value → post host value) :
    Polls request (ofExcept result) post host := hok

theorem Polls.mono {program : Attempt α} {weaker : PollHost → α → Prop}
    (hpolls : Polls request program post host)
    (hweaker : ∀ after value, post after value → weaker after value) :
    Polls request program weaker host := by
  apply Program.Always.mono hpolls
  intro after result hresult value hvalue
  exact hweaker after value (hresult value hvalue)

theorem readRecord_polls (id : String) :
    Polls request (readRecord id)
      (fun after record => after = host ∧ host.record = some record) host := by
  refine ⟨trivial, ?_⟩
  rintro answer after ⟨⟨outcome, hserve⟩, _⟩ value rfl
  cases outcome with
  | done =>
    obtain ⟨record, hrecord, hanswer⟩ := map_eq_some_iff.mp hserve
    cases hanswer
    exact ⟨rfl, hrecord⟩
  | _ => cases hserve

theorem save_polls {record : Record}
    (hgood : Written.Justified ⟨host.record, host.atRest, record⟩) :
    Polls request (save record) (fun after _ => after = host.put record)
      host := by
  refine ⟨hgood, ?_⟩
  rintro answer after ⟨⟨outcome, hserve⟩, _⟩ value rfl
  cases outcome with
  | done =>
    cases hserve
    rfl
  | _ => cases hserve

theorem acquireLock_polls :
    Polls request acquireLock (fun after _ => after = host) host := by
  refine ⟨trivial, ?_⟩
  rintro answer after ⟨⟨outcome, hserve⟩, _⟩ value rfl
  cases outcome with
  | done =>
    cases hserve
    rfl
  | _ => cases hserve

theorem takeCapture_polls (layout : Layout) (snapshot resultRef : String)
    (isPartial : Bool) :
    Polls request (takeCapture layout snapshot resultRef isPartial)
      (fun after capture => after = host ∧ capture.isPartial = isPartial)
      host := by
  refine ⟨trivial, ?_⟩
  rintro answer after ⟨⟨outcome, hserve⟩, _⟩ value rfl
  cases outcome with
  | capture taken =>
    cases hserve
    exact ⟨rfl, rfl⟩
  | _ => cases hserve

theorem rpc_polls (method : String) (params : Json) :
    Polls request (rpc method params)
      (fun after response => after = host.shown method response ∧
        retriesAtRest request host (.rpc method params) (.ok response) = true)
      host := by
  refine ⟨trivial, ?_⟩
  rintro answer after ⟨⟨outcome, hserve⟩, hmeets⟩ value rfl
  cases outcome with
  | json response =>
    cases hserve
    exact ⟨rfl, hmeets⟩
  | _ => cases hserve

theorem justified_of_captures {record base : Record} {atRest : Bool}
    (hcaptures : record.captures = base.captures) :
    Written.Justified ⟨some base, atRest, record⟩ := by
  intro operation capture hget _
  rw [hcaptures] at hget
  exact Or.inr ⟨base, rfl, hget⟩

/-- A part hands on the record that is stored. -/
def Stored (host : PollHost) (record : Record) : Prop :=
  host.record = some record

variable {record : Record}

theorem saveLast_polls (hstored : Stored host record) {next : Record}
    (hcaptures : next.captures = record.captures) :
    Polls request (do save next; pure next) Stored host := by
  apply Polls.bind
  apply (save_polls _).mono
  · rintro after _ rfl
    exact Polls.pure rfl
  · rw [hstored]
    exact justified_of_captures hcaptures

theorem load_polls (id : String) :
    Polls request (load id)
      (fun after record => after = host ∧ Stored host record) host := by
  rw [load]
  split
  · exact Polls.throw
  · apply Polls.bind
    apply (readRecord_polls id).mono
    rintro after record ⟨rfl, hrecord⟩
    apply Polls.bind
    apply Polls.ofExcept
    intro _ _
    split
    · exact Polls.throw
    · exact Polls.pure ⟨rfl, hrecord⟩

theorem adoptCandidate_polls (hstored : Stored host record) (explicit : Bool)
    (candidates : List String) :
    Polls request (adoptCandidate record explicit candidates) Stored host := by
  rw [adoptCandidate]
  split
  · split
    · exact saveLast_polls hstored rfl
    · exact Polls.pure hstored
  · split
    · exact saveLast_polls hstored rfl
    · exact Polls.pure hstored

theorem listPages_polls (hstored : Stored host record) (layout : Layout)
    (explicit : Bool) (fuel : Nat) (cursor : Json) (candidates : List String) :
    Polls request (listPages record layout explicit fuel cursor candidates)
      Stored host := by
  induction fuel generalizing cursor candidates with
  | zero => exact Polls.pure hstored
  | succ fuel ih =>
    apply Polls.bind
    apply (rpc_polls "thread/list" _).mono
    rintro after page ⟨rfl, _⟩
    split
    · exact Polls.throw
    · apply Polls.bind
      apply Polls.ofExcept
      intro found _
      split
      · exact Polls.pure hstored
      · split
        · exact adoptCandidate_polls hstored explicit found
        · split
          · exact ih _ found
          · exact Polls.throw
        · exact Polls.throw

theorem observeTurn_polls (hstored : Stored host record) (layout : Layout)
    (response : Json) :
    Polls request (observeTurn record layout response) Stored host := by
  rw [observeTurn]
  split
  · exact Polls.throw
  · split
    · exact Polls.throw
    · split
      · exact Polls.throw
      · split
        · exact Polls.throw
        · exact saveLast_polls hstored rfl
      · exact Polls.pure hstored

theorem reconcile_polls (crates : HandoffCrates) (hstored : Stored host record)
    (layout : Layout) (explicit : Bool) :
    Polls request (reconcile crates record layout explicit) Stored host := by
  rw [reconcile]
  split
  · exact listPages_polls hstored layout explicit 2 .null []
  · apply Program.Always.bind
    refine ⟨trivial, ?_⟩
    rintro answer after ⟨⟨outcome, hserve⟩, _⟩
    have hafter : Stored after record := by
      cases outcome with
      | json response =>
        cases hserve
        exact hstored
      | error message applied =>
        cases hserve
        exact hstored
      | _ => cases hserve
    change Polls request (answerTurn crates record layout explicit answer)
      Stored after
    cases answer with
    | ok response => exact observeTurn_polls hafter layout response
    | error error =>
      rw [answerTurn]
      split
      · split
        · exact saveLast_polls hafter rfl
        · exact Polls.pure hafter
      · exact Polls.throw
  · exact Polls.pure hstored

/-- A capture with its label: the intent on record is kept, a new one is what
the thread shows. -/
theorem captureResult_polls (hstored : Stored host record) (layout : Layout)
    (handoffId operation : String) (thread : Json) (turnStatus : String)
    (result : HandoffStatus)
    (hlabel : (record.captureIntents.get operation).getD
      (isActive thread || decide (turnStatus ≠ "completed")) = false →
      host.atRest = true) :
    Polls request
      (captureResult record layout handoffId operation thread turnStatus result)
      (fun _ _ => True) host := by
  apply Polls.bind
  apply (save_polls _).mono
  · rintro after _ rfl
    apply Polls.bind
    apply (takeCapture_polls layout _ _ _).mono
    rintro after capture ⟨rfl, hlabelled⟩
    apply Polls.bind
    apply (save_polls _).mono
    · intro after _ _
      exact Polls.pure trivial
    · intro other found hget hfinal
      simp only [HashMap.get_insert] at hget
      split at hget
      · cases hget
        exact Or.inl (hlabel (hlabelled.symm.trans hfinal))
      · exact Or.inr ⟨_, rfl, hget⟩
  · rw [hstored]
    exact justified_of_captures rfl

theorem observeResult_polls (hstored : Stored host record) (layout : Layout)
    (result : HandoffStatus) (response : Json)
    (hshown : host.atRest = threadAtRest record.turnId response)
    (hretry : request.capture = true →
      ∀ operation, request.operationId = some operation →
        record.captureIntents.get operation = some false →
        threadAtRest record.turnId response = true) :
    Polls request (observeResult record layout request result response)
      (fun _ _ => True) host := by
  rw [observeResult]
  split
  · exact Polls.throw
  · rename_i thread hthread
    split
    · exact Polls.throw
    · split
      · exact Polls.throw
      · rename_i turn hturn
        split
        · exact Polls.throw
        · rename_i turnStatus hstatus
          dsimp only
          split
          · rename_i hcapture
            split
            · exact Polls.throw
            · rename_i operation hoperation
              apply captureResult_polls hstored
              intro hfinal
              rw [hshown]
              cases hintent : record.captureIntents.get operation with
              | some intent =>
                rw [hintent, getD_some] at hfinal
                rw [hfinal] at hintent
                exact hretry hcapture operation hoperation hintent
              | none =>
                rw [hintent, getD_none, Bool.or_eq_false_iff,
                  decide_eq_false_iff_not, not_not] at hfinal
                have hcompleted := (filter_eq_some_iff.mp hstatus).1
                rw [hfinal.2] at hcompleted
                simp [threadAtRest, hthread, hfinal.1, hturn, hcompleted]
          · exact Polls.pure trivial

theorem resultLoaded_polls (crates : HandoffCrates) (pathsRoot : String) :
    Polls request (resultLoaded crates pathsRoot request) (fun _ _ => True)
      host := by
  apply Polls.bind
  apply (load_polls _).mono
  rintro after record ⟨rfl, hstored⟩
  apply Polls.bind
  apply (reconcile_polls crates hstored _ false).mono
  intro host record hstored
  dsimp only
  split
  · exact Polls.pure trivial
  · split
    · exact Polls.pure trivial
    · apply Polls.bind
      apply (rpc_polls "thread/read" _).mono
      rintro after response ⟨rfl, hmeets⟩
      have hrecord : host.record = some record := hstored
      have hshown : host.shown "thread/read" response =
          { host with atRest := threadAtRest record.turnId response } := by
        simp [PollHost.shown, hrecord]
      rw [hshown]
      have hkept : Stored { host with
          atRest := threadAtRest record.turnId response } record := hrecord
      refine observeResult_polls hkept _ _ _ rfl ?_
      intro hcapture operation hoperation hintent
      simpa [retriesAtRest, hcapture, hrecord, hoperation, hintent] using hmeets

theorem resultWith_polls (crates : HandoffCrates) (pathsRoot : String) :
    Polls request (resultWith crates pathsRoot request) (fun _ _ => True)
      host := by
  rw [resultWith]
  split
  · exact Polls.throw
  · split
    · exact Polls.throw
    · apply Polls.bind
      apply (load_polls _).mono
      intro after initial _
      split
      · apply Polls.bind
        apply acquireLock_polls.mono
        rintro after _ rfl
        apply Program.Always.bind
        apply Program.Always.mono (resultLoaded_polls crates pathsRoot)
        intro last result _
        exact ⟨trivial, fun _ _ _ _ _ => trivial⟩
      · exact resultLoaded_polls crates pathsRoot

end Walk

theorem writes_served {host after : PollHost} {op : HandoffOp}
    {outcome : Outcome} {answer : HandoffAnswer op}
    (hserve : host.serve op outcome = some (answer, after))
    (hgood : host.Good op)
    (hhost : ∀ written ∈ host.writes, written.Justified) :
    ∀ written ∈ after.writes, written.Justified := by
  have hput (record : Record) (hgood : host.Good (.writeRecord record)) :
      ∀ written ∈ (host.put record).writes, written.Justified := by
    intro written hmem
    rcases List.mem_cons.mp hmem with rfl | hearlier
    · exact hgood
    · exact hhost written hearlier
  have hrest (hwrites : after.writes = host.writes) :
      ∀ written ∈ after.writes, written.Justified := by
    rw [hwrites]
    exact hhost
  cases op with
  | writeRecord record =>
    cases outcome with
    | done =>
      cases hserve
      exact hput record hgood
    | error message applied =>
      cases hserve
      split
      · exact hput record hgood
      · exact hhost
    | _ => cases hserve
  | readRecord id =>
    cases outcome with
    | done =>
      obtain ⟨record, _, hanswer⟩ := map_eq_some_iff.mp hserve
      cases hanswer
      exact hhost
    | error message applied =>
      cases hserve
      exact hhost
    | _ => cases hserve
  | rpc method params =>
    cases outcome with
    | json response =>
      cases hserve
      apply hrest
      rw [PollHost.shown]
      split
      · rfl
      · rfl
    | error message applied =>
      cases hserve
      exact hhost
    | _ => cases hserve
  | _ =>
    cases outcome
    all_goals first
      | (cases hserve; exact hhost)
      | cases hserve

theorem serves_justified
    {meets : PollHost → (op : HandoffOp) → HandoffAnswer op → Bool}
    {world view after : PollHost} {op : HandoffOp} {answer : HandoffAnswer op}
    (hsim : world = view ∧ ∀ written ∈ world.writes, written.Justified)
    (hgood : view.Good op) (hserves : PollServes meets world op answer after) :
    ∃ next, PollServes meets view op answer next ∧ after = next ∧
      ∀ written ∈ after.writes, written.Justified := by
  obtain ⟨rfl, hwrites⟩ := hsim
  have hserved := hserves.1
  obtain ⟨outcome, hserve⟩ := hserved
  exact ⟨after, hserves, rfl, writes_served hserve hgood hwrites⟩

/-- As long as no attempt at a capture that was labelled final before finds
the thread at work, every capture that is recorded as final was taken at
rest. -/
theorem final_captures_at_rest (crates : HandoffCrates) (pathsRoot : String)
    (start : Option Record) (host : PollHost)
    (hpolled : Polled crates pathsRoot retriesAtRest start host) :
    ∀ written ∈ host.writes, written.Justified := by
  induction hpolled with
  | new => simp
  | @poll host after request hhost hcut ih =>
    have hpolls : Polls request (resultWith crates pathsRoot request)
        (fun _ _ => True) { host with atRest := false } :=
      resultWith_polls crates pathsRoot
    obtain ⟨_, rfl, hwrites⟩ := hpolls.simulated
      (fun _ _ _ _ _ => serves_justified) ⟨rfl, ih⟩ hcut
    exact hwrites

namespace RetriedCapture

def record : Record where
  request := sampleStart
  fingerprint := sampleHandoffCrates.requestFingerprint .null
  phase := .running
  threadId := some "thread-1"
  turnId := some "turn-1"
  captures := .empty
  captureIntents := .empty

def request : ResultRequest where
  handoffId := "handoff-1"
  capture := true
  operationId := some "capture-1"

def threadRead (status : String) (later : List Json) : Json :=
  .obj [("thread", .obj [("id", .str "thread-1"),
    ("cwd", .str sampleWorktree),
    ("status", .obj [("type", .str status)]),
    ("turns", .arr (.obj [("id", .str "turn-1"),
      ("status", .str "completed")] :: later))])]

def taken : Capture where
  resultRef := "refs/vellum-handoff-results/handoff-1/capture-1"
  commit := "89abcdef0123456789abcdef0123456789abcdef"
  snapshotCommit := sampleStart.snapshotCommit
  isPartial := false
  diffstat := []

/-- The thread is at rest, and the capture fails. -/
def failed : List Outcome :=
  [.done, .done, .done, .json (threadRead "idle" []), .done,
    .error "HandoffGitFailed" false, .done]

/-- A later turn is running, and the capture succeeds. -/
def retried : List Outcome :=
  [.done, .done, .done,
    .json (threadRead "active" [.obj [("id", .str "turn-2"),
      ("status", .str "inProgress")]]),
    .done, .capture taken, .done, .done]

/-- The thread is at rest, and the capture succeeds. -/
def succeeded : List Outcome :=
  [.done, .done, .done, .json (threadRead "idle" []), .done, .capture taken,
    .done, .done]

/-- The poll that fails, and another one behind it. -/
def polledTwice (meets : ResultRequest → PollHost → (op : HandoffOp) →
    HandoffAnswer op → Bool) (second : List Outcome) : Option PollHost :=
  let poll := (resultWith sampleHandoffCrates "/state" request).run
  (Program.feed PollHost.serve (meets request) poll { record := some record }
    failed).bind fun first =>
      (Program.feed PollHost.serve (meets request) poll
        { first.2 with atRest := false } second).map Prod.snd

theorem polled_of_polledTwice {meets : ResultRequest → PollHost →
    (op : HandoffOp) → HandoffAnswer op → Bool} {second : List Outcome}
    {host : PollHost} (hpolls : polledTwice meets second = some host) :
    Polled sampleHandoffCrates "/state" meets (some record) host := by
  obtain ⟨first, hfirst, hrest⟩ := bind_eq_some_iff.mp hpolls
  obtain ⟨last, hlast, rfl⟩ := map_eq_some_iff.mp hrest
  exact .poll request (.poll request .new (Program.reaches_of_feed hfirst))
    (Program.reaches_of_feed hlast)

theorem retry_is_recorded_as_final : ∃ host,
    Polled sampleHandoffCrates "/state" (fun _ _ _ _ => true) (some record)
        host ∧
      ∃ written ∈ host.writes, ¬ written.Justified := by
  have hruns : (polledTwice (fun _ _ _ _ => true) retried).map (fun host =>
      host.writes.head?.map fun written =>
        (written.atRest, written.record.captures.get "capture-1",
          written.before.bind fun before =>
            before.captures.get "capture-1")) =
      some (some (false, some taken, none)) := by
    rfl
  obtain ⟨host, hpolls, hends⟩ := map_eq_some_iff.mp hruns
  obtain ⟨written, hhead, hwritten⟩ := map_eq_some_iff.mp hends
  obtain ⟨hactive, hcapture⟩ := Prod.mk.inj hwritten
  obtain ⟨htaken, hfresh⟩ := Prod.mk.inj hcapture
  refine ⟨host, polled_of_polledTwice hpolls, written,
    List.mem_of_mem_head? hhead, ?_⟩
  intro hjustified
  rcases hjustified "capture-1" taken htaken rfl with hrest | hbefore
  · rw [hactive] at hrest
    cases hrest
  · obtain ⟨before, hwas, hget⟩ := hbefore
    rw [hwas, bind_some, hget] at hfresh
    cases hfresh

/-- The retry finds the thread at rest again. -/
theorem capture_at_rest_is_final : ∃ host,
    Polled sampleHandoffCrates "/state" retriesAtRest (some record) host ∧
      (∃ written ∈ host.writes,
        written.record.captures.get "capture-1" = some taken) ∧
      ∀ written ∈ host.writes, written.Justified := by
  have hruns : (polledTwice retriesAtRest succeeded).map (fun host =>
      host.writes.head?.map fun written =>
        written.record.captures.get "capture-1") =
      some (some (some taken)) := by
    rfl
  obtain ⟨host, hpolls, hends⟩ := map_eq_some_iff.mp hruns
  obtain ⟨written, hhead, hcapture⟩ := map_eq_some_iff.mp hends
  have hpolled := polled_of_polledTwice hpolls
  exact ⟨host, hpolled, ⟨written, List.mem_of_mem_head? hhead, hcapture⟩,
    final_captures_at_rest sampleHandoffCrates "/state" (some record) host
      hpolled⟩

end RetriedCapture

end Vellum.Agent

/-
Runs of handoffs (`vellum-remote-agent/src/handoff.rs`), one call after the
other.  A call may fail anywhere, the daemon may have done what a failed call
asked for, and the agent may crash between any two steps; still the daemon
accepts one turn of a handoff, on the recorded thread.
-/
import Vellum.Agent.HandoffWrites

namespace Vellum.Agent

open List Option

structure Save where
  /-- A start wrote the record, not a poll. -/
  explicit : Bool
  record : Record

/-- The host of a handoff: the records that were written, the last one first,
and the threads of the turns that the daemon has accepted. -/
structure Host where
  saves : List Save := []
  accepted : List Json := []

def Host.record (host : Host) : Option Record :=
  host.saves.head?.map Save.record

/-- How a call ends; one that fails may have taken effect. -/
inductive Outcome where
  | done
  | json (value : Json)
  | capture (value : Capture)
  | error (message : String) (applied : Bool)

def Host.put (host : Host) (explicit : Bool) (record : Record) : Host :=
  { host with saves := ⟨explicit, record⟩ :: host.saves }

/-- The daemon has processed a call. -/
def Host.processed (host : Host) (method : String) (params : Json) : Host :=
  if method = "turn/start" then
    { host with
      accepted := host.accepted ++ [(params.get "threadId").getD .null] }
  else host

def Host.serve (host : Host) (explicit : Bool) :
    (op : HandoffOp) → Outcome → Option (HandoffAnswer op × Host)
  | .preflight, .done => some (.ok (), host)
  | .preflight, .error message _ => some (.error message, host)
  | .acquireLock, .done => some (.ok (), host)
  | .acquireLock, .error message _ => some (.error message, host)
  | .releaseLock, _ => some ((), host)
  | .recordExists _, .done => some (.ok host.record.isSome, host)
  | .recordExists _, .error message _ => some (.error message, host)
  | .readRecord _, .done => host.record.map fun record => (.ok record, host)
  | .readRecord _, .error message _ => some (.error message, host)
  | .writeRecord record, .done => some (.ok (), host.put explicit record)
  | .writeRecord record, .error message applied =>
    some (.error message,
      if applied then host.put explicit record else host)
  | .prepareRepo _, .done => some (.ok (), host)
  | .prepareRepo _, .error message _ => some (.error message, host)
  | .prepareWorktree _ _, .done => some (.ok (), host)
  | .prepareWorktree _ _, .error message _ => some (.error message, host)
  | .rpc method params, .json value =>
    some (.ok value, host.processed method params)
  | .rpc method params, .error message applied =>
    some (.error message,
      if applied then host.processed method params else host)
  | .capture _ _ _ _, .capture value => some (.ok value, host)
  | .capture _ _ _ _, .error message _ => some (.error message, host)
  | _, _ => none

/-- The daemon says that a thread is not materialized only while it has
accepted no turn on it. -/
def Host.honest (crates : HandoffCrates) (host : Host) :
    (op : HandoffOp) → HandoffAnswer op → Bool
  | .rpc method params, .error message =>
    !(method = "thread/read" && notMaterialized crates message &&
      host.accepted.any fun thread => params.get "threadId" = some thread)
  | _, _ => true

def Serves (crates : HandoffCrates) (explicit : Bool) (host : Host)
    (op : HandoffOp) (answer : HandoffAnswer op) (after : Host) : Prop :=
  (∃ outcome, host.serve explicit op outcome = some (answer, after)) ∧
    host.honest crates op answer = true

/-- The states a host gets into by starts and polls of one handoff, each of
them cut off anywhere or run to its end. -/
inductive Reached (crates : HandoffCrates) (pathsRoot id : String) :
    Host → Prop
  | new : Reached crates pathsRoot id {}
  | start {host after : Host} (request : StartRequest)
      (hid : request.operationId = id)
      (hhost : Reached crates pathsRoot id host)
      (hcut : Program.Reaches (Serves crates true)
        (startWith crates pathsRoot request).run host after) :
      Reached crates pathsRoot id after
  | poll {host after : Host} (request : ResultRequest)
      (hid : request.handoffId = id)
      (hhost : Reached crates pathsRoot id host)
      (hcut : Program.Reaches (Serves crates false)
        (resultWith crates pathsRoot request).run host after) :
      Reached crates pathsRoot id after

/-- The record is as a call knows it. -/
def Knows (host : Host) (view : View) : Prop :=
  match view.knowledge with
  | .unknown => True
  | .absent => host.record = none
  | .stored record => host.record = some record

section Served

variable {crates : HandoffCrates} {explicit : Bool} {host after : Host}
  {view : View} {op : HandoffOp} {outcome : Outcome} {answer : HandoffAnswer op}

theorem record_put (host : Host) (explicit : Bool) (record : Record) :
    (host.put explicit record).record = some record := rfl

theorem saves_processed (host : Host) (method : String) (params : Json) :
    (host.processed method params).saves = host.saves := by
  rw [Host.processed]
  split <;> rfl

/-- A call leaves the host as it is, writes the record, or is processed by the
daemon. -/
theorem Host.serve_cases
    (hserve : host.serve explicit op outcome = some (answer, after)) :
    after = host ∨
      (∃ record, op = .writeRecord record ∧ after = host.put explicit record) ∨
      ∃ method params, op = .rpc method params ∧
        after = host.processed method params := by
  cases op with
  | readRecord id =>
    cases outcome with
    | done =>
      obtain ⟨record, _, hanswer⟩ := map_eq_some_iff.mp hserve
      cases hanswer
      exact Or.inl rfl
    | _ => cases hserve <;> exact Or.inl rfl
  | writeRecord record =>
    cases outcome with
    | done =>
      cases hserve
      exact Or.inr (Or.inl ⟨record, rfl, rfl⟩)
    | error message applied =>
      cases hserve
      cases applied with
      | true => exact Or.inr (Or.inl ⟨record, rfl, rfl⟩)
      | false => exact Or.inl rfl
    | _ => cases hserve
  | rpc method params =>
    cases outcome with
    | json value =>
      cases hserve
      exact Or.inr (Or.inr ⟨method, params, rfl, rfl⟩)
    | error message applied =>
      cases hserve
      cases applied with
      | true => exact Or.inr (Or.inr ⟨method, params, rfl, rfl⟩)
      | false => exact Or.inl rfl
    | _ => cases hserve
  | _ => cases outcome <;> cases hserve <;> exact Or.inl rfl

theorem saves_after
    (hserve : host.serve explicit op outcome = some (answer, after)) :
    after.saves = host.saves ∨ ∃ record, op = .writeRecord record ∧
      after.saves = ⟨explicit, record⟩ :: host.saves := by
  rcases Host.serve_cases hserve with
    rfl | ⟨record, rfl, rfl⟩ | ⟨method, params, rfl, rfl⟩
  · exact Or.inl rfl
  · exact Or.inr ⟨record, rfl, rfl⟩
  · exact Or.inl (saves_processed host method params)

/-- Only `turn/start` changes what the daemon has accepted. -/
theorem accepted_after
    (hserve : host.serve explicit op outcome = some (answer, after)) :
    after.accepted = host.accepted ∨ ∃ params,
      op = .rpc "turn/start" params ∧ after.accepted =
        host.accepted ++ [(params.get "threadId").getD .null] := by
  rcases Host.serve_cases hserve with
    rfl | ⟨record, rfl, rfl⟩ | ⟨method, params, rfl, rfl⟩
  · exact Or.inl rfl
  · exact Or.inl rfl
  · rw [Host.processed]
    split
    · rename_i hmethod
      exact Or.inr ⟨params, by rw [hmethod], rfl⟩
    · exact Or.inl rfl

theorem record_of_saves (hsaves : after.saves = host.saves) :
    after.record = host.record := by
  rw [Host.record, hsaves, ← Host.record]

section

variable (hserve : host.serve explicit op outcome = some (answer, after))
include hserve

/-- What a call knows of the record stays true over its own steps. -/
theorem knows_after (hknows : Knows host view) :
    Knows after (view.after crates op answer) := by
  cases op with
  | recordExists id =>
    cases outcome with
    | done =>
      cases hserve
      cases hrecord : host.record with
      | none => exact hrecord
      | some record => exact hknows
    | _ => cases hserve <;> exact hknows
  | readRecord id =>
    cases outcome with
    | done =>
      obtain ⟨record, hrecord, hanswer⟩ := map_eq_some_iff.mp hserve
      cases hanswer
      exact hrecord
    | _ => cases hserve <;> exact hknows
  | writeRecord record =>
    cases outcome with
    | done =>
      cases hserve
      exact record_put host explicit record
    | _ => cases hserve <;> exact trivial
  | rpc method params =>
    have hsaves := (saves_after hserve).resolve_right
      (by rintro ⟨record, hop, _⟩; cases hop)
    rw [Knows, View.after, (knowledge_afterRpc view method params answer).1,
      record_of_saves hsaves]
    exact hknows
  | acquireLock =>
    cases outcome with
    | done =>
      cases hserve
      exact trivial
    | _ => cases hserve <;> exact hknows
  | releaseLock => exact trivial
  | _ => cases outcome <;> cases hserve <;> exact hknows

/-- A record that is read is one that was saved. -/
theorem trusted_after (hsaved : ∀ save ∈ host.saves, save.record.WellFormed) :
    Trusted op answer := by
  cases op with
  | readRecord id =>
    cases outcome with
    | done =>
      obtain ⟨record, hrecord, hanswer⟩ := map_eq_some_iff.mp hserve
      cases hanswer
      obtain ⟨save, hsave, rfl⟩ := map_eq_some_iff.mp hrecord
      exact hsaved save (mem_of_head? hsave)
    | _ => cases hserve <;> exact trivial
  | _ => exact trivial

theorem wellFormed_after (hallows : view.Allows explicit op)
    (hsaved : ∀ save ∈ host.saves, save.record.WellFormed) :
    ∀ save ∈ after.saves, save.record.WellFormed := by
  rcases saves_after hserve with hsaves | ⟨record, rfl, hsaves⟩
  · rw [hsaves]
    exact hsaved
  · rw [hsaves]
    exact forall_mem_cons.mpr ⟨hallows.2.1, hsaved⟩

end

end Served

/-- No turn was accepted, or one on the thread of the record, which says so. -/
def Host.OneTurn (host : Host) : Prop :=
  host.accepted = [] ∨ ∃ record id, host.record = some record ∧
    record.phase.started = true ∧ record.threadId = some id ∧
    host.accepted = [.str id]

/-- The host is as a call has it, between two of its steps. -/
structure Agrees (host : Host) (view : View) : Prop where
  saved : ∀ save ∈ host.saves, save.record.WellFormed
  oneTurn : host.OneTurn
  knows : Knows host view
  ready : view.ready = true → host.accepted = []
  unstarted : ∀ thread, view.unstarted = some thread →
    thread ∉ host.accepted

section Sequential

variable {crates : HandoffCrates} {explicit : Bool} {host after : Host}
  {view : View} {op : HandoffOp} {answer : HandoffAnswer op}

/-- No turn was accepted while the record was seen in an earlier phase. -/
theorem Agrees.not_accepted (hagrees : Agrees host view)
    (hunstarted : view.knowledge.unstarted = true) : host.accepted = [] := by
  rcases hagrees.oneTurn with hnone | ⟨record, id, hrecord, hstarted, _⟩
  · exact hnone
  · have hknows := hagrees.knows
    rw [Knows] at hknows
    cases hknowledge : view.knowledge with
    | unknown =>
      rw [hknowledge] at hunstarted
      cases hunstarted
    | absent =>
      rw [hknowledge] at hknows
      rw [show host.record = none from hknows] at hrecord
      cases hrecord
    | stored base =>
      rw [hknowledge] at hknows hunstarted
      rw [show host.record = some base from hknows] at hrecord
      cases hrecord
      rw [Knowledge.unstarted, Phase.mayHaveTurn, hstarted] at hunstarted
      cases hunstarted

theorem Agrees.write {record : Record} (hagrees : Agrees host view)
    (hallows : view.Allows explicit (.writeRecord record)) :
    (host.put explicit record).OneTurn := by
  rcases hagrees.oneTurn with hnone | ⟨base, id, hbase, hstarted, hthread, hone⟩
  · exact Or.inl hnone
  · have hknows := hagrees.knows
    rw [Knows] at hknows
    rcases hallows.write_cases with ⟨habsent, -⟩ | ⟨known, hstored, hrecord⟩
    · rw [habsent] at hknows
      rw [show host.record = none from hknows] at hbase
      cases hbase
    · rw [hstored] at hknows
      rw [show host.record = some known from hknows] at hbase
      cases hbase
      rcases hrecord.started hstarted with hstays | hunstarted
      · exact Or.inr
          ⟨record, id, rfl, hstays, hrecord.kept.threadId id hthread, hone⟩
      · -- the daemon has said that this thread has no turn
        rw [hthread] at hunstarted
        have habsent := hagrees.unstarted _ hunstarted
        rw [hone] at habsent
        exact absurd mem_cons_self habsent

variable {params : Json}

/-- A turn is started on the recorded thread, as the first one. -/
theorem Agrees.start (hagrees : Agrees host view)
    (hallows : view.Allows explicit (.rpc "turn/start" params)) :
    ∃ record id, host.record = some record ∧ record.phase.started = true ∧
      record.threadId = some id ∧
      host.accepted ++ [(params.get "threadId").getD .null] = [.str id] := by
  obtain ⟨-, hready, record, id, hknowledge, hphase, hthread, hparams⟩ :=
    hallows rfl
  have hknows := hagrees.knows
  rw [Knows, hknowledge] at hknows
  refine ⟨record, id, hknows, ?_, hthread, ?_⟩
  · rw [hphase]
    rfl
  · rw [hagrees.ready hready, hparams]
    rfl

theorem unstarted_afterRpc {method : String} {answer : Except String Json}
    {thread : Json}
    (hthread : (view.afterRpc crates method params answer).unstarted =
      some thread) :
    method ≠ "turn/start" ∧ (view.unstarted = some thread ∨
      ∃ message, answer = .error message ∧ method = "thread/read" ∧
        notMaterialized crates message = true ∧
        params.get "threadId" = some thread) := by
  cases answer with
  | ok response =>
    rw [View.afterRpc] at hthread
    split at hthread
    · cases hthread
    · exact ⟨‹_›, Or.inl hthread⟩
  | error message =>
    rw [View.afterRpc] at hthread
    split at hthread
    · cases hthread
    · refine ⟨‹_›, ?_⟩
      split at hthread
      · rename_i hread
        rw [Bool.and_eq_true, decide_eq_true_eq] at hread
        exact Or.inr ⟨message, rfl, hread.1, hread.2, hthread⟩
      · exact Or.inl hthread

theorem ready_afterRpc {method : String} {answer : Except String Json}
    (hready : (view.afterRpc crates method params answer).ready = true) :
    method ≠ "turn/start" ∧ view.ready = true := by
  cases answer with
  | ok response =>
    rw [View.afterRpc] at hready
    split at hready
    · cases hready
    · exact ⟨‹_›, hready⟩
  | error message =>
    rw [View.afterRpc] at hready
    split at hready
    · cases hready
    · refine ⟨‹_›, ?_⟩
      split at hready <;> exact hready

/-- Other calls tell nothing about turns. -/
theorem after_quiet (hrpc : ∀ method params, op ≠ .rpc method params)
    (hwrite : ∀ record, op ≠ .writeRecord record) :
    ((view.after crates op answer).ready = true → view.ready = true) ∧
      ∀ thread, (view.after crates op answer).unstarted = some thread →
        view.unstarted = some thread := by
  cases op with
  | rpc method params => exact absurd rfl (hrpc method params)
  | writeRecord record => exact absurd rfl (hwrite record)
  | releaseLock => exact ⟨by rintro ⟨⟩, by rintro _ ⟨⟩⟩
  | acquireLock =>
    cases answer with
    | ok value => exact ⟨by rintro ⟨⟩, by rintro _ ⟨⟩⟩
    | error message => exact ⟨fun hready => hready, fun _ hthread => hthread⟩
  | readRecord id =>
    cases answer with
    | ok record => exact ⟨by rintro ⟨⟩, fun _ hthread => hthread⟩
    | error message => exact ⟨fun hready => hready, fun _ hthread => hthread⟩
  | recordExists id =>
    cases answer with
    | ok found =>
      cases found with
      | true => exact ⟨fun hready => hready, fun _ hthread => hthread⟩
      | false => exact ⟨by rintro ⟨⟩, fun _ hthread => hthread⟩
    | error message => exact ⟨fun hready => hready, fun _ hthread => hthread⟩
  | _ =>
    cases answer <;>
      exact ⟨fun hready => hready, fun _ hthread => hthread⟩

/-- The step lemma: what a call is allowed to do keeps the host as it has
it. -/
theorem Agrees.step (hagrees : Agrees host view)
    (hallows : view.Allows explicit op)
    (hserves : Serves crates explicit host op answer after) :
    ∃ next, Sees crates view op answer next ∧ Agrees after next := by
  obtain ⟨⟨outcome, hserve⟩, hhonest⟩ := hserves
  refine ⟨view.after crates op answer,
    ⟨rfl, trusted_after hserve hagrees.saved⟩, ?_⟩
  have hsaved := wellFormed_after hserve hallows hagrees.saved
  have hknows : Knows after (view.after crates op answer) :=
    knows_after hserve hagrees.knows
  have haccepted := accepted_after hserve
  cases op with
  | rpc method params =>
    have hsaves := (saves_after hserve).resolve_right
      (by rintro ⟨record, hop, _⟩; cases hop)
    have hrecord := record_of_saves hsaves
    have hsame : method ≠ "turn/start" → after.accepted = host.accepted := by
      intro hmethod
      refine haccepted.resolve_right ?_
      rintro ⟨_, hop, _⟩
      cases hop
      exact hmethod rfl
    refine ⟨hsaved, ?_, hknows, ?_, ?_⟩
    · rcases haccepted with hsame | ⟨_, hop, hone⟩
      · rw [Host.OneTurn, hsame, hrecord]
        exact hagrees.oneTurn
      · cases hop
        obtain ⟨record, id, hrec, hstarted, hthread, hlist⟩ :=
          hagrees.start hallows
        exact Or.inr ⟨record, id, hrecord.trans hrec, hstarted, hthread,
          hone.trans hlist⟩
    · intro hready
      obtain ⟨hmethod, hready⟩ := ready_afterRpc hready
      rw [hsame hmethod]
      exact hagrees.ready hready
    · intro thread hthread
      obtain ⟨hmethod, hcases⟩ := unstarted_afterRpc hthread
      rw [hsame hmethod]
      rcases hcases with hold | ⟨message, rfl, rfl, hmarker, hparams⟩
      · exact hagrees.unstarted thread hold
      · intro hmem
        have hknown : (host.accepted.any fun accepted =>
            decide (some thread = some accepted)) = true :=
          List.any_eq_true.mpr ⟨thread, hmem, decide_eq_true rfl⟩
        rw [Host.honest, hmarker, hparams, hknown] at hhonest
        cases hhonest
  | writeRecord record =>
    have hsame : after.accepted = host.accepted :=
      haccepted.resolve_right (by rintro ⟨params, hop, _⟩; cases hop)
    refine ⟨hsaved, ?_, hknows, ?_, ?_⟩
    · rcases saves_after hserve with hsaves | ⟨_, hop, hsaves⟩
      · rw [Host.OneTurn, hsame, record_of_saves hsaves]
        exact hagrees.oneTurn
      · cases hop
        have hwrite := hagrees.write hallows
        rw [Host.OneTurn, hsame, Host.record, hsaves]
        exact hwrite
    · intro hready
      rw [hsame]
      cases answer with
      | ok value =>
        exact hagrees.not_accepted (Bool.and_eq_true_iff.mp hready).1
      | error message => cases hready
    · intro thread hthread
      rw [hsame]
      cases answer with
      | ok value => exact hagrees.unstarted thread hthread
      | error message => exact hagrees.unstarted thread hthread
  | _ =>
    have hsaves := (saves_after hserve).resolve_right
      (by rintro ⟨record, hop, _⟩; cases hop)
    have hsame : after.accepted = host.accepted :=
      haccepted.resolve_right (by rintro ⟨params, hop, _⟩; cases hop)
    have hquiet : ((view.after crates _ answer).ready = true →
          view.ready = true) ∧
        ∀ thread, (view.after crates _ answer).unstarted = some thread →
          view.unstarted = some thread :=
      after_quiet (by rintro _ _ ⟨⟩) (by rintro _ ⟨⟩)
    refine ⟨hsaved, ?_, hknows, ?_, ?_⟩
    · rw [Host.OneTurn, hsame, record_of_saves hsaves]
      exact hagrees.oneTurn
    · intro hready
      rw [hsame]
      exact hagrees.ready (hquiet.1 hready)
    · intro thread hthread
      rw [hsame]
      exact hagrees.unstarted thread (hquiet.2 thread hthread)

end Sequential

/-- What holds of a host between calls. -/
structure Host.Settled (host : Host) : Prop where
  saved : ∀ save ∈ host.saves, save.record.WellFormed
  oneTurn : host.OneTurn

variable {crates : HandoffCrates} {host : Host}

theorem Host.Settled.reaches {explicit : Bool} {after : Host}
    {program : Attempt α} {post : View → Except String α → Prop}
    (hsettled : host.Settled) (hwalks : Walks crates explicit program post {})
    (hreaches : Program.Reaches (Serves crates explicit) program.run host
      after) : after.Settled := by
  have hagrees : Agrees host {} :=
    { saved := hsettled.saved
      oneTurn := hsettled.oneTurn
      knows := trivial
      ready := by rintro ⟨⟩
      unstarted := by rintro _ ⟨⟩ }
  obtain ⟨view, hview⟩ := Program.Always.simulated
    (fun _ _ _ _ _ hagrees hallows hserves => hagrees.step hallows hserves)
    hwalks hagrees hreaches
  exact ⟨hview.saved, hview.oneTurn⟩

theorem Reached.settled {pathsRoot id : String}
    (hreached : Reached crates pathsRoot id host) : host.Settled := by
  induction hreached with
  | new => exact ⟨by rintro _ ⟨⟩, Or.inl rfl⟩
  | start request _ _ hcut ih =>
    exact ih.reaches (startWith_walks crates pathsRoot request) hcut
  | poll request _ _ hcut ih =>
    exact ih.reaches (resultWith_walks crates pathsRoot request) hcut

/-- However its starts and polls are cut off, a handoff gets one turn, and it
is on the recorded thread. -/
theorem handoff_runs_one_turn (crates : HandoffCrates) (pathsRoot id : String)
    (host : Host) (hreached : Reached crates pathsRoot id host) :
    host.accepted.length ≤ 1 ∧ ∀ thread ∈ host.accepted,
      ∃ record threadId, host.record = some record ∧
        record.threadId = some threadId ∧ thread = .str threadId := by
  rcases hreached.settled.oneTurn with
    hnone | ⟨record, threadId, hrecord, _, hthread, hone⟩
  · rw [hnone]
    exact ⟨Nat.zero_le 1, by rintro _ ⟨⟩⟩
  · rw [hone]
    refine ⟨Nat.le_of_eq rfl, ?_⟩
    intro thread hmem
    rw [mem_singleton] at hmem
    exact ⟨record, threadId, hrecord, hthread, hmem⟩

/-- The digest of `sampleStart`, and no text to parse. -/
def sampleHandoffCrates : HandoffCrates where
  requestFingerprint _ :=
    "8ae0ef7d57502e827b7b467acbc4fed1d317870122e5dbd3eb291d3fcd2f2398"
  parseJson _ := none

def sampleStart : StartRequest where
  operationId := "handoff-1"
  repoId := "repo-1"
  snapshotCommit := "0123456789012345678901234567890123456789"
  sourceThreadId := "thread-0"
  brief := "Fix the build."
  model := "gpt-5"
  modelProvider := "openai"
  effort := "high"

def sampleWorktree : String := "/state/handoffs/work/handoff-1"

/-- What the daemon answers to `thread/start`. -/
def sampleThread (id : String) : Json :=
  .obj [("thread", .obj [("id", .str id)]), ("model", .str "gpt-5"),
    ("modelProvider", .str "openai"), ("cwd", .str sampleWorktree),
    ("sandbox", .obj [("type", .str "workspaceWrite"),
      ("excludeTmpdirEnvVar", .bool true), ("excludeSlashTmp", .bool true),
      ("networkAccess", .bool false),
      ("writableRoots", .arr [.str sampleWorktree])]),
    ("approvalPolicy", .str "never"), ("reasoningEffort", .str "high")]

/-- The start gets the answers of its host one after the other. -/
def sampleRun (host : Host) (outcomes : List Outcome) :
    Option (Program HandoffOp HandoffAnswer (Except String HandoffStatus) ×
      Host) :=
  Program.feed (Host.serve · true) (Host.honest sampleHandoffCrates)
    (startWith sampleHandoffCrates "/state" sampleStart).run host outcomes

/-- A start whose `turn/start` is accepted, but never answered. -/
def lostTurn : List Outcome :=
  [.done, .done, .done, .done, .done, .done, .done, .done, .done,
    .json (sampleThread "thread-1"), .done, .done, .done,
    .error "connection closed" true]

/-- The next start finds the turn and does not start another. -/
def foundTurn : List Outcome :=
  [.done, .done, .done, .done, .done,
    .json (.obj [("thread", .obj [("id", .str "thread-1"),
      ("cwd", .str sampleWorktree),
      ("turns", .arr [.obj [("id", .str "turn-1")]])])]),
    .done, .done]

/-- A turn whose answer is lost is found by the next start. -/
theorem handoff_runs_one_turn_lost : ∃ host,
    Reached sampleHandoffCrates "/state" "handoff-1" host ∧
      host.accepted = [.str "thread-1"] ∧
      host.record.map Record.phase = some .running ∧
      host.accepted.length ≤ 1 := by
  have hruns : ((sampleRun {} lostTurn).bind fun lost =>
      (sampleRun lost.2 foundTurn).map fun found =>
        (found.2.accepted, found.2.record.map Record.phase)) =
      some ([.str "thread-1"], some .running) := by
    decide +kernel
  obtain ⟨⟨left, lost⟩, hlost, hfound⟩ := bind_eq_some_iff.mp hruns
  obtain ⟨⟨left', found⟩, hfound, hends⟩ := map_eq_some_iff.mp hfound
  have hreached : Reached sampleHandoffCrates "/state" "handoff-1" found :=
    .start sampleStart rfl
      (.start sampleStart rfl .new (Program.reaches_of_feed hlost))
      (Program.reaches_of_feed hfound)
  obtain ⟨haccepted, hphase⟩ := Prod.mk.inj hends
  exact ⟨found, hreached, haccepted, hphase,
    (handoff_runs_one_turn sampleHandoffCrates "/state" "handoff-1" found
      hreached).1⟩

end Vellum.Agent

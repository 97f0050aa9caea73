/-
What a handoff writes, and when it starts a turn
(`vellum-remote-agent/src/handoff.rs`).  A call is looked at through what it
knows: whether it holds the lock, which record it read or wrote last, and what
the daemon told it.  Starts and polls are walked through once here; the
results on runs follow from what is allowed at each call.
-/
import Vellum.Agent.Handoff

namespace Vellum.Agent

open Option

def Phase.rank : Phase → Nat
  | prepared => 0
  | worktreeReady => 1
  | threadStarting => 2
  | threadAdopted => 3
  | threadReady => 4
  | turnStarting => 5
  | running => 6

/-- A turn may have been started in this phase. -/
def Phase.started (phase : Phase) : Bool :=
  phase = .turnStarting || phase = .running

/-- A turn may have been started before a record with this phase was saved: a
late poll saves an adopted thread. -/
def Phase.mayHaveTurn (phase : Phase) : Bool :=
  phase.started || phase = .threadAdopted

/-- Which of the thread and the turn a record holds in its phase. -/
def Record.WellFormed (record : Record) : Prop :=
  match record.phase with
  | .prepared | .worktreeReady => record.threadId = none ∧ record.turnId = none
  | .threadStarting => record.turnId = none
  | .threadAdopted | .threadReady | .turnStarting =>
    record.threadId ≠ none ∧ record.turnId = none
  | .running => record.threadId ≠ none ∧ record.turnId ≠ none

/-- Nothing that was saved is lost. -/
structure Kept (earlier later : Record) : Prop where
  threadId : ∀ id, earlier.threadId = some id → later.threadId = some id
  turnId : ∀ id, earlier.turnId = some id → later.turnId = some id
  intents : ∀ operation isPartial,
    earlier.captureIntents.get operation = some isPartial →
    later.captureIntents.get operation = some isPartial
  captures : ∀ operation capture,
    earlier.captures.get operation = some capture →
    later.captures.get operation = some capture

theorem Kept.refl (record : Record) : Kept record record :=
  ⟨fun _ => id, fun _ => id, fun _ _ => id, fun _ _ => id⟩

theorem Kept.trans {first second third : Record} (hfirst : Kept first second)
    (hsecond : Kept second third) : Kept first third where
  threadId id hid := hsecond.threadId id (hfirst.threadId id hid)
  turnId id hid := hsecond.turnId id (hfirst.turnId id hid)
  intents operation isPartial hget :=
    hsecond.intents operation isPartial (hfirst.intents operation isPartial hget)
  captures operation capture hget :=
    hsecond.captures operation capture (hfirst.captures operation capture hget)

/-- The record as a call has seen it last. -/
inductive Knowledge where
  | unknown
  | absent
  | stored (record : Record)

/-- No turn can have been started when the record was seen. -/
def Knowledge.unstarted : Knowledge → Bool
  | unknown => false
  | absent => true
  | stored record => !record.phase.mayHaveTurn

structure View where
  locked : Bool := false
  knowledge : Knowledge := .unknown
  /-- The call itself has just recorded that it starts the turn. -/
  ready : Bool := false
  /-- The thread the daemon says it has no turn of. -/
  unstarted : Option Json := none
  /-- The daemon has resumed a thread without a turn. -/
  resumed : Bool := false

def View.denied (view : View) : Bool := view.unstarted.isSome || view.resumed

def showsNoTurns (method : String) (response : Json) : Bool :=
  method = "thread/resume" &&
    (response.pointer ["thread", "turns"]).bind Json.asArr = some []

def View.afterWrite (view : View) (record : Record) : View :=
  { view with
    knowledge := .stored record
    ready := view.knowledge.unstarted && decide (record.phase = .turnStarting) }

def View.afterRpc (crates : HandoffCrates) (view : View) (method : String)
    (params : Json) : Except String Json → View
  | .ok response =>
    if method = "turn/start" then
      { view with ready := false, unstarted := none, resumed := false }
    else { view with resumed := view.resumed || showsNoTurns method response }
  | .error error =>
    if method = "turn/start" then
      { view with ready := false, unstarted := none, resumed := false }
    else if method = "thread/read" && notMaterialized crates error then
      { view with unstarted := params.get "threadId" }
    else view

/-- What a call knows after an answer. -/
def View.after (crates : HandoffCrates) (view : View) :
    (op : HandoffOp) → HandoffAnswer op → View
  | .acquireLock, .ok _ => { locked := true }
  | .releaseLock, _ => {}
  | .recordExists _, .ok false =>
    { view with knowledge := .absent, ready := false }
  | .readRecord _, .ok record =>
    { view with knowledge := .stored record, ready := false }
  | .writeRecord record, .ok _ => view.afterWrite record
  | .writeRecord _, .error _ =>
    { view with knowledge := .unknown, ready := false }
  | .rpc method params, answer => view.afterRpc crates method params answer
  | _, _ => view

/-- How a start, or a poll, goes on from the record it has seen last. -/
structure View.Continues (explicit : Bool) (view : View) (base record : Record) :
    Prop where
  kept : Kept base record
  forward : explicit = true ∨ base.phase.rank ≤ record.phase.rank
  started : base.phase.started = true → record.phase.started = true ∨
    view.unstarted = some (Json.ofOption base.threadId)
  mayHaveTurn : record.phase.mayHaveTurn = true ∨ explicit = true ∧
    (base.phase.mayHaveTurn = true → view.denied = true)

/-- What a call that is a start, or a poll, may do next. -/
def View.Allows (explicit : Bool) (view : View) : HandoffOp → Prop
  | .writeRecord record =>
    (explicit = true → view.locked = true) ∧ record.WellFormed ∧
      match view.knowledge with
      | .unknown => False
      | .absent => explicit = true ∧ record.phase = .prepared
      | .stored base => view.Continues explicit base record
  | .rpc method params => method = "turn/start" →
      view.locked = true ∧ view.ready = true ∧ ∃ record id,
        view.knowledge = .stored record ∧ record.phase = .turnStarting ∧
          record.threadId = some id ∧ params.get "threadId" = some (.str id)
  | .releaseLock => view.locked = true
  | _ => True

/-- A record is written as the first one, or goes on from the one before. -/
theorem View.Allows.write_cases {explicit : Bool} {view : View}
    {record : Record} (hallows : view.Allows explicit (.writeRecord record)) :
    (view.knowledge = .absent ∧ explicit = true) ∨
      ∃ base, view.knowledge = .stored base ∧
        view.Continues explicit base record := by
  obtain ⟨-, -, hrecord⟩ := hallows
  split at hrecord
  · exact hrecord.elim
  · exact Or.inl ⟨‹_›, hrecord.1⟩
  · exact Or.inr ⟨_, ‹_›, hrecord⟩

/-- The records that are read are well formed. -/
def Trusted : (op : HandoffOp) → HandoffAnswer op → Prop
  | .readRecord _, .ok record => record.WellFormed
  | _, _ => True

def Sees (crates : HandoffCrates) (view : View) (op : HandoffOp)
    (answer : HandoffAnswer op) (after : View) : Prop :=
  after = view.after crates op answer ∧ Trusted op answer

/-- A program does what is allowed all along. -/
def Walks (crates : HandoffCrates) (explicit : Bool)
    (program : Attempt α) (post : View → Except String α → Prop)
    (view : View) : Prop :=
  program.run.Always (Sees crates) (View.Allows explicit) post view

/-- The record in the hands of a call is the one it saw last. -/
structure Holding (locked : Bool) (record : Record) (view : View) : Prop where
  locked : view.locked = locked
  knowledge : view.knowledge = .stored record
  wellFormed : record.WellFormed

/-- A part of a call hands the record on, or gives up. -/
def HandsOn (locked : Bool) : View → Except String Record → Prop
  | view, .ok record => Holding locked record view
  | view, .error _ => view.locked = locked

/-- A part of a call leaves the lock as it was. -/
def LeavesLock (locked : Bool) (view : View) (_ : Except String α) : Prop :=
  view.locked = locked

section Rules

variable {crates : HandoffCrates} {explicit locked : Bool} {view : View}
  {post : View → Except String α → Prop}

theorem pure_walks {value : α} (hpost : post view (.ok value)) :
    Walks crates explicit (pure value) post view := hpost

theorem throw_walks {message : String} (hpost : post view (.error message)) :
    Walks crates explicit (throw message) post view := hpost

theorem Walks.mono {program : Attempt α} {weaker : View → Except String α → Prop}
    (hwalks : Walks crates explicit program post view)
    (hweaker : ∀ view result, post view result → weaker view result) :
    Walks crates explicit program weaker view :=
  Program.Always.mono hwalks hweaker

variable {f : β → Attempt α}

theorem Walks.bind {program : Attempt β}
    (hwalks : Walks crates explicit program
      (fun view result => match result with
        | .ok value => Walks crates explicit (f value) post view
        | .error message => post view (.error message)) view) :
    Walks crates explicit (program >>= f) post view :=
  Program.Always.attempt hwalks

theorem Walks.handsOn {program : Attempt Record} {f : Record → Attempt α}
    (hwalks : Walks crates explicit program (HandsOn locked) view)
    (hok : ∀ record after, Holding locked record after →
      Walks crates explicit (f record) post after)
    (herror : ∀ message after, after.locked = locked →
      post after (.error message)) :
    Walks crates explicit (program >>= f) post view := by
  apply Walks.bind
  apply hwalks.mono
  rintro after (message | record) hresult
  · exact herror message after hresult
  · exact hok record after hresult

theorem ofExcept_walks {result : Except String β}
    (hok : ∀ value, result = .ok value →
      Walks crates explicit (f value) post view)
    (herror : ∀ message, result = .error message →
      post view (.error message)) :
    Walks crates explicit (ofExcept result >>= f) post view := by
  apply Walks.bind
  cases result with
  | ok value => exact hok value rfl
  | error message => exact herror message rfl

/-- Calls that tell nothing about the record. -/
theorem Walks.quiet {op : HandoffOp}
    {ask : Program HandoffOp HandoffAnswer (Except String β)}
    {next : HandoffAnswer op → Program HandoffOp HandoffAnswer (Except String β)}
    (hask : ask = .call op next)
    (hnext : ∀ answer, ∃ result, next answer = .done result)
    (hallows : view.Allows explicit op)
    (hquiet : ∀ answer, view.after crates op answer = view)
    (hok : ∀ value, Walks crates explicit (f value) post view)
    (herror : ∀ message, post view (.error message)) :
    Walks crates explicit (ExceptT.mk ask >>= f) post view := by
  apply Walks.bind
  rw [hask]
  refine ⟨hallows, ?_⟩
  rintro answer after ⟨rfl, _⟩
  obtain ⟨result, hresult⟩ := hnext answer
  rw [hresult, hquiet]
  cases result with
  | ok value => exact hok value
  | error message => exact herror message

theorem save_walks {record : Record} {f : Unit → Attempt α}
    (hallows : view.Allows explicit (.writeRecord record))
    (hok : Walks crates explicit (f ()) post (view.afterWrite record))
    (herror : ∀ message after, after.locked = view.locked →
      post after (.error message)) :
    Walks crates explicit (save record >>= f) post view := by
  apply Walks.bind
  refine ⟨hallows, ?_⟩
  rintro answer after ⟨rfl, _⟩
  cases answer with
  | ok value => exact hok
  | error message => exact herror message _ rfl

end Rules

section Parts

variable {crates : HandoffCrates} {explicit locked : Bool} {view : View}

variable {f : Unit → Attempt α} {post : View → Except String α → Prop}

section

variable (hok : Walks crates explicit (f ()) post view)
variable (herror : ∀ message, post view (.error message))
include hok herror

theorem preflight_walks : Walks crates explicit (preflight >>= f) post view :=
  Walks.quiet rfl (fun answer => ⟨answer, rfl⟩) trivial (fun _ => rfl)
    (fun _ => hok) herror

theorem prepareRepo_walks {layout : Layout} :
    Walks crates explicit (prepareRepo layout >>= f) post view :=
  Walks.quiet rfl (fun answer => ⟨answer, rfl⟩) trivial (fun _ => rfl)
    (fun _ => hok) herror

theorem prepareWorktree_walks {layout : Layout} {snapshot : String} :
    Walks crates explicit (prepareWorktree layout snapshot >>= f) post view :=
  Walks.quiet rfl (fun answer => ⟨answer, rfl⟩) trivial (fun _ => rfl)
    (fun _ => hok) herror

end

theorem takeCapture_walks {layout : Layout} {snapshot resultRef : String}
    {isPartial : Bool} {f : Capture → Attempt α}
    (hok : ∀ capture, Walks crates explicit (f capture) post view)
    (herror : ∀ message, post view (.error message)) :
    Walks crates explicit
      (takeCapture layout snapshot resultRef isPartial >>= f) post view :=
  Walks.quiet rfl (fun answer => ⟨answer, rfl⟩) trivial (fun _ => rfl) hok
    herror

theorem Holding.handsOn {record : Record} (hholding : Holding locked record view) :
    Walks crates explicit (pure record) (HandsOn locked) view :=
  pure_walks hholding

theorem knowledge_afterRpc (view : View) (method : String) (params : Json)
    (answer : Except String Json) :
    (view.afterRpc crates method params answer).knowledge = view.knowledge ∧
      (view.afterRpc crates method params answer).locked = view.locked := by
  cases answer with
  | ok response =>
    rw [View.afterRpc]
    split <;> exact ⟨rfl, rfl⟩
  | error message =>
    rw [View.afterRpc]
    split
    · exact ⟨rfl, rfl⟩
    · split <;> exact ⟨rfl, rfl⟩

theorem Holding.afterRpc {record : Record}
    (hholding : Holding locked record view) (method : String) (params : Json)
    (answer : Except String Json) :
    Holding locked record (view.afterRpc crates method params answer) := by
  obtain ⟨hknowledge, hlock⟩ := knowledge_afterRpc view method params answer
  exact ⟨hlock.trans hholding.locked, hknowledge.trans hholding.knowledge,
    hholding.wellFormed⟩

theorem View.Allows.rpc {method : String} {params : Json}
    (hmethod : method ≠ "turn/start") :
    view.Allows explicit (.rpc method params) :=
  fun hturn => absurd hturn hmethod

/-- A call of the daemon leaves the record in hand. -/
theorem Holding.rpc_walks {method : String} {params : Json} {record : Record}
    {f : Json → Attempt α} (hholding : Holding locked record view)
    (hallows : view.Allows explicit (.rpc method params))
    (hok : ∀ response after,
      after = view.afterRpc crates method params (.ok response) →
      Holding locked record after → Walks crates explicit (f response) post after)
    (herror : ∀ message after, after.locked = locked →
      post after (.error message)) :
    Walks crates explicit (rpc method params >>= f) post view := by
  apply Walks.bind
  refine ⟨hallows, ?_⟩
  rintro answer after ⟨rfl, _⟩
  have hafter : Holding locked record (view.afterRpc crates method params
      answer) := hholding.afterRpc method params answer
  cases answer with
  | error message => exact herror message _ hafter.locked
  | ok response => exact hok response _ rfl hafter

/-- The record in hand is written with a change that loses nothing. -/
theorem Holding.write {base record : Record}
    (hholding : Holding locked base view)
    (hlocked : explicit = true → locked = true)
    (hwellFormed : record.WellFormed)
    (hcontinues : view.Continues explicit base record) :
    view.Allows explicit (.writeRecord record) ∧
      Holding locked record (view.afterWrite record) := by
  constructor
  · refine ⟨fun hexplicit => hholding.locked.trans (hlocked hexplicit),
      hwellFormed, ?_⟩
    rw [hholding.knowledge]
    exact hcontinues
  · exact ⟨hholding.locked, rfl, hwellFormed⟩

theorem saveLast_walks {base record : Record}
    (hholding : Holding locked base view)
    (hwrite : view.Allows explicit (.writeRecord record) ∧
      Holding locked record (view.afterWrite record)) :
    Walks crates explicit (do save record; pure record) (HandsOn locked)
      view := by
  apply save_walks hwrite.1
  · exact hwrite.2.handsOn
  · intro message after hafter
    exact hafter.trans hholding.locked

theorem load_walks (id : String) (hlocked : view.locked = locked) :
    Walks crates explicit (load id) (HandsOn locked) view := by
  rw [load]
  split
  · exact throw_walks hlocked
  · apply Walks.bind
    refine ⟨trivial, ?_⟩
    rintro answer after ⟨rfl, htrusted⟩
    cases answer with
    | error message => exact hlocked
    | ok record =>
      apply ofExcept_walks
      · intro value _
        split
        · exact throw_walks hlocked
        · exact pure_walks ⟨hlocked, rfl, htrusted⟩
      · intro message _
        exact hlocked

variable {record : Record}

section

variable (hholding : Holding locked record view)
variable (hlocked : explicit = true → locked = true)
include hholding hlocked

theorem adoptCandidate_walks (hphase : record.phase = .threadStarting)
    (candidates : List String) :
    Walks crates explicit (adoptCandidate record explicit candidates)
      (HandsOn locked) view := by
  have hwf := hholding.wellFormed
  rw [Record.WellFormed, hphase] at hwf
  rw [adoptCandidate]
  split
  · rename_i id _
    split
    · rename_i hknown
      refine saveLast_walks hholding (hholding.write hlocked
        ⟨by rintro ⟨⟩, hwf⟩ ⟨?_, ?_, ?_, Or.inl rfl⟩)
      · refine { Kept.refl record with threadId := ?_ }
        intro known hthread
        rw [hthread, all_some, decide_eq_true_eq] at hknown
        rw [hknown]
      · have hrank : Phase.threadStarting.rank ≤ Phase.threadAdopted.rank := by
          decide
        rw [← hphase] at hrank
        exact Or.inr hrank
      · rw [hphase]
        rintro ⟨⟩
    · exact hholding.handsOn
  · split
    · rename_i hfresh
      rw [Bool.and_eq_true, isNone_iff_eq_none] at hfresh
      refine saveLast_walks hholding (hholding.write hlocked ⟨hfresh.2, hwf⟩
        ⟨{ Kept.refl record with }, Or.inl hfresh.1, ?_,
          Or.inr ⟨hfresh.1, ?_⟩⟩)
      · rw [hphase]
        rintro ⟨⟩
      · rw [hphase]
        rintro ⟨⟩
    · exact hholding.handsOn

theorem listPages_walks (hphase : record.phase = .threadStarting)
    (layout : Layout) (fuel : Nat) (cursor : Json) (candidates : List String) :
    Walks crates explicit
      (listPages record layout explicit fuel cursor candidates)
      (HandsOn locked) view := by
  induction fuel generalizing cursor candidates view with
  | zero => exact hholding.handsOn
  | succ fuel ih =>
    refine hholding.rpc_walks (.rpc (by decide)) ?_ fun _ _ h => h
    intro page view _ hholding
    split
    · exact throw_walks hholding.locked
    · apply ofExcept_walks
      · intro found _
        split
        · exact hholding.handsOn
        · split
          · exact adoptCandidate_walks hholding hlocked hphase found
          · split
            · exact ih hholding _ found
            · exact throw_walks hholding.locked
          · exact throw_walks hholding.locked
      · exact fun message _ => hholding.locked

theorem observeTurn_walks (hphase : record.phase = .turnStarting)
    (layout : Layout) (response : Json) :
    Walks crates explicit (observeTurn record layout response)
      (HandsOn locked) view := by
  have hwf := hholding.wellFormed
  rw [Record.WellFormed, hphase] at hwf
  rw [observeTurn]
  split
  · exact throw_walks hholding.locked
  · split
    · exact throw_walks hholding.locked
    · split
      · exact throw_walks hholding.locked
      · split
        · exact throw_walks hholding.locked
        · refine saveLast_walks hholding (hholding.write hlocked
            ⟨hwf.1, by rintro ⟨⟩⟩ ⟨?_, ?_, fun _ => Or.inl rfl, Or.inl rfl⟩)
          · refine { Kept.refl record with turnId := ?_ }
            intro id hturn
            rw [hwf.2] at hturn
            cases hturn
          · have hrank : Phase.turnStarting.rank ≤ Phase.running.rank := by
              decide
            rw [← hphase] at hrank
            exact Or.inr hrank
      · exact hholding.handsOn

theorem answerTurn_walks {answer : Except String Json}
    (hphase : record.phase = .turnStarting) (layout : Layout)
    (hunstarted : ∀ error, answer = .error error →
      notMaterialized crates error = true →
      view.unstarted = some (Json.ofOption record.threadId)) :
    Walks crates explicit (answerTurn crates record layout explicit answer)
      (HandsOn locked) view := by
  have hwf := hholding.wellFormed
  rw [Record.WellFormed, hphase] at hwf
  cases answer with
  | ok response => exact observeTurn_walks hholding hlocked hphase layout response
  | error error =>
    rw [answerTurn]
    split
    · rename_i hmarker
      split
      · rename_i hexplicit
        have hdenied := hunstarted error rfl hmarker
        exact saveLast_walks hholding (hholding.write hlocked hwf
          ⟨{ Kept.refl record with }, Or.inl hexplicit, fun _ => Or.inr hdenied,
            Or.inr ⟨hexplicit, fun _ => by rw [View.denied, hdenied]; rfl⟩⟩)
      · exact hholding.handsOn
    · exact throw_walks hholding.locked

theorem reconcile_walks (layout : Layout) :
    Walks crates explicit (reconcile crates record layout explicit)
      (HandsOn locked) view := by
  rw [reconcile]
  split
  · rename_i hphase
    exact listPages_walks hholding hlocked hphase layout 2 .null []
  · rename_i hphase
    apply Program.Always.bind
    refine ⟨.rpc (by decide), ?_⟩
    rintro answer after ⟨rfl, _⟩
    have hafter : Holding locked record (view.afterRpc crates "thread/read"
        (readParams record) answer) := hholding.afterRpc ..
    refine answerTurn_walks hafter hlocked hphase layout ?_
    rintro error rfl hmarker
    simp [View.afterRpc, hmarker, readParams, Json.get]
  · exact hholding.handsOn

end

end Parts

section Start

variable {crates : HandoffCrates} {view : View} {record : Record}

theorem Holding.startWrites {base : Record} (hholding : Holding true base view)
    (record : Record) (hwellFormed : record.WellFormed) (hkept : Kept base record)
    (hstarted : base.phase.mayHaveTurn = true → record.phase.started = true) :
    view.Allows true (.writeRecord record) ∧
      Holding true record (view.afterWrite record) := by
  refine hholding.write (fun _ => rfl) hwellFormed ⟨hkept, Or.inl rfl,
    fun hbase => Or.inl (hstarted (Bool.or_eq_true_iff.mpr (Or.inl hbase))), ?_⟩
  by_cases hbase : base.phase.mayHaveTurn = true
  · exact Or.inl (Bool.or_eq_true_iff.mpr (Or.inl (hstarted hbase)))
  · exact Or.inr ⟨rfl, fun hmay => absurd hmay hbase⟩

theorem openRecord_walks (request : StartRequest) (hlocked : view.locked = true) :
    Walks crates true (openRecord crates request) (HandsOn true) view := by
  rw [openRecord]
  split
  · exact throw_walks hlocked
  · apply Walks.bind
    refine ⟨trivial, ?_⟩
    rintro (message | found) after ⟨rfl, _⟩
    · exact hlocked
    · cases found with
      | true =>
        refine Walks.handsOn (load_walks request.operationId hlocked) ?_
          fun _ _ h => h
        intro record after hholding
        split
        · exact throw_walks hholding.locked
        · exact hholding.handsOn
      | false =>
        apply save_walks
        · exact ⟨fun _ => hlocked, ⟨rfl, rfl⟩, rfl, rfl⟩
        · exact pure_walks ⟨hlocked, rfl, rfl, rfl⟩
        · intro message after hafter
          exact hafter.trans hlocked

section

variable (hholding : Holding true record view)
include hholding

theorem settleStarting_walks (layout : Layout) (prepareOnly : Bool) :
    Walks crates true (settleStarting crates record layout prepareOnly)
      (HandsOn true) view := by
  rw [settleStarting]
  split
  · have hsettle : Walks crates true
        (reconcileUnless crates record layout prepareOnly) (HandsOn true)
        view := by
      rw [reconcileUnless]
      split
      · exact hholding.handsOn
      · exact reconcile_walks hholding (fun _ => rfl) layout
    refine Walks.handsOn hsettle ?_ fun _ _ h => h
    intro record after hholding
    split
    · exact throw_walks hholding.locked
    · exact hholding.handsOn
  · exact hholding.handsOn

theorem readyWorktree_walks (layout : Layout) :
    Walks crates true (readyWorktree record layout) (HandsOn true) view := by
  have hwf := hholding.wellFormed
  have hplain : Walks crates true (do
      prepareWorktree layout record.request.snapshotCommit
      pure record) (HandsOn true) view :=
    prepareWorktree_walks hholding.handsOn fun _ => hholding.locked
  rw [readyWorktree]
  split
  · rename_i hphase
    rw [Record.WellFormed, hphase] at hwf
    apply prepareWorktree_walks
    · refine saveLast_walks hholding
        (hholding.startWrites _ hwf { Kept.refl record with } ?_)
      rw [hphase]
      rintro ⟨⟩
    · exact fun _ => hholding.locked
  · exact hplain
  · exact hplain
  · exact hplain
  · exact hholding.handsOn

theorem resumeAdopted_walks (layout : Layout) :
    Walks crates true (resumeAdopted record layout) (HandsOn true) view := by
  have hwf := hholding.wellFormed
  rw [resumeAdopted]
  split
  · rename_i hphase
    rw [Record.WellFormed, hphase] at hwf
    refine hholding.rpc_walks (.rpc (by decide)) ?_ fun _ _ h => h
    rintro response _ rfl hafter
    split
    · exact throw_walks hafter.locked
    · apply ofExcept_walks
      · intro value _
        split
        · exact throw_walks hafter.locked
        · rename_i hempty
          refine saveLast_walks hafter (hafter.write (fun _ => rfl) hwf
            ⟨{ Kept.refl record with }, Or.inl rfl, ?_,
              Or.inr ⟨rfl, fun _ => ?_⟩⟩)
          · rw [hphase]
            rintro ⟨⟩
          · simp [View.denied, View.afterRpc, showsNoTurns, not_not.mp hempty]
      · exact fun message _ => hafter.locked
  · exact hholding.handsOn

theorem startThread_walks (layout : Layout) :
    Walks crates true (startThread record layout) (HandsOn true) view := by
  have hwf := hholding.wellFormed
  rw [startThread]
  split
  · rename_i hphase
    rw [Record.WellFormed, hphase] at hwf
    -- first the intent is saved, then what the daemon answers
    have hintent := hholding.startWrites { record with phase := .threadStarting }
      hwf.2 { Kept.refl record with } (by rw [hphase]; rintro ⟨⟩)
    apply save_walks hintent.1
    · refine hintent.2.rpc_walks (.rpc (by decide)) ?_ fun _ _ h => h
      intro response after _ hafter
      split
      · exact throw_walks hafter.locked
      · rename_i id _
        have hkept : Kept { record with phase := .threadStarting }
            { record with threadId := some id, phase := .threadStarting } := by
          refine { Kept.refl record with threadId := ?_ }
          intro known hknown
          rw [hwf.1] at hknown
          cases hknown
        have hidentity := hafter.startWrites
          { record with threadId := some id, phase := .threadStarting }
          hwf.2 hkept (by rintro ⟨⟩)
        apply save_walks hidentity.1
        · apply ofExcept_walks
          · intro value _
            exact saveLast_walks hidentity.2
              (hidentity.2.startWrites _ ⟨by rintro ⟨⟩, hwf.2⟩
                { Kept.refl _ with } (by rintro ⟨⟩))
          · exact fun message _ => hidentity.2.locked
        · exact fun message last hlast => hlast.trans hafter.locked
    · exact fun message after hafter => hafter.trans hholding.locked
  · exact hholding.handsOn

theorem startTurn_walks (layout : Layout) :
    Walks crates true (startTurn record layout) (HandsOn true) view := by
  have hwf := hholding.wellFormed
  rw [startTurn]
  split
  · rename_i hphase
    rw [Record.WellFormed, hphase] at hwf
    obtain ⟨id, hid⟩ := ne_none_iff_exists'.mp hwf.1
    have hintent := hholding.startWrites { record with phase := .turnStarting }
      hwf { Kept.refl record with } (by rw [hphase]; rintro ⟨⟩)
    apply save_walks hintent.1
    · refine hintent.2.rpc_walks ?_ ?_ fun _ _ h => h
      · refine fun _ => ⟨hintent.2.locked, ?_, _, id, rfl, rfl, hid, ?_⟩
        · simp [View.afterWrite, hholding.knowledge, Knowledge.unstarted,
            hphase, Phase.mayHaveTurn, Phase.started]
        · simp [turnStartParams, Json.get, Json.ofOption, hid]
      · intro response after _ hafter
        split
        · exact throw_walks hafter.locked
        · rename_i turn _
          refine saveLast_walks hafter
            (hafter.startWrites _ ⟨hwf.1, by rintro ⟨⟩⟩ ?_ fun _ => rfl)
          refine { Kept.refl record with turnId := ?_ }
          intro known hknown
          rw [hwf.2] at hknown
          cases hknown
    · exact fun message after hafter => hafter.trans hholding.locked
  · exact hholding.handsOn

end

theorem startLocked_walks (pathsRoot : String) (request : StartRequest)
    (hlocked : view.locked = true) :
    Walks crates true (startLocked crates pathsRoot request)
      (LeavesLock true) view := by
  rw [startLocked]
  apply preflight_walks
  · refine Walks.handsOn (openRecord_walks _ hlocked) ?_ fun _ _ h => h
    intro record view hholding
    refine Walks.handsOn (settleStarting_walks hholding _ _) ?_ fun _ _ h => h
    intro record view hholding
    split
    · exact pure_walks hholding.locked
    · apply prepareRepo_walks
      · split
        · exact pure_walks hholding.locked
        · refine Walks.handsOn (readyWorktree_walks hholding _) ?_
            fun _ _ h => h
          intro record view hholding
          refine Walks.handsOn (resumeAdopted_walks hholding _) ?_
            fun _ _ h => h
          intro record view hholding
          refine Walks.handsOn (startThread_walks hholding _) ?_ fun _ _ h => h
          intro record view hholding
          refine Walks.handsOn (startTurn_walks hholding _) ?_ fun _ _ h => h
          intro record view hholding
          exact pure_walks hholding.locked
      · exact fun message => hholding.locked
  · exact fun message => hlocked

end Start

section Calls

variable {crates : HandoffCrates} {explicit : Bool} {view : View}

/-- A part that leaves the lock as it was gives it back at the end. -/
theorem whileLocked_walks {body : Attempt α}
    (hbody : ∀ view, view.locked = true →
      Walks crates explicit body (LeavesLock true) view) :
    Walks crates explicit (whileLocked body) (fun _ _ => True) view := by
  apply Walks.bind
  refine ⟨trivial, ?_⟩
  rintro (message | value) after ⟨rfl, _⟩
  · trivial
  · apply Program.Always.bind
    have hwalks := hbody (view.after crates .acquireLock (.ok ())) rfl
    apply Program.Always.mono hwalks
    intro view result hlocked
    exact ⟨hlocked, fun _ _ _ => trivial⟩

theorem startWith_walks (crates : HandoffCrates) (pathsRoot : String)
    (request : StartRequest) :
    Walks crates true (startWith crates pathsRoot request) (fun _ _ => True)
      {} := by
  rw [startWith]
  apply ofExcept_walks
  · intro value _
    split
    · exact throw_walks trivial
    · apply preflight_walks
      · apply whileLocked_walks
        intro view hlocked
        exact startLocked_walks pathsRoot request hlocked
      · exact fun message => trivial
  · exact fun message _ => trivial

variable {locked : Bool} {record : Record}

/-- The record is written with more captures or intents. -/
theorem Holding.rewrites {base : Record} (hholding : Holding locked base view)
    (hexplicit : explicit = true → locked = true) (record : Record)
    (hwellFormed : record.WellFormed) (hkept : Kept base record)
    (hphase : record.phase = base.phase) (hrunning : base.phase = .running) :
    view.Allows explicit (.writeRecord record) ∧
      Holding locked record (view.afterWrite record) := by
  refine hholding.write hexplicit hwellFormed
    ⟨hkept, Or.inr (Nat.le_of_eq (congrArg Phase.rank hphase.symm)),
      fun _ => Or.inl ?_, Or.inl ?_⟩
  · rw [hphase, hrunning]
    rfl
  · rw [hphase, hrunning]
    rfl

theorem captureResult_walks (hholding : Holding locked record view)
    (hexplicit : explicit = true → locked = true) (layout : Layout)
    (handoffId : String) {operation : String} (thread : Json)
    (turnStatus : String) (result : HandoffStatus)
    (hrunning : record.phase = .running)
    (hfresh : record.captures.get operation = none) :
    Walks crates explicit
      (captureResult record layout handoffId operation thread turnStatus result)
      (LeavesLock locked) view := by
  have hwf := hholding.wellFormed
  -- an intent that stands is written as it is
  have hintents : ∀ other isPartial default,
      record.captureIntents.get other = some isPartial →
      (record.captureIntents.insert operation
        ((record.captureIntents.get operation).getD default)).get other =
          some isPartial := by
    intro other isPartial default hget
    rw [HashMap.get_insert]
    split
    · rename_i hsame
      rw [← hsame, hget, getD_some]
    · exact hget
  have hintent := hholding.rewrites hexplicit
    { record with
      captureIntents := record.captureIntents.insert operation
        ((record.captureIntents.get operation).getD
          (isActive thread || decide (turnStatus ≠ "completed"))) } hwf
    { Kept.refl record with
      intents := fun other isPartial => hintents other isPartial _ } rfl
    hrunning
  apply save_walks hintent.1
  · apply takeCapture_walks
    · intro capture
      have hcaptures : ∀ other found, record.captures.get other = some found →
          (record.captures.insert operation capture).get other =
            some found := by
        intro other found hget
        have hother : other ≠ operation := by
          rintro rfl
          rw [hfresh] at hget
          cases hget
        rw [HashMap.get_insert, if_neg hother]
        exact hget
      have hcapture := hintent.2.rewrites hexplicit
        { record with
          captureIntents := record.captureIntents.insert operation
            ((record.captureIntents.get operation).getD
              (isActive thread || decide (turnStatus ≠ "completed")))
          captures := record.captures.insert operation capture } hwf
        { Kept.refl _ with captures := hcaptures } rfl hrunning
      apply save_walks hcapture.1
      · exact pure_walks hcapture.2.locked
      · exact fun message after hafter => hafter.trans hintent.2.locked
    · exact fun message => hintent.2.locked
  · exact fun message after hafter => hafter.trans hholding.locked

theorem observeResult_walks (hholding : Holding locked record view)
    (hexplicit : explicit = true → locked = true) (layout : Layout)
    (request : ResultRequest) (result : HandoffStatus) (response : Json)
    (hrunning : record.phase = .running)
    (hfresh : ∀ operation, request.capture = true →
      request.operationId = some operation →
      record.captures.get operation = none) :
    Walks crates explicit (observeResult record layout request result response)
      (LeavesLock locked) view := by
  rw [observeResult]
  split
  · exact throw_walks hholding.locked
  · split
    · exact throw_walks hholding.locked
    · split
      · exact throw_walks hholding.locked
      · split
        · exact throw_walks hholding.locked
        · split
          · rename_i hcapture
            split
            · exact throw_walks hholding.locked
            · rename_i operation hoperation
              exact captureResult_walks hholding hexplicit layout _ _ _ _
                hrunning (hfresh operation hcapture hoperation)
          · exact pure_walks hholding.locked

theorem resultLoaded_walks (pathsRoot : String) (request : ResultRequest)
    (hlocked : view.locked = locked) :
    Walks crates false (resultLoaded crates pathsRoot request)
      (LeavesLock locked) view := by
  rw [resultLoaded]
  refine Walks.handsOn (load_walks request.handoffId hlocked) ?_ fun _ _ h => h
  intro record view hholding
  have hlocked : false = true → locked = true := by rintro ⟨⟩
  refine Walks.handsOn (reconcile_walks hholding hlocked _) ?_ fun _ _ h => h
  intro record view hholding
  split
  · exact pure_walks hholding.locked
  · rename_i hnone
    split
    · exact pure_walks hholding.locked
    · rename_i hphase
      refine hholding.rpc_walks (.rpc (by decide)) ?_ fun _ _ h => h
      intro response view _ hholding
      apply observeResult_walks hholding hlocked _ _ _ _ (not_not.mp hphase)
      intro operation hcapture hoperation
      rw [earlierCapture, hcapture, if_pos rfl, hoperation, getD_some] at hnone
      exact hnone

/-- A poll does what is allowed all along. -/
theorem resultWith_walks (crates : HandoffCrates) (pathsRoot : String)
    (request : ResultRequest) :
    Walks crates false (resultWith crates pathsRoot request)
      (fun _ _ => True) {} := by
  rw [resultWith]
  split
  · exact throw_walks trivial
  · split
    · exact throw_walks trivial
    · have hload : Walks crates false (load request.handoffId)
          (HandsOn false) {} := load_walks request.handoffId rfl
      refine Walks.handsOn hload ?_ fun message after _ => trivial
      intro initial view hholding
      split
      · apply whileLocked_walks
        intro view hlocked
        exact resultLoaded_walks pathsRoot request hlocked
      · apply (resultLoaded_walks pathsRoot request hholding.locked).mono
        exact fun view result _ => trivial

end Calls

end Vellum.Agent

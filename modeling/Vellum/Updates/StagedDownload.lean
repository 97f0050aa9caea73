/-
How downloaded bytes get into the update cache (`updates/cache.rs`,
`stage_bytes`): they are written beside the destination, resuming what an
earlier call left there, verified, and moved over the destination.  A call can
be cut off between two file system steps and in the middle of a write; an I/O
error ends a call in the same places.
-/
import Vellum.Library.CrashRun
import Vellum.Updates.Manifest

namespace Vellum.Updates

abbrev Bytes := List UInt8

/-- The destination and the file beside it that is being filled. -/
structure StagedFiles where
  dest : Option Bytes
  partialFile : Option Bytes

structure StageCall where
  bytes : Bytes
  expectedSha256 : String
  expectedSize : Nat
  availableBytes : Nat

/-- What the file system answers during a call: whether the partial file can be
read, and whether the destination can be removed. -/
structure StageAnswers where
  readable : Bool
  removable : Bool

inductive CacheError where
  | io (message : String)
  | diskFull (needed : Nat)
  | badHash

inductive StageStep where
  | removePartial
  | openPartial
  | writePartial (offset : Nat) (data : Bytes)
  | removeDest
  | renamePartial

namespace StageStep

/-- A write at an offset that is not behind the end of the file. -/
def writeAt (offset : Nat) (data held : Bytes) : Bytes :=
  held.take offset ++ data ++ held.drop (offset + data.length)

def run : StageStep → StagedFiles → StagedFiles
  | .removePartial, files => { files with partialFile := none }
  | .openPartial, files =>
    { files with partialFile := some (files.partialFile.getD []) }
  | .writePartial offset data, files =>
    { files with partialFile := files.partialFile.map (writeAt offset data) }
  | .removeDest, files => { files with dest := none }
  | .renamePartial, files =>
    match files.partialFile with
    | none => files
    | some held => ⟨some held, none⟩

/-- A write that is cut short leaves a prefix of its data; the other steps are
atomic. -/
inductive Torn : StageStep → StagedFiles → StagedFiles → Prop
  | writePartial (offset : Nat) (data : Bytes) (files : StagedFiles)
      (written : Nat) :
      Torn (.writePartial offset data) files
        (run (.writePartial offset (data.take written)) files)

end StageStep

/-- The part of the partial file that is kept, with the steps that drop the
rest. -/
def resumeFrom (call : StageCall) (answers : StageAnswers)
    (files : StagedFiles) : List StageStep × Nat :=
  match files.partialFile with
  | none => ([], 0)
  | some held =>
    if held.length > call.bytes.length then ([.removePartial], 0)
    else if answers.readable ∧ held = call.bytes.take held.length then
      ([], held.length)
    else ([.removePartial], 0)

/-- Fill the partial file. -/
def writeSteps (call : StageCall) (answers : StageAnswers)
    (files : StagedFiles) : List StageStep :=
  let resume := resumeFrom call answers files
  resume.1 ++
    [.openPartial, .writePartial resume.2 (call.bytes.drop resume.2)]

/-- `atomic_replace`.  A removal that fails is passed over. -/
def atomicReplace (answers : StageAnswers) (files : StagedFiles) :
    List StageStep :=
  (if files.dest.isSome ∧ answers.removable then [.removeDest] else []) ++
    [.renamePartial]

variable (sha256 : Bytes → List Char)

/-- The steps of a call and what it returns when all of them succeed. -/
def stageBytes (call : StageCall) (answers : StageAnswers)
    (files : StagedFiles) : List StageStep × Except CacheError Unit :=
  if call.expectedSize > 0 ∧ call.bytes.length ≠ call.expectedSize then
    ([], .error (.io ("declared size " ++ toString call.expectedSize ++
      " != " ++ toString call.bytes.length)))
  else if call.availableBytes < call.bytes.length then
    ([], .error (.diskFull call.bytes.length))
  else
    let write := writeSteps call answers files
    if verifyAssetSha256 sha256 call.bytes call.expectedSha256 then
      (write ++ atomicReplace answers files, .ok ())
    else (write, .error .badHash)

/-- A call that gets as far as replacing the destination: the size is the
declared one, the disk has room, and the bytes have the expected hash. -/
structure Accepted (call : StageCall) : Prop where
  size : call.expectedSize > 0 → call.bytes.length = call.expectedSize
  room : call.bytes.length ≤ call.availableBytes
  hash : verifyAssetSha256 sha256 call.bytes call.expectedSha256 = true

/-- The destination holds its old content or bytes with the expected hash, and
is not missing once it existed. -/
structure KeepsDest (call : StageCall) (files left : StagedFiles) : Prop where
  content : ∀ held, left.dest = some held → files.dest = some held ∨
    verifyAssetSha256 sha256 held call.expectedSha256 = true
  exists_of_exists : files.dest.isSome → left.dest.isSome

/-- A call of which every cut keeps the destination and which leaves the bytes
in it when it succeeds; behind any of its cuts a call with correct bytes
succeeds. -/
structure StagesSafely (call : StageCall) (files : StagedFiles) : Prop where
  cut : ∀ answers left,
    CutOff StageStep.run StageStep.Torn
      (stageBytes sha256 call answers files).1 files left →
    KeepsDest sha256 call files left
  done : ∀ answers, (stageBytes sha256 call answers files).2 = .ok () →
    (runSteps StageStep.run (stageBytes sha256 call answers files).1
      files).dest = some call.bytes
  again : ∀ answers left,
    CutOff StageStep.run StageStep.Torn
      (stageBytes sha256 call answers files).1 files left →
    ∀ retry retryAnswers, Accepted sha256 retry →
      (stageBytes sha256 retry retryAnswers left).2 = .ok () ∧
        (runSteps StageStep.run (stageBytes sha256 retry retryAnswers left).1
          left).dest = some retry.bytes

variable {sha256} {call : StageCall} {answers : StageAnswers}
  {files left : StagedFiles}

/-- A step that does not touch the destination. -/
def StageStep.Beside (step : StageStep) : Prop :=
  step ≠ .removeDest ∧ step ≠ .renamePartial

theorem StageStep.Beside.dest {step : StageStep} (hbeside : step.Beside)
    (files : StagedFiles) : (step.run files).dest = files.dest := by
  cases step with
  | removePartial => rfl
  | openPartial => rfl
  | writePartial offset data => rfl
  | removeDest => exact absurd rfl hbeside.1
  | renamePartial => exact absurd rfl hbeside.2

theorem StageStep.Torn.dest {step : StageStep}
    (htorn : StageStep.Torn step files left) : left.dest = files.dest := by
  cases htorn
  rfl

theorem survives_beside {steps : List StageStep}
    (hbeside : ∀ step ∈ steps, step.Beside) :
    SurvivesCuts StageStep.run StageStep.Torn
      (fun left => left.dest = files.dest) steps files := by
  suffices hfrom : ∀ state : StagedFiles, state.dest = files.dest →
      SurvivesCuts StageStep.run StageStep.Torn
        (fun left => left.dest = files.dest) steps state from hfrom files rfl
  induction steps with
  | nil => exact fun state hstate => hstate
  | cons step rest ih =>
    intro state hstate
    refine ⟨hstate, fun left htorn => htorn.dest.trans hstate, ?_⟩
    refine ih (fun other hother =>
      hbeside other (List.mem_cons_of_mem _ hother)) _ ?_
    exact ((hbeside step List.mem_cons_self).dest state).trans hstate

/-- The partial file is dropped, or it is a prefix of the bytes and kept. -/
theorem resumeFrom_cases (call : StageCall) (answers : StageAnswers)
    (files : StagedFiles) :
    resumeFrom call answers files = ([.removePartial], 0) ∨
      ∃ kept, files.partialFile.getD [] = kept ∧
        kept ++ call.bytes.drop kept.length = call.bytes ∧
        resumeFrom call answers files = ([], kept.length) := by
  cases hheld : files.partialFile with
  | none => exact Or.inr ⟨[], rfl, rfl, by simp [resumeFrom, hheld]⟩
  | some held =>
    simp only [resumeFrom, hheld]
    split_ifs with hlong hprefix
    · exact Or.inl rfl
    · refine Or.inr ⟨held, rfl, ?_, rfl⟩
      conv_rhs => rw [← List.take_append_drop held.length call.bytes]
      rw [← hprefix.2]
    · exact Or.inl rfl

theorem beside_writeSteps (call : StageCall) (answers : StageAnswers)
    (files : StagedFiles) :
    ∀ step ∈ writeSteps call answers files, step.Beside := by
  rcases resumeFrom_cases call answers files with hresume | ⟨_, -, -, hresume⟩
  · simp [writeSteps, hresume, StageStep.Beside]
  · simp [writeSteps, hresume, StageStep.Beside]

/-- Whatever partial file is there, it holds the bytes after the write. -/
theorem written (call : StageCall) (answers : StageAnswers)
    (files : StagedFiles) :
    runSteps StageStep.run (writeSteps call answers files) files =
      ⟨files.dest, some call.bytes⟩ := by
  rcases resumeFrom_cases call answers files with
    hresume | ⟨kept, hkept, hbytes, hresume⟩
  · simp [writeSteps, hresume, runSteps, StageStep.run, StageStep.writeAt]
  · simp [writeSteps, hresume, runSteps, StageStep.run, StageStep.writeAt,
      hkept, hbytes]

theorem stageBytes_of_accepted (haccepted : Accepted sha256 call) :
    stageBytes sha256 call answers files =
      (writeSteps call answers files ++ atomicReplace answers files,
        .ok ()) := by
  have hsize : ¬ (call.expectedSize > 0 ∧
      call.bytes.length ≠ call.expectedSize) :=
    fun hwrong => hwrong.2 (haccepted.size hwrong.1)
  rw [stageBytes, if_neg hsize, if_neg (Nat.not_lt.mpr haccepted.room),
    if_pos haccepted.hash]

/-- A call that is not accepted returns an error before it touches the
destination. -/
theorem stageBytes_of_rejected (hrejected : ¬ Accepted sha256 call) :
    (∀ step ∈ (stageBytes sha256 call answers files).1, step.Beside) ∧
      (stageBytes sha256 call answers files).2 ≠ .ok () := by
  unfold stageBytes
  split_ifs with hsize hroom hhash
  · simp
  · simp
  · refine absurd ⟨fun hpositive => ?_, Nat.not_lt.mp hroom, hhash⟩ hrejected
    by_contra hwrong
    exact hsize ⟨hpositive, hwrong⟩
  · exact ⟨beside_writeSteps call answers files, by simp⟩

/-- A call with correct bytes succeeds whatever is there, and leaves them in
the destination. -/
theorem accepted_succeeds (haccepted : Accepted sha256 call)
    (answers : StageAnswers) (files : StagedFiles) :
    (stageBytes sha256 call answers files).2 = .ok () ∧
      (runSteps StageStep.run (stageBytes sha256 call answers files).1
        files).dest = some call.bytes := by
  rw [stageBytes_of_accepted haccepted]
  refine ⟨rfl, ?_⟩
  rw [runSteps_append, written, atomicReplace]
  split_ifs <;> rfl

theorem keepsDest_of_dest (hdest : left.dest = files.dest) :
    KeepsDest sha256 call files left where
  content := fun _ hheld => Or.inl (hdest ▸ hheld)
  exists_of_exists := fun hexists => by
    rw [hdest]
    exact hexists

/-- Every cut of a call on a missing destination leaves it missing or holding
the bytes. -/
theorem survives_missing (haccepted : Accepted sha256 call)
    (hmissing : files.dest = none) :
    SurvivesCuts StageStep.run StageStep.Torn
      (fun left => left.dest = files.dest ∨ left.dest = some call.bytes)
      (stageBytes sha256 call answers files).1 files := by
  rw [stageBytes_of_accepted haccepted, atomicReplace, hmissing]
  apply SurvivesCuts.append
  · rw [← hmissing]
    exact (survives_beside (beside_writeSteps call answers files)).mono
      fun left hdest => Or.inl hdest
  · rw [written]
    exact SurvivesCuts.atomic (fun left htorn => by cases htorn)
      (Or.inl hmissing) (Or.inr rfl)

theorem cut_keeps_dest (hcondition : files.dest = none ∨
      ¬ Accepted sha256 call)
    (hcut : CutOff StageStep.run StageStep.Torn
      (stageBytes sha256 call answers files).1 files left) :
    KeepsDest sha256 call files left := by
  by_cases haccepted : Accepted sha256 call
  · have hmissing := hcondition.resolve_right (not_not.mpr haccepted)
    rcases (survives_missing haccepted hmissing).cutOff hcut with hdest | hdest
    · exact keepsDest_of_dest hdest
    · constructor
      · intro held hheld
        rw [hdest] at hheld
        cases hheld
        exact Or.inr haccepted.hash
      · intro hexists
        rw [hmissing] at hexists
        cases hexists
  · have hbeside : ∀ step ∈ (stageBytes sha256 call answers files).1,
        step.Beside := (stageBytes_of_rejected haccepted).1
    exact keepsDest_of_dest ((survives_beside hbeside).cutOff hcut)

/-- Between the removal of the destination and the rename there is none. -/
theorem cut_after_removal (haccepted : Accepted sha256 call)
    (hexists : files.dest.isSome) :
    CutOff StageStep.run StageStep.Torn
      (stageBytes sha256 call ⟨true, true⟩ files).1 files
      ⟨none, some call.bytes⟩ := by
  rw [stageBytes_of_accepted haccepted, atomicReplace, if_pos ⟨hexists, rfl⟩]
  apply CutOff.append
  rw [written]
  exact .next (.stop _ _)

/-- A call stages safely exactly when there is no destination yet or the call
does not come to replace it. -/
theorem stages_safely_iff (sha256 : Bytes → List Char) (call : StageCall)
    (files : StagedFiles) : StagesSafely sha256 call files ↔
      files.dest = none ∨ ¬ Accepted sha256 call := by
  constructor
  · intro hsafe
    by_contra hcondition
    simp only [not_or, not_not] at hcondition
    obtain ⟨hdest, haccepted⟩ := hcondition
    have hexists : files.dest.isSome := Option.isSome_iff_ne_none.mpr hdest
    have hkeeps := hsafe.cut ⟨true, true⟩ _
      (cut_after_removal haccepted hexists)
    exact Bool.false_ne_true (hkeeps.exists_of_exists hexists)
  · intro hcondition
    constructor
    · intro answers left hcut
      exact cut_keeps_dest hcondition hcut
    · intro answers hok
      by_cases haccepted : Accepted sha256 call
      · exact (accepted_succeeds haccepted answers files).2
      · exact absurd hok (stageBytes_of_rejected haccepted).2
    · intro answers left _ retry retryAnswers haccepted
      exact accepted_succeeds haccepted retryAnswers left

namespace ReplacedDownload

def hello : Bytes := [104, 101, 108, 108, 111]

/-- The digest of these five bytes. -/
def digest : String :=
  "2cf24dba5fb0a30e26e83b2ac5b9e29e1b161e5c1fa7425e73043362938b9824"

def sha256OfHello (bytes : Bytes) : List Char :=
  if bytes = hello then digest.toList else []

def download : StageCall := ⟨hello, "sha256:" ++ digest, 5, 1000⟩

/-- A second download of the same bytes. -/
def staged : StagedFiles := ⟨some hello, none⟩

theorem accepted_download : Accepted sha256OfHello download where
  size := fun _ => rfl
  room := by decide
  hash := by decide +kernel

/-- A crash behind the removal loses the staged file. -/
theorem staged_file_is_lost : ¬ StagesSafely sha256OfHello download staged := by
  intro hsafe
  have hkeeps := hsafe.cut ⟨true, true⟩ _
    (cut_after_removal accepted_download rfl)
  exact Bool.false_ne_true (hkeeps.exists_of_exists rfl)

end ReplacedDownload

end Vellum.Updates

/-
The switch from one tree of an update slot to the next (`updates/cache.rs`):
`current` is renamed to `previous` and `candidate` to `current`, under a marker
that says how far the switch has come.  A call can be cut off between two file
system steps and in the middle of a directory's removal; an I/O error ends a
call in the same places.
-/
import Vellum.Library.CrashRun
import Vellum.Library.Json

namespace Vellum.Updates

open Option

/-- The files of a directory tree with their bytes. -/
abbrev Tree := List (String × List UInt8)

/-- `.complete` is among the files. -/
def isComplete (tree : Tree) : Bool := tree.any fun file => file.1 = ".complete"

inductive SlotDir where
  | current
  | candidate
  | previous

/-- A slot directory.  The marker is what `switch.json` parses as, if it can be
read at all. -/
structure Slot where
  current : Option Tree
  candidate : Option Tree
  previous : Option Tree
  marker : Option Json

namespace Slot

def tree (slot : Slot) : SlotDir → Option Tree
  | .current => slot.current
  | .candidate => slot.candidate
  | .previous => slot.previous

def setTree (slot : Slot) (dir : SlotDir) (tree : Option Tree) : Slot :=
  match dir with
  | .current => { slot with current := tree }
  | .candidate => { slot with candidate := tree }
  | .previous => { slot with previous := tree }

def candidateComplete (slot : Slot) : Bool := slot.candidate.any isComplete

/-- The phase of the marker; a missing or foreign one is `done`. -/
def phase (slot : Slot) : String :=
  let marker := slot.marker.getD (.obj [("phase", .str "done")])
  ((marker.get "phase").bind Json.asStr).getD "done"

end Slot

/-- The file system steps of the two calls. -/
inductive FsStep where
  | writeMarker (phase : String)
  | removeDirAll (dir : SlotDir)
  | rename (source target : SlotDir)

namespace FsStep

def run : FsStep → Slot → Slot
  | .writeMarker phase, slot =>
    { slot with marker := some (.obj [("phase", .str phase)]) }
  | .removeDirAll dir, slot => slot.setTree dir none
  | .rename source target, slot =>
    (slot.setTree target (slot.tree source)).setTree source none

/-- A removal that is cut off leaves some of the files; the other steps are
atomic. -/
inductive Torn : FsStep → Slot → Slot → Prop
  | removeDirAll (dir : SlotDir) (slot : Slot) {tree left : Tree}
      (hdir : slot.tree dir = some tree) (hleft : left.Sublist tree) :
      Torn (.removeDirAll dir) slot (slot.setTree dir (some left))

end FsStep

/-- `commit_candidate`: an error, or the steps to take. -/
def commitCandidate (slot : Slot) : Except String (List FsStep) :=
  if !slot.candidateComplete then .error "candidate is incomplete"
  else .ok (
    [.writeMarker "renamingCurrent"] ++
    (if slot.current.isSome then
      (if slot.previous.isSome then [.removeDirAll .previous] else []) ++
        [.rename .current .previous]
    else []) ++
    [.writeMarker "renamingCandidate", .rename .candidate .current,
      .writeMarker "done"])

/-- `recover_switch`.  The candidate is looked at again behind the rename. -/
def recoverSwitch (slot : Slot) : List FsStep :=
  let finish : List FsStep :=
    if slot.phase ∈ ["renamingCurrent", "renamingCandidate"] ∧
        slot.current = none ∧ slot.candidateComplete = true then
      [.rename .candidate .current]
    else []
  let switched := runSteps FsStep.run finish slot
  finish ++
    (if switched.candidate.isSome ∧ switched.candidateComplete = false then
      [.removeDirAll .candidate]
    else [])

/-- The steps of a call on a slot. -/
inductive SwitchCall (slot : Slot) : List FsStep → Prop
  | commit {steps : List FsStep} (hsteps : commitCandidate slot = .ok steps) :
      SwitchCall slot steps
  | recover : SwitchCall slot (recoverSwitch slot)

/-- Any number of calls, each of them finished or cut off anywhere. -/
abbrev Reaches : Slot → Slot → Prop :=
  Relation.ReflTransGen fun slot left =>
    ∃ steps, SwitchCall slot steps ∧
      CutOff FsStep.run FsStep.Torn steps slot left

/-- The slot behind a recovery that ran to its end. -/
def recovered (slot : Slot) : Slot :=
  runSteps FsStep.run (recoverSwitch slot) slot

/-- A switch to a complete candidate is under way. -/
def SwitchMarked (slot : Slot) : Prop :=
  slot.phase ∈ ["renamingCurrent", "renamingCandidate"] ∧
    slot.candidateComplete = true

/-- A recovery ends with a tree. -/
def Held (slot : Slot) : Prop := slot.current.isSome = true ∨ SwitchMarked slot

/-- Every tree in use is one of the trees at the start, and whole. -/
structure Whole (initial slot : Slot) : Prop where
  current : ∀ tree, slot.current = some tree → isComplete tree = true ∧
    (initial.current = some tree ∨ initial.candidate = some tree)
  candidate : ∀ tree, slot.candidate = some tree → isComplete tree = true →
    initial.candidate = some tree

variable {initial slot : Slot}

namespace Whole

section

variable (hwhole : Whole initial slot)
include hwhole

theorem congr {left : Slot} (hcurrent : left.current = slot.current)
    (hcandidate : left.candidate = slot.candidate) : Whole initial left where
  current := by
    rw [hcurrent]
    exact hwhole.current
  candidate := by
    rw [hcandidate]
    exact hwhole.candidate

theorem setPrevious (tree : Option Tree) :
    Whole initial (slot.setTree .previous tree) :=
  hwhole.congr rfl rfl

theorem dropCurrent {left : Slot} (hcurrent : left.current = none)
    (hcandidate : left.candidate = slot.candidate) : Whole initial left where
  current := by
    rw [hcurrent]
    intro tree htree
    cases htree
  candidate := by
    rw [hcandidate]
    exact hwhole.candidate

/-- A complete candidate becomes the current tree. -/
theorem promote (hcomplete : slot.candidateComplete = true) :
    Whole initial (FsStep.run (.rename .candidate .current) slot) where
  current := by
    intro tree htree
    have hcandidate : slot.candidate = some tree := htree
    rw [Slot.candidateComplete, hcandidate, any_some] at hcomplete
    exact ⟨hcomplete, Or.inr (hwhole.candidate tree hcandidate hcomplete)⟩
  candidate := by
    intro tree htree
    cases htree

theorem setCandidate {tree : Option Tree}
    (htree : ∀ left, tree = some left → isComplete left = false) :
    Whole initial (slot.setTree .candidate tree) where
  current := hwhole.current
  candidate := by
    intro left hleft hcomplete
    rw [htree left hleft] at hcomplete
    cases hcomplete

end

end Whole

theorem not_torn_writeMarker (phase : String) (slot left : Slot) :
    ¬ FsStep.Torn (.writeMarker phase) slot left := by
  intro htorn
  cases htorn

theorem not_torn_rename (source target : SlotDir) (slot left : Slot) :
    ¬ FsStep.Torn (.rename source target) slot left := by
  intro htorn
  cases htorn

theorem phase_writeMarker (phase : String) (slot : Slot) :
    (FsStep.run (.writeMarker phase) slot).phase = phase := rfl

theorem isComplete_sublist {tree left : Tree} (hleft : left.Sublist tree)
    (hincomplete : isComplete tree = false) : isComplete left = false := by
  rw [isComplete, List.any_eq_false] at hincomplete ⊢
  intro file hfile
  exact hincomplete file (hleft.subset hfile)

variable {steps : List FsStep}

theorem commitCandidate_eq_ok (hsteps : commitCandidate slot = .ok steps) :
    slot.candidateComplete = true ∧
      steps = [.writeMarker "renamingCurrent"] ++
        (if slot.current.isSome then
          (if slot.previous.isSome then [.removeDirAll .previous] else []) ++
            [.rename .current .previous]
        else []) ++
        [.writeMarker "renamingCandidate", .rename .candidate .current,
          .writeMarker "done"] := by
  unfold commitCandidate at hsteps
  split at hsteps
  · cases hsteps
  · rename_i hcomplete
    rw [Bool.not_eq_true, Bool.not_eq_false'] at hcomplete
    exact ⟨hcomplete, (Except.ok.inj hsteps).symm⟩

/-- The three parts of a commit, for a condition that does not look at the
previous tree. -/
theorem throughout_commit {Holds : Slot → Prop}
    (hprevious : ∀ (slot : Slot) (tree : Option Tree), Holds slot →
      Holds (slot.setTree .previous tree))
    (hsteps : commitCandidate slot = .ok steps) (hslot : Holds slot)
    (hmarked : Holds (FsStep.run (.writeMarker "renamingCurrent") slot))
    (hrenamed : ∀ left : Slot, left.current = none →
      left.candidate = slot.candidate → left.phase = "renamingCurrent" →
      Holds left)
    (hbetween : ∀ left : Slot, left.current = none →
      left.candidate = slot.candidate → left.phase = "renamingCandidate" →
      Holds left ∧ Holds (FsStep.run (.rename .candidate .current) left) ∧
        Holds (FsStep.run (.writeMarker "done")
          (FsStep.run (.rename .candidate .current) left))) :
    SurvivesCuts FsStep.run FsStep.Torn Holds steps slot := by
  obtain ⟨-, rfl⟩ := commitCandidate_eq_ok hsteps
  have htail (left : Slot) (hleft : Holds left) (hcurrent : left.current = none)
      (hcandidate : left.candidate = slot.candidate) :
      SurvivesCuts FsStep.run FsStep.Torn Holds
        [.writeMarker "renamingCandidate", .rename .candidate .current,
          .writeMarker "done"] left := by
    obtain ⟨hfirst, hsecond, hthird⟩ :=
      hbetween (FsStep.run (.writeMarker "renamingCandidate") left) hcurrent
        hcandidate rfl
    apply SurvivesCuts.atomic (not_torn_writeMarker _ _) hleft
    apply SurvivesCuts.atomic (not_torn_rename _ _ _) hfirst
    apply SurvivesCuts.atomic (not_torn_writeMarker _ _) hsecond
    exact hthird
  rw [List.append_assoc, List.singleton_append]
  apply SurvivesCuts.atomic (not_torn_writeMarker _ _) hslot
  cases hcurrent : slot.current with
  | none => exact htail _ hmarked hcurrent rfl
  | some tree =>
    apply SurvivesCuts.append
    · rw [isSome_some, if_pos rfl]
      cases hold : slot.previous with
      | none =>
        apply SurvivesCuts.atomic (not_torn_rename _ _ _) hmarked
        exact hrenamed _ rfl rfl rfl
      | some old =>
        refine ⟨hmarked, ?_, ?_⟩
        · rintro left (⟨_, _, _⟩ : FsStep.Torn _ _ _)
          exact hprevious _ _ hmarked
        · apply SurvivesCuts.atomic (not_torn_rename _ _ _)
          · exact hprevious _ _ hmarked
          · exact hrenamed _ rfl rfl rfl
    · rw [isSome_some, if_pos rfl]
      cases slot.previous with
      | none =>
        exact htail _ (hrenamed _ rfl rfl rfl) rfl rfl
      | some old =>
        exact htail _ (hrenamed _ rfl rfl rfl) rfl rfl

theorem whole_commit (hwhole : Whole initial slot)
    (hsteps : commitCandidate slot = .ok steps) :
    SurvivesCuts FsStep.run FsStep.Torn (Whole initial) steps slot := by
  have hcomplete := (commitCandidate_eq_ok hsteps).1
  apply throughout_commit (fun _ tree hslot => hslot.setPrevious tree) hsteps
    hwhole (hwhole.congr rfl rfl)
  · intro left hcurrent hcandidate _
    exact hwhole.dropCurrent hcurrent hcandidate
  · intro left hcurrent hcandidate _
    have hleft := hwhole.dropCurrent hcurrent hcandidate
    have hpromoted : Whole initial
        (FsStep.run (.rename .candidate .current) left) := by
      apply hleft.promote
      rw [Slot.candidateComplete, hcandidate]
      exact hcomplete
    exact ⟨hleft, hpromoted, hpromoted.congr rfl rfl⟩

theorem held_promoted (hcomplete : slot.candidateComplete = true) :
    (FsStep.run (.rename .candidate .current) slot).current.isSome = true := by
  have hcandidate : slot.candidate.isSome = true :=
    isSome_of_any hcomplete
  exact hcandidate

theorem held_commit (hheld : Held slot)
    (hsteps : commitCandidate slot = .ok steps) :
    SurvivesCuts FsStep.run FsStep.Torn Held steps slot := by
  have hcomplete := (commitCandidate_eq_ok hsteps).1
  have hkept {left : Slot} (hcandidate : left.candidate = slot.candidate) :
      left.candidateComplete = true := by
    rw [Slot.candidateComplete, hcandidate]
    exact hcomplete
  apply throughout_commit (fun _ _ hslot => hslot) hsteps hheld
  · exact Or.inr ⟨by rw [phase_writeMarker]; decide, hkept rfl⟩
  · intro left _ hcandidate hphase
    exact Or.inr ⟨by rw [hphase]; decide, hkept hcandidate⟩
  · intro left _ hcandidate hphase
    have hpromoted := held_promoted (hkept hcandidate)
    exact ⟨Or.inr ⟨by rw [hphase]; decide, hkept hcandidate⟩,
      Or.inl hpromoted, Or.inl hpromoted⟩

theorem recoverSwitch_of_marked (hmarked : SwitchMarked slot)
    (hcurrent : slot.current = none) :
    recoverSwitch slot = [.rename .candidate .current] := by
  rw [recoverSwitch, if_pos ⟨hmarked.1, hcurrent, hmarked.2⟩]
  rfl

theorem recoverSwitch_of_held (hheld : slot.current.isSome = true ∨
    ¬ SwitchMarked slot) :
    recoverSwitch slot =
      if slot.candidate.isSome ∧ slot.candidateComplete = false then
        [.removeDirAll .candidate]
      else [] := by
  rw [recoverSwitch, if_neg]
  · rfl
  · rintro ⟨hphase, hcurrent, hcomplete⟩
    rw [hcurrent] at hheld
    exact hheld.elim (fun hsome => absurd hsome (by decide))
      fun hidle => hidle ⟨hphase, hcomplete⟩

/-- A recovery switches to the candidate, or removes an incomplete one, or has
nothing to do. -/
theorem throughout_recover {Holds : Slot → Prop} (hslot : Holds slot)
    (hswitched : SwitchMarked slot → slot.current = none →
      Holds (FsStep.run (.rename .candidate .current) slot))
    (hremoved : (slot.current.isSome = true ∨ ¬ SwitchMarked slot) →
      ∀ tree, (∀ left, tree = some left → isComplete left = false) →
        Holds (slot.setTree .candidate tree)) :
    SurvivesCuts FsStep.run FsStep.Torn Holds (recoverSwitch slot) slot := by
  by_cases hswitch : SwitchMarked slot ∧ slot.current = none
  · rw [recoverSwitch_of_marked hswitch.1 hswitch.2]
    apply SurvivesCuts.atomic (not_torn_rename _ _ _) hslot
    exact hswitched hswitch.1 hswitch.2
  · have hheld : slot.current.isSome = true ∨ ¬ SwitchMarked slot := by
      by_cases hmarked : SwitchMarked slot
      · left
        rw [← ne_none_iff_isSome]
        exact fun hcurrent => hswitch ⟨hmarked, hcurrent⟩
      · exact Or.inr hmarked
    rw [recoverSwitch_of_held hheld]
    by_cases hremove : slot.candidate.isSome ∧ slot.candidateComplete = false
    · rw [if_pos hremove]
      refine ⟨hslot, ?_, ?_⟩
      · intro left htorn
        cases htorn with
        | removeDirAll _ _ hdir hleft =>
          apply hremoved hheld
          intro rest hrest
          obtain rfl := some.inj hrest
          have hincomplete := hremove.2
          rw [Slot.candidateComplete, show slot.candidate = some _ from hdir,
            any_some] at hincomplete
          exact isComplete_sublist hleft hincomplete
      · apply hremoved hheld
        intro left hnone
        cases hnone
    · rw [if_neg hremove]
      exact hslot

theorem whole_recover (hwhole : Whole initial slot) :
    SurvivesCuts FsStep.run FsStep.Torn (Whole initial) (recoverSwitch slot)
      slot := by
  apply throughout_recover hwhole
  · intro hmarked _
    exact hwhole.promote hmarked.2
  · intro _ tree htree
    exact hwhole.setCandidate htree

theorem held_recover (hheld : Held slot) :
    SurvivesCuts FsStep.run FsStep.Torn Held (recoverSwitch slot) slot := by
  apply throughout_recover hheld
  · intro hmarked _
    exact Or.inl (held_promoted hmarked.2)
  · rintro (hcurrent | hidle) tree _
    · exact Or.inl hcurrent
    · exact Or.inl (hheld.resolve_right hidle)

theorem Whole.reaches (hwhole : Whole initial initial)
    (hreach : Reaches initial slot) : Whole initial slot := by
  apply SurvivesCuts.reach ?_ hreach hwhole
  intro before steps hbefore hcall
  cases hcall with
  | commit hsteps => exact whole_commit hbefore hsteps
  | recover => exact whole_recover hbefore

theorem Held.reaches {middle : Slot} (hheld : Held middle)
    (hreach : Reaches middle slot) : Held slot := by
  apply SurvivesCuts.reach ?_ hreach hheld
  intro before steps hbefore hcall
  cases hcall with
  | commit hsteps => exact held_commit hbefore hsteps
  | recover => exact held_recover hbefore

/-- A recovery that ends leaves no switch half done. -/
theorem current_recovered (hheld : Held slot) :
    (recovered slot).current.isSome = true := by
  by_cases hcurrent : slot.current = none
  · have hmarked : SwitchMarked slot :=
      hheld.resolve_left (by rw [hcurrent]; exact Bool.false_ne_true)
    rw [recovered, recoverSwitch_of_marked hmarked hcurrent]
    exact held_promoted hmarked.2
  · rw [← Ne, ne_none_iff_isSome] at hcurrent
    rw [recovered, recoverSwitch_of_held (Or.inl hcurrent)]
    split
    · exact hcurrent
    · exact hcurrent

theorem candidate_recovered (slot : Slot) (tree : Tree)
    (htree : (recovered slot).candidate = some tree) :
    isComplete tree = true := by
  by_cases hswitch : SwitchMarked slot ∧ slot.current = none
  · rw [recovered, recoverSwitch_of_marked hswitch.1 hswitch.2] at htree
    cases htree
  · have hheld : slot.current.isSome = true ∨ ¬ SwitchMarked slot := by
      rw [not_and] at hswitch
      by_cases hmarked : SwitchMarked slot
      · exact Or.inl (ne_none_iff_isSome.mp (hswitch hmarked))
      · exact Or.inr hmarked
    rw [recovered, recoverSwitch_of_held hheld] at htree
    split at htree
    · cases htree
    · rename_i hkept
      have hcandidate : slot.candidate = some tree := htree
      rw [Slot.candidateComplete, hcandidate, any_some] at hkept
      simpa using hkept

theorem candidate_stays (hidle : ¬ SwitchMarked slot) (tree : Tree)
    (htree : slot.candidate = some tree) (hcomplete : isComplete tree = true) :
    (recovered slot).candidate = some tree := by
  have hkept : slot.candidateComplete = true := by
    rw [Slot.candidateComplete, htree, any_some]
    exact hcomplete
  rw [recovered, recoverSwitch_of_held (Or.inr hidle), if_neg]
  · exact htree
  · rw [hkept]
    rintro ⟨-, ⟨⟩⟩

/-- Whatever the calls before and wherever they were cut off, a recovery that
runs to its end leaves one of the two trees of the start as the current one,
whole; there is one if there was one at some point before, or if a switch to a
complete candidate had been marked by then.  No incomplete candidate is left,
and a complete one that no switch is marked for stays. -/
theorem tree_survives_crashes {initial middle slot : Slot}
    (hinitial : ∀ tree, initial.current = some tree → isComplete tree = true)
    (hfirst : Reaches initial middle) (hlast : Reaches middle slot) :
    (∀ tree, (recovered slot).current = some tree → isComplete tree = true ∧
      (initial.current = some tree ∨ initial.candidate = some tree)) ∧
    (middle.current.isSome = true ∨ SwitchMarked middle →
      (recovered slot).current.isSome = true) ∧
    (∀ tree, (recovered slot).candidate = some tree →
      isComplete tree = true) ∧
    (¬ SwitchMarked slot → ∀ tree, slot.candidate = some tree →
      isComplete tree = true → (recovered slot).candidate = some tree) := by
  have hstart : Whole initial initial :=
    ⟨fun tree htree => ⟨hinitial tree htree, Or.inl htree⟩,
      fun tree htree _ => htree⟩
  have hwhole := hstart.reaches (hfirst.trans hlast)
  refine ⟨(whole_recover hwhole).finished.current, ?_,
    candidate_recovered slot, candidate_stays⟩
  intro hmiddle
  exact current_recovered (Held.reaches hmiddle hlast)

namespace TwoTrees

def old : Tree := [("app", [111]), (".complete", [111, 107])]

def new : Tree := [("app", [110]), (".complete", [111, 107])]

/-- A slot in use with a candidate beside it. -/
def both : Slot := ⟨some old, some new, none, none⟩

/-- The commit of that candidate, cut off behind its first rename. -/
def half : Slot :=
  ⟨none, some new, some old, some (.obj [("phase", .str "renamingCurrent")])⟩

theorem reaches_half : Reaches both half := by
  apply Relation.ReflTransGen.single
  refine ⟨_, .commit rfl, .next (.next ?_)⟩
  exact .stop _ half

theorem half_switch_recovers :
    (recovered half).current = some new ∧
    ((∀ tree, (recovered half).current = some tree → isComplete tree = true ∧
      (both.current = some tree ∨ both.candidate = some tree)) ∧
    (half.current.isSome = true ∨ SwitchMarked half →
      (recovered half).current.isSome = true) ∧
    (∀ tree, (recovered half).candidate = some tree →
      isComplete tree = true) ∧
    (¬ SwitchMarked half → ∀ tree, half.candidate = some tree →
      isComplete tree = true → (recovered half).candidate = some tree)) := by
  refine ⟨rfl, tree_survives_crashes ?_ reaches_half .refl⟩
  intro tree htree
  obtain rfl := some.inj htree
  decide

/-- A complete candidate that nothing has switched to yet. -/
def uncommitted : Slot := ⟨none, some new, none, none⟩

/-- A recovery leaves such a candidate where it is. -/
theorem uncommitted_candidate_stays :
    Reaches uncommitted uncommitted ∧ uncommitted.candidateComplete = true ∧
      (recovered uncommitted).current = none ∧
      (recovered uncommitted).candidate = some new :=
  ⟨.refl, by decide, rfl, rfl⟩

end TwoTrees

end Vellum.Updates

/-
When two slots are taken for one build of the core (`updates/core_slots.rs`,
`same_core_tree`).  A slot lists its files with paths below its own directory;
the comparison sees the last component of each path only, so it tells two
slots apart by what they contain and not by where it stands.
-/
import Vellum.Updates.Manifest

namespace Vellum.Updates

open List Option

/-- The components of a path. -/
abbrev PathParts := List String

/-- `Path::file_name`: the last component, unless it leads upwards. -/
def fileName (path : PathParts) : Option String :=
  path.getLast?.filter (· ≠ "..")

structure CoreSlotFile where
  path : PathParts
  size : UInt64
  sha256 : String
deriving DecidableEq

structure CoreSlot where
  version : String
  digest : String
  protocol : String
  protocolCompat : String
  path : PathParts
  helpers : List PathParts
  files : List CoreSlotFile
  enhancedCommit : String
  featureProfile : String
  launchId : Option String

/-- What the comparison sees of a file. -/
abbrev FileKey := String × UInt64 × List Char

def CoreSlotFile.key (file : CoreSlotFile) : Option FileKey :=
  (fileName file.path).map fun name =>
    (name, file.size, digestDigits file.sha256)

/-- The keys of all files, unless one of them has no name. -/
def CoreSlot.fileKeys (slot : CoreSlot) : Option (List FileKey) :=
  slot.files.mapM CoreSlotFile.key

def CoreSlot.helperNames (slot : CoreSlot) : List (Option String) :=
  slot.helpers.map fileName

/-- Two lists of keys make one set. -/
def sameKeys (left right : List FileKey) : Bool :=
  left.all (right.contains ·) && right.all (left.contains ·)

def sameCoreTree (a b : CoreSlot) : Bool :=
  !a.files.isEmpty && a.files.length = b.files.length &&
    digestDigits a.digest = digestDigits b.digest &&
    fileName a.path = fileName b.path &&
    a.protocol = b.protocol && a.protocolCompat = b.protocolCompat &&
    a.enhancedCommit = b.enhancedCommit &&
    a.featureProfile = b.featureProfile && a.helperNames = b.helperNames &&
    a.fileKeys.any fun left => b.fileKeys.any fun right => sameKeys left right

/-- Two slots agree in all that is compared besides the files' keys. -/
structure Relabelled (a b : CoreSlot) : Prop where
  files : a.files ≠ []
  count : a.files.length = b.files.length
  digest : digestDigits a.digest = digestDigits b.digest
  executable : fileName a.path = fileName b.path
  protocol : a.protocol = b.protocol
  protocolCompat : a.protocolCompat = b.protocolCompat
  enhancedCommit : a.enhancedCommit = b.enhancedCommit
  featureProfile : a.featureProfile = b.featureProfile
  helpers : a.helperNames = b.helperNames

/-- A slot lists a file of this size and digest at a path relative to its
directory. -/
def ListsAt (dir : PathParts) (slot : CoreSlot) (rel : PathParts)
    (size : UInt64) (digest : List Char) : Prop :=
  ∃ file ∈ slot.files, file.path = dir ++ rel ∧ file.size = size ∧
    digestDigits file.sha256 = digest

/-- Every file of the slot lies below its directory. -/
def FilesBelow (dir : PathParts) (slot : CoreSlot) : Prop :=
  ∀ file ∈ slot.files, ∃ rel, file.path = dir ++ rel ∧ rel ≠ [] ∧ ".." ∉ rel

/-- The two slots list the same relative paths with the same sizes and
digests. -/
def SameTree (aDir : PathParts) (a : CoreSlot) (bDir : PathParts)
    (b : CoreSlot) : Prop :=
  ∀ rel size digest, ListsAt aDir a rel size digest ↔
    ListsAt bDir b rel size digest

/-- A file that both slots list under one name, with one size and digest, is
listed by the second slot where the first one lists it. -/
def InPlace (aDir : PathParts) (a : CoreSlot) (bDir : PathParts)
    (b : CoreSlot) : Prop :=
  ∀ rel other size digest, ListsAt aDir a rel size digest →
    ListsAt bDir b other size digest → other.getLast? = rel.getLast? →
    ListsAt bDir b rel size digest

/-- Some file of the first slot has no counterpart of its name, size and
digest in the second. -/
def Missing (aDir : PathParts) (a : CoreSlot) (bDir : PathParts)
    (b : CoreSlot) : Prop :=
  ∃ rel size digest, ListsAt aDir a rel size digest ∧
    ∀ other, ListsAt bDir b other size digest →
      other.getLast? ≠ rel.getLast?

theorem mem_mapM_iff {α β : Type} {f : α → Option β} {xs : List α}
    {ys : List β} (hys : xs.mapM f = some ys) (y : β) :
    y ∈ ys ↔ ∃ x ∈ xs, f x = some y := by
  induction xs generalizing ys with
  | nil =>
    simp only [mapM_nil] at hys
    cases hys
    simp
  | cons x rest ih =>
    rw [mapM_cons] at hys
    obtain ⟨head, hhead, hys⟩ := bind_eq_some_iff.mp hys
    obtain ⟨tail, htail, hys⟩ := bind_eq_some_iff.mp hys
    cases hys
    simp [ih htail, hhead, eq_comm]

theorem isSome_mapM {α β : Type} (f : α → Option β) (xs : List α) :
    (xs.mapM f).isSome = xs.all fun x => (f x).isSome := by
  induction xs with
  | nil => rfl
  | cons x rest ih =>
    rw [all_cons, ← ih, mapM_cons]
    cases f x with
    | none => rfl
    | some y => cases rest.mapM f <;> rfl

theorem fileName_append {dir rel : PathParts} (hrel : rel ≠ [])
    (hdown : ".." ∉ rel) : fileName (dir ++ rel) = rel.getLast? := by
  rw [fileName, getLast?_append_of_ne_nil dir hrel,
    getLast?_eq_getLast_of_ne_nil hrel]
  have hname : rel.getLast hrel ≠ ".." := by
    intro hup
    exact hdown (hup ▸ getLast_mem hrel)
  simp [hname]

section Below

variable {aDir bDir : PathParts} {a b : CoreSlot}

section

variable (ha : FilesBelow aDir a)
include ha

theorem FilesBelow.exists_keys : ∃ keys, a.fileKeys = some keys := by
  apply isSome_iff_exists.mp
  rw [CoreSlot.fileKeys, isSome_mapM, List.all_eq_true]
  intro file hfile
  obtain ⟨rel, hpath, hrel, hdown⟩ := ha file hfile
  rw [CoreSlotFile.key, hpath, fileName_append hrel hdown, isSome_map,
    getLast?_isSome]
  exact hrel

/-- The keys of a slot are the names, sizes and digests of the files it
lists. -/
theorem FilesBelow.mem_keys_iff {keys : List FileKey}
    (hkeys : a.fileKeys = some keys) (name : String) (size : UInt64)
    (digest : List Char) :
    (name, size, digest) ∈ keys ↔
      ∃ rel, ListsAt aDir a rel size digest ∧ rel.getLast? = some name := by
  rw [mem_mapM_iff hkeys]
  constructor
  · rintro ⟨file, hfile, hkey⟩
    obtain ⟨rel, hpath, hrel, hdown⟩ := ha file hfile
    rw [CoreSlotFile.key, hpath, fileName_append hrel hdown,
      map_eq_some_iff] at hkey
    obtain ⟨last, hlast, hsame⟩ := hkey
    cases hsame
    exact ⟨rel, ⟨file, hfile, hpath, rfl, rfl⟩, hlast⟩
  · rintro ⟨rel, ⟨file, hfile, hpath, rfl, rfl⟩, hlast⟩
    obtain ⟨own, hown, hrel, hdown⟩ := ha file hfile
    have hsame : own = rel := append_cancel_left (hown.symm.trans hpath)
    subst hsame
    refine ⟨file, hfile, ?_⟩
    rw [CoreSlotFile.key, hpath, fileName_append hrel hdown, hlast,
      map_some]

theorem FilesBelow.last_isSome {rel : PathParts} {size : UInt64}
    {digest : List Char} (hlists : ListsAt aDir a rel size digest) :
    ∃ name, rel.getLast? = some name := by
  obtain ⟨file, hfile, hpath, -, -⟩ := hlists
  obtain ⟨own, hown, hrel, -⟩ := ha file hfile
  have hsame : own = rel := append_cancel_left (hown.symm.trans hpath)
  exact ⟨_, getLast?_eq_getLast_of_ne_nil (hsame ▸ hrel)⟩

/-- Each key of one slot is a key of the other exactly when no file is
missing there. -/
theorem subset_keys_iff (hb : FilesBelow bDir b) {left right : List FileKey}
    (hleft : a.fileKeys = some left) (hright : b.fileKeys = some right) :
    (∀ key ∈ left, key ∈ right) ↔ ¬ Missing aDir a bDir b := by
  constructor
  · rintro hsubset ⟨rel, size, digest, hlists, hnone⟩
    obtain ⟨name, hname⟩ := ha.last_isSome hlists
    have hkey : (name, size, digest) ∈ right :=
      hsubset _ ((ha.mem_keys_iff hleft _ _ _).mpr ⟨rel, hlists, hname⟩)
    obtain ⟨other, hother, hlast⟩ := (hb.mem_keys_iff hright _ _ _).mp hkey
    exact hnone other hother (hlast.trans hname.symm)
  · rintro hpresent ⟨name, size, digest⟩ hkey
    obtain ⟨rel, hlists, hname⟩ := (ha.mem_keys_iff hleft _ _ _).mp hkey
    by_contra habsent
    refine hpresent ⟨rel, size, digest, hlists, ?_⟩
    intro other hother hlast
    exact habsent ((hb.mem_keys_iff hright _ _ _).mpr
      ⟨other, hother, hlast.trans hname⟩)

theorem sameCoreTree_iff (hb : FilesBelow bDir b) :
    sameCoreTree a b = true ↔ Relabelled a b ∧
      ¬ Missing aDir a bDir b ∧ ¬ Missing bDir b aDir a := by
  obtain ⟨left, hleft⟩ := ha.exists_keys
  obtain ⟨right, hright⟩ := hb.exists_keys
  rw [← subset_keys_iff ha hb hleft hright,
    ← subset_keys_iff hb ha hright hleft]
  constructor
  · intro htrue
    simp only [sameCoreTree, sameKeys, hleft, hright, Bool.and_eq_true,
      decide_eq_true_eq, any_some, List.all_eq_true,
      contains_iff_mem, Bool.not_eq_eq_eq_not, Bool.not_true,
      isEmpty_eq_false_iff] at htrue
    obtain ⟨⟨⟨⟨⟨⟨⟨⟨⟨hfiles, hcount⟩, hdigest⟩, hexecutable⟩, hprotocol⟩,
      hcompat⟩, hcommit⟩, hprofile⟩, hhelpers⟩, hkeys⟩ := htrue
    exact ⟨⟨hfiles, hcount, hdigest, hexecutable, hprotocol, hcompat, hcommit,
      hprofile, hhelpers⟩, hkeys⟩
  · rintro ⟨hsame, hforth, hback⟩
    simp only [sameCoreTree, sameKeys, hleft, hright, hsame.count,
      hsame.digest, hsame.executable, hsame.protocol, hsame.protocolCompat,
      hsame.enhancedCommit, hsame.featureProfile, hsame.helpers,
      any_some, decide_true, Bool.and_true, Bool.and_eq_true,
      List.all_eq_true, contains_iff_mem, Bool.not_eq_eq_eq_not,
      Bool.not_true, isEmpty_eq_false_iff]
    exact ⟨hsame.files, hforth, hback⟩

end

theorem sameTree_of_inPlace (hforth : InPlace aDir a bDir b)
    (hback : InPlace bDir b aDir a) (hpresent : ¬ Missing aDir a bDir b)
    (hpresent' : ¬ Missing bDir b aDir a) : SameTree aDir a bDir b := by
  intro rel size digest
  constructor
  · intro hlists
    by_contra habsent
    refine hpresent ⟨rel, size, digest, hlists, ?_⟩
    intro other hother hlast
    exact habsent (hforth rel other size digest hlists hother hlast)
  · intro hlists
    by_contra habsent
    refine hpresent' ⟨rel, size, digest, hlists, ?_⟩
    intro other hother hlast
    exact habsent (hback rel other size digest hlists hother hlast)

end Below

/-- Two slots that are taken for one build list the same tree exactly when
something tells them apart or no file stands in another directory. -/
theorem same_core_tree_sound_iff (aDir bDir : PathParts) (a b : CoreSlot)
    (ha : FilesBelow aDir a) (hb : FilesBelow bDir b) :
    (sameCoreTree a b = true → SameTree aDir a bDir b) ↔
      ¬ Relabelled a b ∨ Missing aDir a bDir b ∨ Missing bDir b aDir a ∨
        InPlace aDir a bDir b ∧ InPlace bDir b aDir a := by
  rw [sameCoreTree_iff ha hb]
  constructor
  · intro hsound
    by_cases hsame : Relabelled a b
    · by_cases hforth : Missing aDir a bDir b
      · exact Or.inr (Or.inl hforth)
      · by_cases hback : Missing bDir b aDir a
        · exact Or.inr (Or.inr (Or.inl hback))
        · have htree := hsound ⟨hsame, hforth, hback⟩
          refine Or.inr (Or.inr (Or.inr ⟨?_, ?_⟩))
          · intro rel other size digest hlists _ _
            exact (htree rel size digest).mp hlists
          · intro rel other size digest hlists _ _
            exact (htree rel size digest).mpr hlists
    · exact Or.inl hsame
  · rintro hcondition ⟨hsame, hpresent, hpresent'⟩
    rcases hcondition with hother | hmissing | hmissing | ⟨hforth, hback⟩
    · exact absurd hsame hother
    · exact absurd hmissing hpresent
    · exact absurd hmissing hpresent'
    · exact sameTree_of_inPlace hforth hback hpresent hpresent'

namespace SwappedFiles

def dir (version : String) : PathParts :=
  ["updates", "core", version, "current"]

/-- A core with two helpers of one name. -/
def slot (version : String) (first second : String) : CoreSlot where
  version := version
  digest := "sha256:c0"
  protocol := "p1"
  protocolCompat := "*"
  path := dir version ++ ["codex"]
  helpers := [dir version ++ ["linux", "run"], dir version ++ ["wsl", "run"]]
  files :=
    [⟨dir version ++ ["codex"], 9, "sha256:c0"⟩,
      ⟨dir version ++ ["linux", "run"], 5, first⟩,
      ⟨dir version ++ ["wsl", "run"], 5, second⟩]
  enhancedCommit := "e"
  featureProfile := "default"
  launchId := none

/-- The two helpers change places, and the slots are taken for one build. -/
theorem swapped_helpers_are_the_same_tree :
    sameCoreTree (slot "1.0.0" "aa" "bb") (slot "1.0.1" "bb" "aa") = true ∧
      ¬ SameTree (dir "1.0.0") (slot "1.0.0" "aa" "bb")
        (dir "1.0.1") (slot "1.0.1" "bb" "aa") := by
  refine ⟨by decide, ?_⟩
  intro hsame
  have hlists : ListsAt (dir "1.0.0") (slot "1.0.0" "aa" "bb")
      ["linux", "run"] 5 ['a', 'a'] :=
    ⟨⟨dir "1.0.0" ++ ["linux", "run"], 5, "aa"⟩, by decide, rfl, rfl,
      by decide⟩
  obtain ⟨file, hfile, hpath, -, hdigest⟩ := (hsame _ _ _).mp hlists
  have hnone : ∀ file ∈ (slot "1.0.1" "bb" "aa").files,
      file.path = dir "1.0.1" ++ ["linux", "run"] →
        digestDigits file.sha256 ≠ ['a', 'a'] := by decide
  exact hnone file hfile hpath hdigest

theorem filesBelow_slot (version first second : String) :
    FilesBelow (dir version) (slot version first second) := by
  intro file hfile
  simp only [slot, mem_cons, not_mem_nil, or_false] at hfile
  rcases hfile with rfl | rfl | rfl
  · exact ⟨["codex"], rfl, by decide, by decide⟩
  · exact ⟨["linux", "run"], rfl, by decide, by decide⟩
  · exact ⟨["wsl", "run"], rfl, by decide, by decide⟩

theorem listsAt_slot (version other first second : String) {rel : PathParts}
    {size : UInt64} {digest : List Char}
    (hlists : ListsAt (dir version) (slot version first second) rel size
      digest) :
    ListsAt (dir other) (slot other first second) rel size digest := by
  simpa [ListsAt, slot] using hlists

/-- A build under another version is recognised, and it is the same tree. -/
theorem relabelled_core_is_the_same_tree :
    SameTree (dir "1.0.0") (slot "1.0.0" "aa" "bb")
      (dir "1.0.1") (slot "1.0.1" "aa" "bb") := by
  have hsame : sameCoreTree (slot "1.0.0" "aa" "bb") (slot "1.0.1" "aa" "bb") =
      true := by decide
  refine (same_core_tree_sound_iff (dir "1.0.0") (dir "1.0.1") _ _
    (filesBelow_slot _ _ _) (filesBelow_slot _ _ _)).mpr ?_ hsame
  refine Or.inr (Or.inr (Or.inr ⟨?_, ?_⟩))
  · intro rel other size digest hlists _ _
    exact listsAt_slot "1.0.0" "1.0.1" "aa" "bb" hlists
  · intro rel other size digest hlists _ _
    exact listsAt_slot "1.0.1" "1.0.0" "aa" "bb" hlists

end SwappedFiles

end Vellum.Updates

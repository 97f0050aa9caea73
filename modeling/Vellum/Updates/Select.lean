/-
Which release an update check offers (`updates/select.rs`): the gates a
candidate has to pass, the walk over the candidates that keeps the highest
version, and what the outcome depends on.
-/
import Vellum.Updates.Manifest
import Vellum.Library.FirstMaximum

namespace Vellum.Updates

open List

inductive Channel where
  | stable
  | preview
deriving DecidableEq

structure ReleaseCandidate where
  manifest : UpdateManifest
  githubPrerelease : Bool
  publishedAt : Option String

structure Selection where
  version : String
  releaseTag : String
  sequence : UInt64
deriving DecidableEq

structure SelectContext where
  component : UpdateComponent
  channel : Channel
  currentVersion : String
  platform : String
  arch : String
  installedDesktop : String
  bridgeApi : String
  remoteProtocol : String

def ReleaseCandidate.selection (candidate : ReleaseCandidate) : Selection where
  version := candidate.manifest.version
  releaseTag := candidate.manifest.releaseTag
  sequence := candidate.manifest.sequence

variable {V : Type} [LinearOrder V] (parseSemver : String → Option V)

/-- The installed Desktop is older than a release asks for, or one of the two
versions cannot be read. -/
def belowMinimum (installedDesktop minDesktopVersion : String) : Bool :=
  match parseVersion parseSemver installedDesktop,
    parseVersion parseSemver minDesktopVersion with
  | some installed, some minimum => installed < minimum
  | _, _ => true

def installable (ctx : SelectContext) (manifest : UpdateManifest) : Bool :=
  if ctx.component = .remote then hasRemotePackage manifest
  else
    (selectAsset manifest ctx.component ⟨ctx.platform, ctx.arch⟩).isSome

/-- The body of the loop over the candidates: the best release so far, with the
version it is compared by. -/
def consider (ctx : SelectContext) (best : Option (V × Selection))
    (candidate : ReleaseCandidate) : Option (V × Selection) :=
  let current := parseVersion parseSemver ctx.currentVersion
  let manifest := candidate.manifest
  if manifest.component ≠ ctx.component then best
  else if ctx.channel = .stable ∧
      (candidate.githubPrerelease ∨ manifest.prerelease) then best
  else if manifest.minDesktopVersion ≠ "" ∧
      belowMinimum parseSemver ctx.installedDesktop
        manifest.minDesktopVersion then best
  else if ¬ rangeMatches parseSemver manifest.bridgeApiCompat ctx.bridgeApi
    then best
  else if ¬ rangeMatches parseSemver manifest.remoteProtocolCompat
      ctx.remoteProtocol then best
  else if manifest.dataFormat.irreversibleMigration then best
  else if ¬ installable ctx manifest then best
  else
    match parseVersion parseSemver manifest.version with
    | none => best
    | some version =>
      -- A current version that cannot be read bounds nothing.
      if current.any fun current => version ≤ current then best
      else
        match best with
        | none => some (version, candidate.selection)
        | some (bestVersion, _) =>
          if version > bestVersion then
            some (version, candidate.selection)
          else best

def selectCompatible (candidates : List ReleaseCandidate)
    (ctx : SelectContext) : Option Selection :=
  (candidates.foldl (consider parseSemver ctx) none).map Prod.snd

/-- The gates a candidate passes whatever version it has. -/
structure Compatible (ctx : SelectContext) (candidate : ReleaseCandidate) :
    Prop where
  component : candidate.manifest.component = ctx.component
  channel : ctx.channel = .stable →
    candidate.githubPrerelease = false ∧ candidate.manifest.prerelease = false
  desktop : candidate.manifest.minDesktopVersion ≠ "" →
    belowMinimum parseSemver ctx.installedDesktop
      candidate.manifest.minDesktopVersion = false
  bridgeApi : rangeMatches parseSemver candidate.manifest.bridgeApiCompat
    ctx.bridgeApi
  remoteProtocol : rangeMatches parseSemver
    candidate.manifest.remoteProtocolCompat ctx.remoteProtocol
  reversible : candidate.manifest.dataFormat.irreversibleMigration = false
  installable : Updates.installable ctx candidate.manifest

/-- A candidate that passes every gate, with the version it is compared by. -/
def Passes (ctx : SelectContext) (candidate : ReleaseCandidate)
    (version : V) : Prop :=
  Compatible parseSemver ctx candidate ∧
    parseVersion parseSemver candidate.manifest.version = some version

/-- The version is above the installed one, where that one can be read. -/
def Newer (ctx : SelectContext) (version : V) : Prop :=
  ∀ installed, parseVersion parseSemver ctx.currentVersion = some installed →
    installed < version

variable {parseSemver} {ctx : SelectContext} {candidate : ReleaseCandidate}

/-- What a candidate offers by itself: its version, if it passes every gate and
is newer. -/
theorem consider_none_eq_some_iff {offer : V × Selection} :
    consider parseSemver ctx none candidate = some offer ↔
      Passes parseSemver ctx candidate offer.1 ∧
        Newer parseSemver ctx offer.1 ∧ offer.2 = candidate.selection := by
  constructor
  · intro hoffer
    simp only [consider] at hoffer
    split_ifs at hoffer with hcomponent hchannel hdesktop hbridge hremote
      hreversible hinstall
    split at hoffer
    · cases hoffer
    · rename_i version hversion
      split_ifs at hoffer with hcurrent
      cases hoffer
      refine ⟨⟨⟨?_, ?_, ?_, ?_, ?_, ?_, ?_⟩, hversion⟩, ?_, rfl⟩
      · exact not_not.mp hcomponent
      · intro hstable
        simpa [hstable] using hchannel
      · intro hminimum
        simpa [hminimum] using hdesktop
      · exact hbridge
      · exact hremote
      · exact Bool.eq_false_iff.mpr hreversible
      · exact hinstall
      · intro installed hinstalled
        simpa [hinstalled] using hcurrent
  · obtain ⟨version, picked⟩ := offer
    rintro ⟨⟨hgates, hversion⟩, hnewer, hpicked⟩
    have hcurrent : ¬ (parseVersion parseSemver ctx.currentVersion).any
        fun current => version ≤ current := by
      cases hinstalled : parseVersion parseSemver ctx.currentVersion with
      | none => simp
      | some installed => simpa using hnewer installed hinstalled
    have hchannel : ¬ (ctx.channel = .stable ∧
        (candidate.githubPrerelease ∨ candidate.manifest.prerelease)) := by
      rintro ⟨hstable, hprerelease⟩
      simp [hgates.channel hstable] at hprerelease
    have hdesktop : ¬ (candidate.manifest.minDesktopVersion ≠ "" ∧
        belowMinimum parseSemver ctx.installedDesktop
          candidate.manifest.minDesktopVersion) := by
      rintro ⟨hminimum, hbelow⟩
      simp [hgates.desktop hminimum] at hbelow
    simp only [consider, hgates.component, hchannel, hdesktop,
      hgates.bridgeApi, hgates.remoteProtocol, hgates.reversible,
      hgates.installable, hversion, hcurrent, ne_eq, not_true_eq_false,
      Bool.false_eq_true, if_false]
    exact congrArg (fun found => some (version, found)) hpicked.symm

/-- A candidate replaces the best release so far exactly when its own offer has
a greater version. -/
theorem consider_eq (best : Option (V × Selection)) :
    consider parseSemver ctx best candidate =
      match consider parseSemver ctx none candidate with
      | none => best
      | some offer =>
        List.argAux (fun left right => right.1 < left.1) best offer := by
  simp only [consider]
  split_ifs <;> try rfl
  split
  · rfl
  · split_ifs
    · rfl
    · cases best <;> rfl

theorem foldl_consider (candidates : List ReleaseCandidate)
    (best : Option (V × Selection)) :
    candidates.foldl (consider parseSemver ctx) best =
      (candidates.filterMap (consider parseSemver ctx none)).foldl
        (List.argAux fun left right => right.1 < left.1) best := by
  induction candidates generalizing best with
  | nil => rfl
  | cons candidate rest ih =>
    rw [foldl_cons, ih, consider_eq]
    cases hoffer : consider parseSemver ctx none candidate with
    | none => rw [filterMap_cons_none hoffer]
    | some offer => rw [filterMap_cons_some hoffer, foldl_cons]

/-- The walk finds the first offer of the greatest version. -/
theorem selectCompatible_eq (candidates : List ReleaseCandidate) :
    selectCompatible parseSemver candidates ctx =
      ((candidates.filterMap (consider parseSemver ctx none)).argmax
        Prod.fst).map Prod.snd := by
  rw [selectCompatible, foldl_consider, List.argmax]

/-- A candidate that passes every gate, is newer than the installed version
and has the highest version of all that pass. -/
structure IsHighest (parseSemver : String → Option V) (ctx : SelectContext)
    (candidates : List ReleaseCandidate) (candidate : ReleaseCandidate)
    (version : V) : Prop where
  mem : candidate ∈ candidates
  passes : Passes parseSemver ctx candidate version
  newer : Newer parseSemver ctx version
  highest : ∀ other ∈ candidates, ∀ otherVersion,
    Passes parseSemver ctx other otherVersion → otherVersion ≤ version

/-- The outcome of a selection names a highest candidate; where it names none,
no candidate that passes is newer than the installed version. -/
structure SelectsHighest (parseSemver : String → Option V)
    (ctx : SelectContext) (candidates : List ReleaseCandidate)
    (outcome : Option Selection) : Prop where
  highest : ∀ picked, outcome = some picked →
    ∃ candidate version,
      IsHighest parseSemver ctx candidates candidate version ∧
        candidate.selection = picked
  nothing : outcome = none → ∀ other ∈ candidates, ∀ otherVersion,
    Passes parseSemver ctx other otherVersion →
      ¬ Newer parseSemver ctx otherVersion

variable {candidates : List ReleaseCandidate}

theorem Newer.mono {low high : V} (hlow : Newer parseSemver ctx low)
    (hle : low ≤ high) : Newer parseSemver ctx high :=
  fun installed hinstalled => (hlow installed hinstalled).trans_le hle

theorem mem_offers_iff {offer : V × Selection} :
    offer ∈ candidates.filterMap (consider parseSemver ctx none) ↔
      ∃ candidate ∈ candidates, Passes parseSemver ctx candidate offer.1 ∧
        Newer parseSemver ctx offer.1 ∧ offer.2 = candidate.selection := by
  simp only [mem_filterMap, consider_none_eq_some_iff]

theorem greatest_offer_iff {offer : V × Selection} :
    Greatest Prod.fst (candidates.filterMap (consider parseSemver ctx none))
        offer ↔
      ∃ candidate, IsHighest parseSemver ctx candidates candidate offer.1 ∧
        candidate.selection = offer.2 := by
  constructor
  · rintro ⟨hoffer, hgreatest⟩
    obtain ⟨candidate, hmem, hpasses, hnewer, hpicked⟩ :=
      mem_offers_iff.mp hoffer
    refine ⟨candidate, ⟨hmem, hpasses, hnewer, ?_⟩, hpicked.symm⟩
    intro other hother otherVersion hotherPasses
    by_contra hlower
    have hhigher : offer.1 ≤ otherVersion := (not_le.mp hlower).le
    have hotherOffer : (otherVersion, other.selection) ∈
        candidates.filterMap (consider parseSemver ctx none) :=
      mem_offers_iff.mpr
        ⟨other, hother, hotherPasses, hnewer.mono hhigher, rfl⟩
    exact hlower (hgreatest _ hotherOffer)
  · rintro ⟨candidate, hhighest, hpicked⟩
    constructor
    · exact mem_offers_iff.mpr ⟨candidate, hhighest.mem, hhighest.passes,
        hhighest.newer, hpicked.symm⟩
    · intro other hother
      obtain ⟨source, hsource, hsourcePasses, -, -⟩ :=
        mem_offers_iff.mp hother
      exact hhighest.highest source hsource other.1 hsourcePasses

theorem selectsHighest_selectCompatible :
    SelectsHighest parseSemver ctx candidates
      (selectCompatible parseSemver candidates ctx) := by
  rw [selectCompatible_eq]
  constructor
  · intro picked hpicked
    obtain ⟨offer, hmax, rfl⟩ := Option.map_eq_some_iff.mp hpicked
    obtain ⟨candidate, hhighest, hselection⟩ :=
      greatest_offer_iff.mp (greatest_of_argmax hmax)
    exact ⟨candidate, offer.1, hhighest, hselection⟩
  · intro hnone other hother otherVersion hpasses hnewer
    have hempty : candidates.filterMap (consider parseSemver ctx none) = [] :=
      argmax_eq_none.mp (Option.map_eq_none_iff.mp hnone)
    have hoffer : (otherVersion, other.selection) ∈
        candidates.filterMap (consider parseSemver ctx none) :=
      mem_offers_iff.mpr ⟨other, hother, hpasses, hnewer, rfl⟩
    rw [hempty] at hoffer
    cases hoffer

/-- The version that is selected does not depend on the order of the
candidates. -/
theorem selected_version_perm {permuted : List ReleaseCandidate}
    (hperm : candidates.Perm permuted) :
    (selectCompatible parseSemver permuted ctx).map
        (fun picked => parseVersion parseSemver picked.version) =
      (selectCompatible parseSemver candidates ctx).map
        fun picked => parseVersion parseSemver picked.version := by
  have hread : ∀ offer,
      Greatest Prod.fst (candidates.filterMap (consider parseSemver ctx none))
        offer →
      parseVersion parseSemver offer.2.version = some offer.1 := by
    intro offer hoffer
    obtain ⟨source, hhighest, hpicked⟩ := greatest_offer_iff.mp hoffer
    exact hpicked ▸ hhighest.passes.2
  have hsame := (argmax_filterMap_perm_iff Prod.fst
    (fun offer => parseVersion parseSemver offer.2.version)
    (consider parseSemver ctx none) candidates).mpr (by
      intro left right hleft hright
      rw [hread left hleft, hread right hright, hleft.value_eq hright])
  rw [selectCompatible_eq, selectCompatible_eq, Option.map_map, Option.map_map]
  exact hsame permuted hperm

/-- The whole selection does not depend on the order of the candidates exactly
when the highest ones agree in it. -/
theorem selection_perm_iff :
    (∀ permuted, candidates.Perm permuted →
        selectCompatible parseSemver permuted ctx =
          selectCompatible parseSemver candidates ctx) ↔
      ∀ left right version,
        IsHighest parseSemver ctx candidates left version →
        IsHighest parseSemver ctx candidates right version →
        left.selection = right.selection := by
  simp only [selectCompatible_eq]
  rw [argmax_filterMap_perm_iff]
  constructor
  · intro hagree left right version hleft hright
    exact hagree (version, left.selection) (version, right.selection)
      (greatest_offer_iff.mpr ⟨left, hleft, rfl⟩)
      (greatest_offer_iff.mpr ⟨right, hright, rfl⟩)
  · intro hagree left right hleft hright
    obtain ⟨source, hsource, hpicked⟩ := greatest_offer_iff.mp hleft
    obtain ⟨other, hother, hpicked'⟩ := greatest_offer_iff.mp hright
    rw [← hleft.value_eq hright] at hother
    rw [← hpicked, ← hpicked']
    exact hagree source other left.1 hsource hother

/-- A selection is the highest release that passes every gate and is newer than
an installed version that can be read; its version is the same for every order
of the candidates, and so is the whole of it exactly when the highest
candidates agree. -/
theorem selection_is_highest (parseSemver : String → Option V)
    (candidates : List ReleaseCandidate) (ctx : SelectContext) :
    SelectsHighest parseSemver ctx candidates
        (selectCompatible parseSemver candidates ctx) ∧
      (∀ permuted, candidates.Perm permuted →
        (selectCompatible parseSemver permuted ctx).map
            (fun picked => parseVersion parseSemver picked.version) =
          (selectCompatible parseSemver candidates ctx).map
            fun picked => parseVersion parseSemver picked.version) ∧
      ((∀ permuted, candidates.Perm permuted →
          selectCompatible parseSemver permuted ctx =
            selectCompatible parseSemver candidates ctx) ↔
        ∀ left right version,
          IsHighest parseSemver ctx candidates left version →
          IsHighest parseSemver ctx candidates right version →
          left.selection = right.selection) :=
  ⟨selectsHighest_selectCompatible,
    fun _ hperm => selected_version_perm hperm, selection_perm_iff⟩

namespace TwoTags

/-- Versions of three plain numbers; no other version occurs here. -/
def plainSemver (version : String) : Option (ℕ ×ₗ ℕ ×ₗ ℕ) :=
  let number (part : List Char) : Option ℕ :=
    if part ≠ [] ∧ part.all Char.isDigit then
      some (part.foldl (fun value c => 10 * value + (c.toNat - 48)) 0)
    else none
  match (version.toList.splitOnP (· = '.')).map number with
  | [some major, some minor, some patch] =>
    some (toLex (major, toLex (minor, patch)))
  | _ => none

def release (tag : String) (sequence : UInt64) : ReleaseCandidate where
  manifest :=
    { component := .remote, version := "1.0.0", releaseTag := tag
      sequence := sequence, prerelease := false, minDesktopVersion := ""
      bridgeApiCompat := "*", remoteProtocolCompat := "*"
      dataFormat := ⟨false⟩
      assets := [⟨"linux", "x64", "vellum-remote-linux-x64.tar.gz"⟩]
      core := none }
  githubPrerelease := false
  publishedAt := none

def context (current : String) : SelectContext where
  component := .remote
  channel := .stable
  currentVersion := current
  platform := "windows"
  arch := "x64"
  installedDesktop := "0.2.9"
  bridgeApi := "1.0.0"
  remoteProtocol := "3"

def picked (tag : String) (sequence : UInt64) : Selection where
  version := "1.0.0"
  releaseTag := tag
  sequence := sequence

def tagged : ReleaseCandidate := release "remote-v1.0.0" 1

def rebuilt : ReleaseCandidate := release "remote-v1.0.0-rebuilt" 2

/-- Of two releases of one version the first in the list is taken; and where
the installed version cannot be read, a release is taken although there is no
version that it is above. -/
theorem order_and_unread_version_decide :
    [tagged, rebuilt].Perm [rebuilt, tagged] ∧
      selectCompatible plainSemver [tagged, rebuilt] (context "0.2.9") =
        some (picked "remote-v1.0.0" 1) ∧
      selectCompatible plainSemver [rebuilt, tagged] (context "0.2.9") =
        some (picked "remote-v1.0.0-rebuilt" 2) ∧
      selectCompatible plainSemver [tagged] (context "bundled") =
        some (picked "remote-v1.0.0" 1) ∧
      parseVersion plainSemver "bundled" = none :=
  ⟨List.Perm.swap _ _ _, by decide +kernel, by decide +kernel,
    by decide +kernel, by decide +kernel⟩

end TwoTags

end Vellum.Updates

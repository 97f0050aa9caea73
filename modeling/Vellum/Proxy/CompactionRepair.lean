/-
The local repair of a history (`replay.rs`, `strip_client_local_compaction`).
Markers of the client's own compaction are left out, and the summary that
stands behind one.  A marker arms the loop for the next item, whatever that is:
a second marker disarms it again, and a compaction of another owner passes for
a summary.
-/
import Vellum.Library.Splits
import Vellum.Proxy.ChatProjection

namespace Vellum.Proxy

open List Option

inductive CompactionDisposition where
  | vellumJournal
  | provenClientLocal
  | providerOwnedOpaque
  | unknown
deriving DecidableEq

section

variable (crates : Crates) (item : Json)

def itemPlainText : String :=
  ((item.get "content").map (contentToPlainString crates)).getD ""

def opaqueContent : String :=
  ((item.get "encrypted_content").bind Json.asStr).getD ""

def hasVellumMarker (content : String) : Bool :=
  startsWith content legacyCanonicalMarkerPrefix ||
    startsWith content codexLocalV0150MarkerPrefix

def isVellumLocalCompaction : Bool :=
  hasVellumMarker (opaqueContent item) ||
    ((item.get "id").bind Json.asStr).any fun id =>
      startsWith id "cmp_vellum_" || startsWith id "cmp_local_"

def isProviderOwnedOpaqueCompaction : Bool :=
  opaqueContent item ≠ "" && !hasVellumMarker (opaqueContent item)

def isVerifiedSummaryText (text : String) : Bool :=
  let trimmed := Text.trim text.toList
  officialSummaryPrefix.toList.isPrefixOf trimmed ||
    chatCheckpointPreface.toList.isPrefixOf trimmed ||
    (Text.find ("This session is being continued from a previous " ++
      "conversation").toList trimmed).isSome

def embeddedCompactionSummary : Option String :=
  (((item.get "summary").map (contentToPlainString crates)).filter
      fun text => !isBlank text).or
    (((item.get "content").map (contentToPlainString crates)).filter
      fun text => !isBlank text && isVerifiedSummaryText text)

def isProvenClientLocalCompaction : Bool :=
  if itemType item = some "context_compaction" then true
  else if isVellumLocalCompaction item ||
      isProviderOwnedOpaqueCompaction item then false
  else (embeddedCompactionSummary crates item).isSome

def classifyCompactionItem : Option CompactionDisposition :=
  if itemType item = some "context_compaction" then some .provenClientLocal
  else if itemType item = some "compaction" then
    some (if isVellumLocalCompaction item then .vellumJournal
      else if isProviderOwnedOpaqueCompaction item then .providerOwnedOpaque
      else if isProvenClientLocalCompaction crates item then .provenClientLocal
      else .unknown)
  else none

def isClientLocalCompactionMarker : Bool :=
  classifyCompactionItem crates item = some .provenClientLocal

def isVerifiedSummaryReplacement : Bool :=
  if isToolCall item || isToolOutput item then false
  else
    isCanonicalCheckpointItem item || isSummaryItem item ||
      isVerifiedSummaryText (itemPlainText crates item)

/-- The loop variables of `strip_client_local_compaction`. -/
structure CompactionStrip where
  out : List Json := []
  repaired : Bool := false
  discardedSummary : Option String := none
  skipVerifiedReplacement : Bool := false

def CompactionStrip.visit (strip : CompactionStrip) (item : Json) :
    CompactionStrip :=
  if strip.skipVerifiedReplacement then
    let strip := { strip with skipVerifiedReplacement := false }
    if isVerifiedSummaryReplacement crates item then
      { strip with
        discardedSummary :=
          strip.discardedSummary.or (some (itemPlainText crates item))
        repaired := true }
    else { strip with out := strip.out ++ [item] }
  else if isClientLocalCompactionMarker crates item then
    { strip with
      repaired := true
      discardedSummary :=
        (embeddedCompactionSummary crates item).or strip.discardedSummary
      skipVerifiedReplacement := true }
  else { strip with out := strip.out ++ [item] }

def stripClientLocalCompaction (items : List Json) :
    List Json × Bool × Option String :=
  let strip := items.foldl (CompactionStrip.visit crates) {}
  (strip.out, strip.repaired, strip.discardedSummary)

/-! What should be left. -/

/-- A compaction that is not the client's own. -/
def isOthersCompaction : Bool :=
  (classifyCompactionItem crates item).any (· ≠ .provenClientLocal)

/-- A verified summary that is a message and no compaction. -/
def isSummaryMessageItem : Bool :=
  classifyCompactionItem crates item = none &&
    isVerifiedSummaryReplacement crates item

/-- The items without the markers and without the summary messages directly
behind one. -/
def keptItems (crates : Crates) (behindMarker : Bool) :
    List Json → List Json
  | [] => []
  | item :: rest =>
    if isClientLocalCompactionMarker crates item then
      keptItems crates true rest
    else if behindMarker && isSummaryMessageItem crates item then
      keptItems crates false rest
    else item :: keptItems crates false rest

/-- How many markers a front ends in. -/
def markerRun (front : List Json) : Nat :=
  (front.reverse.takeWhile (isClientLocalCompactionMarker crates)).length

end

/-- Behind an odd number of markers the loop is armed, and behind an even one
it is not. -/
structure RunEndsWell (crates : Crates) (run : Nat) (item : Json) :
    Prop where
  armed : run % 2 = 1 → isOthersCompaction crates item = false
  disarmed : run ≠ 0 → run % 2 = 0 → isSummaryMessageItem crates item = false

section Repair

variable {crates : Crates}

variable {item : Json} (items : List Json)

theorem isVerifiedSummaryReplacement_of_compaction
    (hcompaction : (classifyCompactionItem crates item).isSome = true) :
    isVerifiedSummaryReplacement crates item = true := by
  have htype : itemType item = some "context_compaction" ∨
      itemType item = some "compaction" := by
    rw [classifyCompactionItem] at hcompaction
    split at hcompaction
    · exact .inl ‹_›
    · split at hcompaction
      · exact .inr ‹_›
      · cases hcompaction
  have htool : (isToolCall item || isToolOutput item) = false := by
    rw [isToolCall, isToolOutput, ← itemType]
    rcases htype with htype | htype <;> rw [htype] <;> decide
  rw [isVerifiedSummaryReplacement, htool, if_neg Bool.false_ne_true,
    isCanonicalCheckpointItem]
  rcases htype with htype | htype <;> simp [htype]

theorem compaction_of_isClientLocalCompactionMarker
    (hmarker : isClientLocalCompactionMarker crates item = true) :
    classifyCompactionItem crates item = some .provenClientLocal :=
  of_decide_eq_true hmarker

theorem isOthersCompaction_of_marker
    (hmarker : isClientLocalCompactionMarker crates item = true) :
    isOthersCompaction crates item = false := by
  rw [isOthersCompaction, compaction_of_isClientLocalCompactionMarker hmarker]
  rfl

theorem isSummaryMessageItem_of_compaction
    (hcompaction : (classifyCompactionItem crates item).isSome = true) :
    isSummaryMessageItem crates item = false := by
  obtain ⟨disposition, hsome⟩ := isSome_iff_exists.mp hcompaction
  rw [isSummaryMessageItem, hsome]
  rfl

theorem isOthersCompaction_or_none
    (hmarker : ¬ isClientLocalCompactionMarker crates item = true) :
    isOthersCompaction crates item = true ∨
      classifyCompactionItem crates item = none := by
  rw [isClientLocalCompactionMarker, decide_eq_true_eq] at hmarker
  rw [isOthersCompaction]
  cases hclass : classifyCompactionItem crates item with
  | none => exact .inr rfl
  | some disposition =>
    left
    rw [hclass] at hmarker
    rw [any_some, decide_eq_true_eq]
    rintro rfl
    exact hmarker rfl

/-- What the loop keeps, armed for a replacement or not. -/
def loopItems (crates : Crates) (armed : Bool) : List Json → List Json
  | [] => []
  | item :: rest =>
    if armed then
      if isVerifiedSummaryReplacement crates item then
        loopItems crates false rest
      else item :: loopItems crates false rest
    else if isClientLocalCompactionMarker crates item then
      loopItems crates true rest
    else item :: loopItems crates false rest

theorem out_foldl (strip : CompactionStrip) :
    (items.foldl (CompactionStrip.visit crates) strip).out =
      strip.out ++ loopItems crates strip.skipVerifiedReplacement items := by
  induction items generalizing strip with
  | nil => rw [loopItems, append_nil, foldl_nil]
  | cons item rest ih =>
    rw [foldl_cons, ih, loopItems, CompactionStrip.visit]
    cases strip.skipVerifiedReplacement with
    | true =>
      cases isVerifiedSummaryReplacement crates item <;> simp
    | false =>
      cases isClientLocalCompactionMarker crates item <;> simp

theorem loopItems_sublist (armed : Bool) (items : List Json) :
    List.Sublist (loopItems crates armed items) items := by
  induction items generalizing armed with
  | nil => exact List.Sublist.refl []
  | cons item rest ih =>
    rw [loopItems]
    split
    · split
      · exact (ih false).cons item
      · exact (ih false).cons_cons item
    · split
      · exact (ih true).cons item
      · exact (ih false).cons_cons item

theorem loopItems_ne (armed : Bool) (item : Json) (rest : List Json) :
    loopItems crates armed rest ≠ item :: rest := by
  intro heq
  have hsublist : List.Sublist (loopItems crates armed rest) rest :=
    loopItems_sublist armed rest
  have hle := hsublist.length_le
  rw [heq, length_cons] at hle
  omega

/-- The repair is noted exactly if something is left out. -/
theorem repaired_foldl (strip : CompactionStrip) :
    (items.foldl (CompactionStrip.visit crates) strip).repaired = true ↔
      strip.repaired = true ∨
        loopItems crates strip.skipVerifiedReplacement items ≠ items := by
  induction items generalizing strip with
  | nil => simp [loopItems]
  | cons item rest ih =>
    rw [foldl_cons, ih, loopItems, CompactionStrip.visit]
    cases strip.skipVerifiedReplacement with
    | true =>
      cases isVerifiedSummaryReplacement crates item <;>
        simp [loopItems_ne]
    | false =>
      cases isClientLocalCompactionMarker crates item <;>
        simp [loopItems_ne]

theorem not_marker_of_mem_loopItems {armed : Bool} {items : List Json}
    (hmem : item ∈ loopItems crates armed items) :
    isClientLocalCompactionMarker crates item = false := by
  have hkept : ∀ other,
      isVerifiedSummaryReplacement crates other = false →
      isClientLocalCompactionMarker crates other = false := by
    intro other hother
    rw [Bool.eq_false_iff]
    intro hmarker
    have hclass := compaction_of_isClientLocalCompactionMarker hmarker
    rw [isVerifiedSummaryReplacement_of_compaction
      (by rw [hclass, isSome_some])] at hother
    cases hother
  induction items generalizing armed with
  | nil => exact absurd hmem not_mem_nil
  | cons other rest ih =>
    rw [loopItems] at hmem
    split at hmem
    · split at hmem
      · exact ih hmem
      · rename_i hverified
        rcases mem_cons.mp hmem with rfl | hrest
        · exact hkept item (Bool.eq_false_iff.mpr hverified)
        · exact ih hrest
    · split at hmem
      · exact ih hmem
      · rename_i hmarker
        rcases mem_cons.mp hmem with rfl | hrest
        · exact Bool.eq_false_iff.mpr hmarker
        · exact ih hrest

theorem filter_others_keptItems (behindMarker : Bool) (items : List Json) :
    (keptItems crates behindMarker items).filter (isOthersCompaction crates) =
      items.filter (isOthersCompaction crates) := by
  induction items generalizing behindMarker with
  | nil => rfl
  | cons item rest ih =>
    rw [keptItems]
    split
    · rename_i hmarker
      rw [ih, filter_cons_of_neg
        (by simp [isOthersCompaction_of_marker hmarker])]
    · split
      · rename_i hsummary
        have hnone : isOthersCompaction crates item = false := by
          rw [Bool.and_eq_true, isSummaryMessageItem, Bool.and_eq_true,
            decide_eq_true_eq] at hsummary
          rw [isOthersCompaction, hsummary.2.1]
          rfl
        rw [ih, filter_cons_of_neg (by simp [hnone])]
      · rw [filter_cons, filter_cons, ih]

/-- The loop keeps every summary message that should be kept. -/
theorem countP_summary_le {armed behindMarker : Bool}
    (hbehind : armed = true → behindMarker = true) (items : List Json) :
    (keptItems crates behindMarker items).countP (isSummaryMessageItem crates) ≤
      (loopItems crates armed items).countP (isSummaryMessageItem crates) := by
  induction items generalizing armed behindMarker with
  | nil => exact Nat.le_refl 0
  | cons item rest ih =>
    have hrest : (keptItems crates false rest).countP
          (isSummaryMessageItem crates) ≤
        (loopItems crates false rest).countP
          (isSummaryMessageItem crates) := ih id
    rw [keptItems, loopItems]
    by_cases hmarker : isClientLocalCompactionMarker crates item = true
    · rw [if_pos hmarker, if_pos hmarker]
      have hclass := compaction_of_isClientLocalCompactionMarker hmarker
      rw [if_pos (isVerifiedSummaryReplacement_of_compaction
        (by rw [hclass, isSome_some]))]
      split
      · exact ih (by simp)
      · exact ih fun _ => rfl
    · rw [if_neg hmarker, if_neg hmarker]
      by_cases hsummary : isSummaryMessageItem crates item = true
      · have hverified : isVerifiedSummaryReplacement crates item = true := by
          rw [isSummaryMessageItem, Bool.and_eq_true] at hsummary
          exact hsummary.2
        rw [if_pos hverified]
        cases armed with
        | true =>
          rw [hbehind rfl, hsummary, Bool.and_self, if_pos rfl]
          exact hrest
        | false =>
          rw [if_neg Bool.false_ne_true,
            countP_cons_of_pos hsummary]
          split
          · omega
          · rw [countP_cons_of_pos hsummary]
            omega
      · have hkept : (behindMarker && isSummaryMessageItem crates item) =
            false := by
          rw [Bool.eq_false_iff.mpr hsummary, Bool.and_false]
        rw [hkept, if_neg Bool.false_ne_true,
          countP_cons_of_neg hsummary]
        split
        · split
          · exact hrest
          · rw [countP_cons_of_neg hsummary]
            exact hrest
        · rw [countP_cons_of_neg hsummary]
          exact hrest

/-- Every run of markers ends well; `run` markers stand before the items. -/
def RunsEndWell (crates : Crates) (run : Nat) : List Json → Prop
  | [] => True
  | item :: rest =>
    if isClientLocalCompactionMarker crates item then
      RunsEndWell crates (run + 1) rest
    else RunEndsWell crates run item ∧ RunsEndWell crates 0 rest

/-- The loop leaves out a compaction of another owner, which is kept. -/
theorem loopItems_ne_of_others {rest : List Json}
    (hothers : isOthersCompaction crates item = true) :
    loopItems crates false rest ≠ item :: keptItems crates false rest := by
  intro heq
  have hsublist : List.Sublist (loopItems crates false rest) rest :=
    loopItems_sublist false rest
  have hle := hsublist.countP_le (p := isOthersCompaction crates)
  rw [heq, countP_cons_of_pos hothers, countP_eq_length_filter,
    filter_others_keptItems, ← countP_eq_length_filter] at hle
  omega

theorem loopItems_ne_of_summary {rest : List Json}
    (hsummary : isSummaryMessageItem crates item = true) :
    item :: loopItems crates false rest ≠ keptItems crates false rest := by
  intro heq
  have hle : (keptItems crates false rest).countP
        (isSummaryMessageItem crates) ≤
      (loopItems crates false rest).countP (isSummaryMessageItem crates) :=
    countP_summary_le id rest
  rw [← heq, countP_cons_of_pos hsummary] at hle
  omega

/-- The loop keeps the right items exactly if every run of markers ends
well. -/
theorem loopItems_eq_iff (run : Nat) (items : List Json) :
    loopItems crates (decide (run % 2 = 1)) items =
        keptItems crates (decide (run ≠ 0)) items ↔
      RunsEndWell crates run items := by
  induction items generalizing run with
  | nil => exact iff_of_true rfl trivial
  | cons item rest ih =>
    have hfresh : loopItems crates false rest = keptItems crates false rest ↔
        RunsEndWell crates 0 rest := ih 0
    rw [loopItems, keptItems, RunsEndWell]
    by_cases hmarker : isClientLocalCompactionMarker crates item = true
    · have hclass := compaction_of_isClientLocalCompactionMarker hmarker
      have hverified : isVerifiedSummaryReplacement crates item = true :=
        isVerifiedSummaryReplacement_of_compaction
          (by rw [hclass, isSome_some])
      have hbehind : decide (run + 1 ≠ 0) = true := by simp
      rw [if_pos hmarker, if_pos hmarker, if_pos hmarker, if_pos hverified,
        ← ih (run + 1), hbehind]
      by_cases hodd : run % 2 = 1
      · have heven : decide ((run + 1) % 2 = 1) = false := by
          rw [decide_eq_false_iff_not]
          omega
        rw [decide_eq_true hodd, if_pos rfl, heven]
      · have hnext : decide ((run + 1) % 2 = 1) = true := by
          rw [decide_eq_true_iff]
          omega
        rw [decide_eq_false hodd, if_neg Bool.false_ne_true, hnext]
    · rw [if_neg hmarker, if_neg hmarker, if_neg hmarker]
      by_cases hodd : run % 2 = 1
      · have hpos : decide (run ≠ 0) = true := by
          rw [decide_eq_true_iff]
          omega
        rw [decide_eq_true hodd, if_pos rfl, hpos, Bool.true_and]
        rcases isOthersCompaction_or_none hmarker with hothers | hnone
        · -- what is no summary message passes for a replacement
          have hsome :
              (classifyCompactionItem crates item).isSome = true := by
            rw [isOthersCompaction] at hothers
            obtain ⟨disposition, hclass, -⟩ :=
              (Option.any_eq_true _ _).mp hothers
            rw [hclass, isSome_some]
          rw [if_pos (isVerifiedSummaryReplacement_of_compaction hsome),
            isSummaryMessageItem_of_compaction hsome,
            if_neg Bool.false_ne_true]
          refine iff_of_false (loopItems_ne_of_others hothers) ?_
          rintro ⟨hends, -⟩
          rw [hends.armed hodd] at hothers
          cases hothers
        · have hends : RunEndsWell crates run item := by
            refine ⟨fun _ => ?_, fun _ heven => by omega⟩
            rw [isOthersCompaction, hnone]
            rfl
          have hsummary : isSummaryMessageItem crates item =
              isVerifiedSummaryReplacement crates item := by
            rw [isSummaryMessageItem, hnone]
            rfl
          rw [hsummary, and_iff_right hends, ← hfresh]
          split
          · rfl
          · exact cons_inj_right item
      · rw [decide_eq_false hodd, if_neg Bool.false_ne_true]
        by_cases hsummary :
            (decide (run ≠ 0) && isSummaryMessageItem crates item) = true
        · rw [if_pos hsummary]
          rw [Bool.and_eq_true, decide_eq_true_iff] at hsummary
          refine iff_of_false (loopItems_ne_of_summary hsummary.2) ?_
          rintro ⟨hends, -⟩
          rw [hends.disarmed hsummary.1 (by omega)] at hsummary
          exact absurd hsummary.2 Bool.false_ne_true
        · have hends : RunEndsWell crates run item := by
            refine ⟨fun h => absurd h hodd, fun hpos _ => ?_⟩
            rw [decide_eq_true hpos, Bool.true_and] at hsummary
            exact Bool.eq_false_iff.mpr hsummary
          rw [if_neg hsummary, and_iff_right hends, ← hfresh]
          exact cons_inj_right item

theorem markerRun_marker (front : List Json)
    (hmarker : isClientLocalCompactionMarker crates item = true) :
    markerRun crates (front ++ [item]) = markerRun crates front + 1 := by
  rw [markerRun, reverse_append, reverse_singleton,
    singleton_append, takeWhile_cons_of_pos hmarker]
  rfl

theorem markerRun_other (front : List Json)
    (hmarker : ¬ isClientLocalCompactionMarker crates item = true) :
    markerRun crates (front ++ [item]) = 0 := by
  rw [markerRun, reverse_append, reverse_singleton,
    singleton_append, takeWhile_cons_of_neg hmarker]
  rfl

theorem runsEndWell_iff (done items : List Json) :
    RunsEndWell crates (markerRun crates done) items ↔
      ∀ front item back, items = front ++ item :: back →
        isClientLocalCompactionMarker crates item = false →
        RunEndsWell crates (markerRun crates (done ++ front)) item := by
  induction items generalizing done with
  | nil => exact iff_of_true trivial Splits.forall_nil
  | cons item rest ih =>
    have hrest := ih (done ++ [item])
    simp only [append_assoc, singleton_append] at hrest
    rw [RunsEndWell, Splits.forall_cons, ← hrest, append_nil]
    by_cases hmarker : isClientLocalCompactionMarker crates item = true
    · rw [if_pos hmarker, markerRun_marker done hmarker]
      refine (and_iff_right ?_).symm
      intro hnot
      rw [hmarker] at hnot
      cases hnot
    · rw [if_neg hmarker, markerRun_other done hmarker]
      exact and_congr_left fun _ =>
        (imp_iff_right (Bool.eq_false_iff.mpr hmarker)).symm

end Repair

/-- The repair leaves out the markers and the summary messages directly behind
one, and says whether it left out anything. -/
structure RepairsLocally (crates : Crates) (items : List Json) : Prop where
  kept : (stripClientLocalCompaction crates items).1 =
    keptItems crates false items
  others : (stripClientLocalCompaction crates items).1.filter
      (isOthersCompaction crates) =
    items.filter (isOthersCompaction crates)
  clean : ∀ item ∈ (stripClientLocalCompaction crates items).1,
    classifyCompactionItem crates item ≠ some .provenClientLocal
  noted : (stripClientLocalCompaction crates items).2.1 = true ↔
    (stripClientLocalCompaction crates items).1 ≠ items

/-- A history is repaired as it should be exactly if none of its runs of
markers ends badly. -/
theorem stripClientLocalCompaction_iff (crates : Crates) (items : List Json) :
    RepairsLocally crates items ↔
      ∀ front item back, items = front ++ item :: back →
        isClientLocalCompactionMarker crates item = false →
        RunEndsWell crates (markerRun crates front) item := by
  have hout : (stripClientLocalCompaction crates items).1 =
      loopItems crates false items := by
    rw [stripClientLocalCompaction, out_foldl]
    rfl
  have hnoted : (stripClientLocalCompaction crates items).2.1 = true ↔
      loopItems crates false items ≠ items := by
    rw [stripClientLocalCompaction, repaired_foldl]
    exact or_iff_right Bool.false_ne_true
  have hruns : loopItems crates false items = keptItems crates false items ↔
      ∀ front item back, items = front ++ item :: back →
        isClientLocalCompactionMarker crates item = false →
        RunEndsWell crates (markerRun crates front) item :=
    (loopItems_eq_iff 0 items).trans (runsEndWell_iff [] items)
  refine Iff.trans ⟨?_, ?_⟩ hruns
  · intro hrepairs
    exact hout.symm.trans hrepairs.kept
  · intro hkept
    have hwhole : loopItems crates false items = keptItems crates false items :=
      hkept
    constructor
    · rw [hout, hwhole]
    · rw [hout, hwhole, filter_others_keptItems]
    · rw [hout]
      intro item hmem hclass
      have hnot := not_marker_of_mem_loopItems hmem
      rw [isClientLocalCompactionMarker, hclass] at hnot
      cases hnot
    · rw [hout]
      exact hnoted

namespace MarkerRuns

/-- The texts of the items are strings, so no value is written. -/
def crates : Crates where
  fromStr _ := none
  toStr _ := "null"
  sha256 _ := []

def marker : Json := .obj [("type", .str "context_compaction")]

/-- A compaction that belongs to the provider. -/
def foreign : Json :=
  .obj [("type", .str "compaction"), ("encrypted_content", .str "gAAAA")]

/-- Behind a marker the compaction of the provider is left out. -/
theorem foreign_behind_marker_is_lost :
    ¬ ∀ (crates : Crates) (items : List Json),
      RepairsLocally crates items := by
  intro hall
  have hothers := (hall crates [marker, foreign]).others
  exact absurd hothers (by decide)

end MarkerRuns

end Vellum.Proxy

/-
When the usages of provider requests are bound to the requests they belong to.
A usage that names no request takes the first boundary that is free when its
turn comes; the request that begins there may name itself in a later usage.
-/
import Vellum.Proxy.UsagePass
import Vellum.Library.Splits

namespace Vellum.Proxy

open List

variable {boundaries : List RequestBoundary}
  {usages : List CompletedRequestUsage} {usage : CompletedRequestUsage}
  {boundary : RequestBoundary}

instance : Decidable (Matches usage boundary) :=
  inferInstanceAs (Decidable (_ ∧ _))

/-- Two usages are not both at a boundary. -/
def Apart (boundaries : List RequestBoundary)
    (left right : CompletedRequestUsage) : Prop :=
  ∀ boundary ∈ boundaries, left.sourceIndex = some boundary.firstSourceIndex →
    right.sourceIndex ≠ some boundary.firstSourceIndex

/-- Every usage that names a boundary's response is at that boundary, and where
there are no more usages than boundaries no two usages share one. -/
structure BoundByResponse (usages : List CompletedRequestUsage)
    (boundaries : List RequestBoundary) : Prop where
  exact : List.Forall₂
    (fun usage out => ∀ boundary ∈ boundaries, Matches usage boundary →
      out.sourceIndex = some boundary.firstSourceIndex)
    usages (attachUsageToRequestBoundaries usages boundaries)
  apart : usages.length ≤ boundaries.length →
    (attachUsageToRequestBoundaries usages boundaries).Pairwise
      (Apart boundaries)

/-- The usage is meant for the boundary: it has its place already, or it has
none and names its response. -/
def Claims (usage : CompletedRequestUsage) (boundary : RequestBoundary) :
    Prop :=
  usage.sourceIndex = some boundary.firstSourceIndex ∨
    usage.sourceIndex = none ∧ Matches usage boundary

instance : Decidable (Claims usage boundary) :=
  inferInstanceAs (Decidable (_ ∨ _))

/-- A usage without a place that names none of the boundaries' responses. -/
def Unnamed (boundaries : List RequestBoundary)
    (usage : CompletedRequestUsage) : Prop :=
  usage.sourceIndex = none ∧ ∀ boundary ∈ boundaries, ¬ Matches usage boundary

instance : DecidablePred (Unnamed boundaries) :=
  fun _ => inferInstanceAs (Decidable (_ ∧ _))

/-- A boundary that no usage is meant for. -/
def Unclaimed (usages : List CompletedRequestUsage)
    (boundary : RequestBoundary) : Prop :=
  ∀ usage ∈ usages, ¬ Claims usage boundary

instance : DecidablePred (Unclaimed usages) :=
  fun _ => inferInstanceAs (Decidable (∀ _ ∈ _, _))

/-- The unnamed usages find, one behind the other, boundaries among these that
no usage before them claims. -/
def Placed (boundaries : List RequestBoundary)
    (usages : List CompletedRequestUsage) (places : List RequestBoundary) :
    Prop :=
  SublistForall₂ Unclaimed
    (Splits.beforeEach (fun usage => Unnamed boundaries usage) [] usages) places

/-- No usage claims the boundary, and the unnamed ones are placed in front of
it. -/
structure LeftFree (boundaries : List RequestBoundary)
    (usages : List CompletedRequestUsage) (front : List RequestBoundary)
    (boundary : RequestBoundary) : Prop where
  unclaimed : Unclaimed usages boundary
  placed : Placed boundaries usages front

/-- There is no place for one more unnamed usage. -/
def Exhausted (boundaries : List RequestBoundary)
    (usages : List CompletedRequestUsage) : Prop :=
  ¬ SublistForall₂ Unclaimed
    (Splits.beforeEach (fun usage => Unnamed boundaries usage) [] usages ++
      [usages]) boundaries

/-- The boundary that a usage without a place names is left free by the usages
before it, or it is the last one and all are taken. -/
def FreeAtTurn (boundaries : List RequestBoundary)
    (pre : List CompletedRequestUsage) (usage : CompletedRequestUsage) : Prop :=
  usage.sourceIndex = none → ∀ front boundary back,
    boundaries = front ++ boundary :: back → Matches usage boundary →
      LeftFree boundaries pre front boundary ∨
        back = [] ∧ Exhausted boundaries pre

/-- When the usages are bound by their responses: a usage that has a place and
names a boundary's response has its place there, and what a usage claims is
left free by the usages before it.  Where there are more usages than
boundaries, only the usages without a place need to find theirs free. -/
structure PlacedInOrder (usages : List CompletedRequestUsage)
    (boundaries : List RequestBoundary) : Prop where
  placed : ∀ usage ∈ usages, usage.sourceIndex.isSome →
    ∀ boundary ∈ boundaries, Matches usage boundary →
      usage.sourceIndex = some boundary.firstSourceIndex
  few : usages.length ≤ boundaries.length → ∀ pre usage post,
    usages = pre ++ usage :: post → ∀ front boundary back,
      boundaries = front ++ boundary :: back → Claims usage boundary →
        LeftFree boundaries pre front boundary
  many : boundaries.length < usages.length → ∀ pre usage post,
    usages = pre ++ usage :: post → FreeAtTurn boundaries pre usage

/-- In the pass: when the turn of a usage comes that names a boundary, none of
the usages before it has come to that boundary; or it is the last one and all
are held. -/
def StillFree (boundaries : List RequestBoundary)
    (pre : List CompletedRequestUsage) (usage : CompletedRequestUsage) : Prop :=
  usage.sourceIndex = none → ∀ boundary ∈ boundaries, Matches usage boundary →
    ¬ Held (attachUsageToRequestBoundaries pre boundaries) boundary ∨
      boundaries.getLast? = some boundary ∧ ∀ other ∈ boundaries,
        Held (attachUsageToRequestBoundaries pre boundaries) other

theorem apart_concat_iff {done : List CompletedRequestUsage}
    {out : CompletedRequestUsage} :
    (done ++ [out]).Pairwise (Apart boundaries) ↔
      done.Pairwise (Apart boundaries) ∧ ∀ boundary ∈ boundaries,
        out.sourceIndex = some boundary.firstSourceIndex →
          ¬ Held done boundary := by
  rw [pairwise_append]
  constructor
  · rintro ⟨hdone, -, hout⟩
    refine ⟨hdone, ?_⟩
    rintro boundary hmem hsource ⟨other, hother, hheld⟩
    exact hout other hother out mem_cons_self boundary hmem hheld hsource
  · rintro ⟨hdone, hout⟩
    refine ⟨hdone, pairwise_singleton _ _, ?_⟩
    intro other hother last hlast boundary hmem hheld hsource
    rw [mem_singleton.mp hlast] at hsource
    exact hout boundary hmem hsource ⟨other, hother, hheld⟩

/-- A response is that of one boundary. -/
theorem matches_unique {other : RequestBoundary}
    (hids : (boundaries.filterMap RequestBoundary.responseId).Nodup)
    (hboundary : boundary ∈ boundaries) (hother : other ∈ boundaries)
    (hmatches : Matches usage boundary) (hmatches' : Matches usage other) :
    boundary = other := by
  obtain ⟨respId, hrespId⟩ := Option.isSome_iff_exists.mp hmatches.1
  have hleft := hmatches.2.trans hrespId
  have hright := hmatches'.2.trans hrespId
  obtain ⟨front, back, heq⟩ := append_of_mem hboundary
  obtain ⟨front', back', heq'⟩ := append_of_mem hother
  rcases Splits.compare (heq.symm.trans heq') with
    ⟨-, hsame⟩ | ⟨mid, rfl⟩ | ⟨mid, rfl⟩
  · exact hsame
  · rw [heq'] at hids
    simp only [append_assoc, cons_append, filterMap_append,
      filterMap_cons, hleft, hright] at hids
    exact absurd hids Splits.not_nodup_twice
  · rw [heq] at hids
    simp only [append_assoc, cons_append, filterMap_append,
      filterMap_cons, hleft, hright] at hids
    exact absurd hids Splits.not_nodup_twice

/-- Boundaries that begin at one item are one. -/
theorem first_unique {other : RequestBoundary}
    (hfirsts : (boundaries.map RequestBoundary.firstSourceIndex).Nodup)
    (hboundary : boundary ∈ boundaries) (hother : other ∈ boundaries)
    (hfirst : boundary.firstSourceIndex = other.firstSourceIndex) :
    boundary = other :=
  inj_on_of_nodup_map hfirsts hboundary hother hfirst

section Pass

variable (hfirsts : (boundaries.map RequestBoundary.firstSourceIndex).Nodup)
  (hids : (boundaries.filterMap RequestBoundary.responseId).Nodup)

include hfirsts hids

variable {pre : List CompletedRequestUsage} {out : CompletedRequestUsage}
  {post : List CompletedRequestUsage}

/-- A usage without a place comes to the boundary it names exactly when that is
free, or is the last one and all are held. -/
theorem Attached.named_iff {done : List CompletedRequestUsage}
    (hattached : Attached boundaries done usage out)
    (hsource : usage.sourceIndex = none) (hmem : boundary ∈ boundaries)
    (hmatches : Matches usage boundary) :
    out.sourceIndex = some boundary.firstSourceIndex ↔
      ¬ Held done boundary ∨
        boundaries.getLast? = some boundary ∧
          ∀ other ∈ boundaries, Held done other := by
  cases hattached with
  | anchored hanchor =>
    rw [hsource] at hanchor
    cases hanchor
  | named _ hmem' hmatches' hfree =>
    have hsame := matches_unique hids hmem hmem' hmatches hmatches'
    subst hsame
    exact ⟨fun _ => Or.inl hfree, fun _ => rfl⟩
  | next hnone hnamed hsplit hfront hfree =>
    rename_i front back taken
    have htaken : taken ∈ boundaries := by simp [hsplit]
    have hheld := hnamed boundary hmem hmatches
    constructor
    · intro hbound
      have hsame := first_unique hfirsts htaken hmem (Option.some.inj hbound)
      exact absurd hheld (hsame ▸ hfree)
    · rintro (hunheld | ⟨-, hall⟩)
      · exact absurd hheld hunheld
      · exact absurd (hall taken htaken) hfree
  | last hnone hall hlast =>
    rename_i last
    constructor
    · intro hbound
      have hsame := first_unique hfirsts (mem_of_getLast? hlast) hmem
        (Option.some.inj hbound)
      exact Or.inr ⟨hsame ▸ hlast, hall⟩
    · rintro (hunheld | ⟨hlast', -⟩)
      · exact absurd (hall boundary hmem) hunheld
      · rw [hlast] at hlast'
        cases hlast'
        rfl
  | unbound _ hnone =>
    rw [hnone] at hmem
    cases hmem

omit hfirsts hids in
theorem Attached.of_anchored {done : List CompletedRequestUsage} {index : Nat}
    (hattached : Attached boundaries done usage out)
    (hsource : usage.sourceIndex = some index) : out = usage := by
  cases hattached with
  | anchored _ => rfl
  | named hnone => rw [hsource] at hnone; cases hnone
  | next hnone => rw [hsource] at hnone; cases hnone
  | last hnone => rw [hsource] at hnone; cases hnone
  | unbound _ _ => rfl

/-- Every usage is at the boundary it names exactly when those that have a
place have it there and the others find it free. -/
theorem exact_iff (usages : List CompletedRequestUsage) :
    List.Forall₂
        (fun usage out => ∀ boundary ∈ boundaries, Matches usage boundary →
          out.sourceIndex = some boundary.firstSourceIndex)
        usages (attachUsageToRequestBoundaries usages boundaries) ↔
      (∀ usage ∈ usages, usage.sourceIndex.isSome →
        ∀ boundary ∈ boundaries, Matches usage boundary →
          usage.sourceIndex = some boundary.firstSourceIndex) ∧
        ∀ pre usage post, usages = pre ++ usage :: post →
          StillFree boundaries pre usage := by
  induction usages using reverseRecOn with
  | nil =>
    refine ⟨fun _ => ⟨by simp, Splits.forall_nil⟩, fun _ => ?_⟩
    exact List.Forall₂.nil
  | append_singleton usages usage ih =>
    obtain ⟨out, heq, hattached⟩ := attach_snoc hfirsts usages usage
    rw [heq, Splits.forall₂_concat_iff, ih, Splits.forall_concat]
    simp only [mem_append, mem_singleton, or_imp, forall_and,
      forall_eq]
    have hlast : (∀ boundary ∈ boundaries, Matches usage boundary →
          out.sourceIndex = some boundary.firstSourceIndex) ↔
        (usage.sourceIndex.isSome → ∀ boundary ∈ boundaries,
          Matches usage boundary →
            usage.sourceIndex = some boundary.firstSourceIndex) ∧
          StillFree boundaries usages usage := by
      cases hsource : usage.sourceIndex with
      | none =>
        simp only [StillFree, hsource, Option.isSome_none,
          Bool.false_eq_true, false_imp_iff, true_and, forall_const]
        constructor
        · intro hall boundary hmem hmatches
          exact (hattached.named_iff hfirsts hids hsource hmem
            hmatches).mp (hall boundary hmem hmatches)
        · intro hall boundary hmem hmatches
          exact (hattached.named_iff hfirsts hids hsource hmem
            hmatches).mpr (hall boundary hmem hmatches)
      | some index =>
        rw [hattached.of_anchored hsource]
        simp [StillFree, hsource]
    rw [hlast]
    tauto

omit hids in
/-- What the usages before have come to stays. -/
theorem attach_prefix (pre rest : List CompletedRequestUsage) :
    ∃ more, attachUsageToRequestBoundaries (pre ++ rest) boundaries =
      attachUsageToRequestBoundaries pre boundaries ++ more := by
  induction rest using reverseRecOn with
  | nil => exact ⟨[], by simp⟩
  | append_singleton rest usage ih =>
    obtain ⟨more, hmore⟩ := ih
    obtain ⟨out, heq, -⟩ := attach_snoc hfirsts (pre ++ rest) usage
    exact ⟨more ++ [out], by
      rw [← append_assoc, heq, hmore, append_assoc]⟩

omit hids in
/-- Fewer usages than boundaries leave one free. -/
theorem exists_free (hlt : pre.length < boundaries.length) :
    ∃ boundary ∈ boundaries,
      ¬ Held (attachUsageToRequestBoundaries pre boundaries) boundary := by
  by_contra hnone
  simp only [not_exists, not_and, not_not] at hnone
  have hsubset : boundaries.map RequestBoundary.firstSourceIndex ⊆
      (attachUsageToRequestBoundaries pre boundaries).filterMap
        CompletedRequestUsage.sourceIndex := by
    intro first hfirst
    obtain ⟨boundary, hmem, rfl⟩ := mem_map.mp hfirst
    obtain ⟨usage, husage, hsource⟩ := hnone boundary hmem
    exact mem_filterMap.mpr ⟨usage, husage, hsource⟩
  have hle := (hfirsts.subperm hsubset).length_le
  have hbound := length_filterMap_le CompletedRequestUsage.sourceIndex
    (attachUsageToRequestBoundaries pre boundaries)
  rw [length_map] at hle
  rw [attachUsageToRequestBoundaries, length_attachFrom] at hbound
  rw [attachUsageToRequestBoundaries] at hle
  omega

/-! What is held behind a pass in which every usage has come to the boundary it
claims. -/

omit hfirsts hids in
theorem leftFree_concat_of_not_unnamed {front : List RequestBoundary}
    (hnamed : ¬ Unnamed boundaries usage) :
    LeftFree boundaries (pre ++ [usage]) front boundary ↔
      LeftFree boundaries pre front boundary ∧ ¬ Claims usage boundary := by
  have hsame : Placed boundaries (pre ++ [usage]) front ↔
      Placed boundaries pre front := by
    rw [Placed, Splits.beforeEach_concat, if_neg (by simpa using hnamed),
      append_nil, Placed]
  have hunclaimed : Unclaimed (pre ++ [usage]) boundary ↔
      Unclaimed pre boundary ∧ ¬ Claims usage boundary := by
    simp [Unclaimed, or_imp, forall_and]
  constructor
  · rintro ⟨hnone, hplaced⟩
    exact ⟨⟨(hunclaimed.mp hnone).1, hsame.mp hplaced⟩,
      (hunclaimed.mp hnone).2⟩
  · rintro ⟨⟨hnone, hplaced⟩, hclaims⟩
    exact ⟨hunclaimed.mpr ⟨hnone, hclaims⟩, hsame.mpr hplaced⟩

omit hfirsts hids in
theorem leftFree_concat_of_unnamed {front : List RequestBoundary}
    (hmem : boundary ∈ boundaries) (hunnamed : Unnamed boundaries usage) :
    LeftFree boundaries (pre ++ [usage]) front boundary ↔
      Unclaimed pre boundary ∧ SublistForall₂ Unclaimed
        (Splits.beforeEach (fun other => Unnamed boundaries other) [] pre ++
          [pre]) front := by
  have hclaims : ¬ Claims usage boundary := by
    rintro (hplaced | ⟨-, hmatches⟩)
    · rw [hunnamed.1] at hplaced
      cases hplaced
    · exact hunnamed.2 boundary hmem hmatches
  have hunclaimed : Unclaimed (pre ++ [usage]) boundary ↔
      Unclaimed pre boundary := by
    simp [Unclaimed, or_imp, forall_and, hclaims]
  have hplaced : Placed boundaries (pre ++ [usage]) front ↔
      SublistForall₂ Unclaimed (Splits.beforeEach
        (fun other => Unnamed boundaries other) [] pre ++ [pre]) front := by
    rw [Placed, Splits.beforeEach_concat, if_pos (by simpa using hunnamed),
      nil_append]
  rw [← hplaced, ← hunclaimed]
  exact ⟨fun hfree => ⟨hfree.1, hfree.2⟩, fun hboth => ⟨hboth.1, hboth.2⟩⟩

/-- The boundaries that are held are those not left free. -/
def HeldUnlessFree (boundaries : List RequestBoundary)
    (pre : List CompletedRequestUsage) : Prop :=
  ∀ front boundary back, boundaries = front ++ boundary :: back →
    (Held (attachUsageToRequestBoundaries pre boundaries) boundary ↔
      ¬ LeftFree boundaries pre front boundary)

omit hfirsts hids in
/-- One more unnamed usage has a place exactly where not all are held. -/
theorem HeldUnlessFree.room_iff (hheld : HeldUnlessFree boundaries pre)
    {front back : List RequestBoundary} (hsplit : boundaries = front ++ back) :
    SublistForall₂ Unclaimed
        (Splits.beforeEach (fun other => Unnamed boundaries other) [] pre ++
          [pre]) front ↔
      ∃ other ∈ front,
        ¬ Held (attachUsageToRequestBoundaries pre boundaries) other := by
  rw [Splits.sublistForall₂_concat_iff]
  constructor
  · rintro ⟨before, other, between, rfl, hplaced, hunclaimed⟩
    refine ⟨other, by simp, ?_⟩
    rw [hheld before other (between ++ back) (by simp [hsplit]), not_not]
    exact ⟨hunclaimed, hplaced⟩
  · rintro ⟨other, hother, hfree⟩
    obtain ⟨before, between, rfl⟩ := append_of_mem hother
    rw [hheld before other (between ++ back) (by simp [hsplit]),
      not_not] at hfree
    exact ⟨before, other, between, rfl, hfree.placed, hfree.unclaimed⟩

/-- A usage that is not unnamed comes to what it claims. -/
theorem Attached.claims_iff
    (hattached : Attached boundaries
      (attachUsageToRequestBoundaries pre boundaries) usage out)
    (hstill : StillFree boundaries pre usage)
    (hnamed : ¬ Unnamed boundaries usage) (hmem : boundary ∈ boundaries) :
    out.sourceIndex = some boundary.firstSourceIndex ↔
      Claims usage boundary := by
  cases hsource : usage.sourceIndex with
  | some index =>
    rw [hattached.of_anchored hsource, Claims, hsource]
    simp
  | none =>
    have hbound : ∀ other ∈ boundaries, Matches usage other →
        out.sourceIndex = some other.firstSourceIndex := by
      intro other hother hmatches
      exact (hattached.named_iff hfirsts hids hsource hother hmatches).mpr
        (hstill hsource other hother hmatches)
    rw [Unnamed] at hnamed
    simp only [hsource, true_and, not_forall, not_not] at hnamed
    obtain ⟨named, hnamedMem, hmatches⟩ := hnamed
    constructor
    · intro hout
      rw [hbound named hnamedMem hmatches] at hout
      have hsame := first_unique hfirsts hnamedMem hmem
        (Option.some.inj hout)
      exact Or.inr ⟨hsource, hsame ▸ hmatches⟩
    · rintro (hplaced | ⟨-, hmatches'⟩)
      · rw [hsource] at hplaced
        cases hplaced
      · exact hbound boundary hmem hmatches'

theorem heldUnlessFree_snoc (hheld : HeldUnlessFree boundaries pre)
    (hstill : StillFree boundaries pre usage) :
    HeldUnlessFree boundaries (pre ++ [usage]) := by
  intro front boundary back hsplit
  have hmem : boundary ∈ boundaries := by simp [hsplit]
  have hbefore := hheld front boundary back hsplit
  obtain ⟨out, heq, hattached⟩ := attach_snoc hfirsts pre usage
  rw [heq, held_concat]
  by_cases hunnamed : Unnamed boundaries usage
  · rw [leftFree_concat_of_unnamed hmem hunnamed]
    cases hattached with
    | anchored hsource =>
      rw [hunnamed.1] at hsource
      cases hsource
    | named hsource hother hmatches _ =>
      exact absurd hmatches (hunnamed.2 _ hother)
    | next hsource hnamed hnext hfront hfree =>
      rename_i earlier later taken
      rcases Splits.compare (hnext.symm.trans hsplit) with
        ⟨rfl, rfl⟩ | ⟨mid, rfl⟩ | ⟨mid, rfl⟩
      · -- The usage has come to this boundary; all in front of it are held.
        rw [hheld.room_iff hsplit]
        refine iff_of_true (Or.inr rfl) ?_
        rintro ⟨-, other, hother, hroom⟩
        exact hroom (hfront other hother)
      · -- The usage has come to a boundary in front of this one.
        have hroom : ∃ other ∈ earlier ++ taken :: mid, ¬ Held
            (attachUsageToRequestBoundaries pre boundaries) other :=
          ⟨taken, by simp, hfree⟩
        have hplaced := (hheld.room_iff hsplit).mpr hroom
        obtain ⟨before, _, _, hcut, hless, -⟩ :=
          Splits.sublistForall₂_concat_iff.mp hplaced
        have hwithin : before <+ earlier ++ taken :: mid :=
          hcut ▸ sublist_append_left _ _
        have hless' := Splits.sublistForall₂_mono hless hwithin
        have hother : taken ≠ boundary := by
          rintro rfl
          have hnodup : boundaries.Nodup := List.Nodup.of_map _ hfirsts
          rw [hsplit, append_assoc, cons_append] at hnodup
          exact Splits.not_nodup_twice hnodup
        have hplace : (usage.bindTo taken).sourceIndex ≠
            some boundary.firstSourceIndex := fun hsame => hother
          (first_unique hfirsts (by simp [hnext]) hmem
            (Option.some.inj hsame))
        rw [or_iff_left hplace, hbefore, and_iff_left hplaced, not_iff_not]
        exact ⟨LeftFree.unclaimed, fun hunclaimed => ⟨hunclaimed, hless'⟩⟩
      · -- This boundary is in front of the first one that was free.
        rw [hheld.room_iff hsplit]
        refine iff_of_true (Or.inl (hfront boundary (by simp))) ?_
        rintro ⟨-, other, hother, hroom⟩
        exact hroom (hfront other (by simp [hother]))
    | last hsource hall hlast =>
      rw [hheld.room_iff hsplit]
      refine iff_of_true (Or.inl (hall boundary hmem)) ?_
      rintro ⟨-, other, hother, hroom⟩
      exact hroom (hall other (by simp [hsplit, hother]))
    | unbound hsource hnone =>
      rw [hnone] at hmem
      cases hmem
  · rw [leftFree_concat_of_not_unnamed hunnamed, hbefore,
      hattached.claims_iff hfirsts hids hstill hunnamed hmem, not_and_or,
      not_not]

theorem heldUnlessFree (pre : List CompletedRequestUsage)
    (hstill : ∀ before usage back, pre = before ++ usage :: back →
      StillFree boundaries before usage) : HeldUnlessFree boundaries pre := by
  induction pre using reverseRecOn with
  | nil =>
    intro front boundary back _
    refine iff_of_false ?_ ?_
    · rintro ⟨usage, hmem, -⟩
      cases hmem
    · exact not_not_intro ⟨fun _ hmem => absurd hmem not_mem_nil, .nil⟩
  | append_singleton pre usage ih =>
    obtain ⟨hpre, hlast⟩ := Splits.forall_concat.mp hstill
    exact heldUnlessFree_snoc hfirsts hids (ih hpre) hlast

omit hids in
/-- What the pass holds when a usage's turn comes, in terms of the usages
before it. -/
theorem HeldUnlessFree.stillFree_iff
    (hheld : HeldUnlessFree boundaries pre) :
    StillFree boundaries pre usage ↔ FreeAtTurn boundaries pre usage := by
  have hexhausted : Exhausted boundaries pre ↔ ∀ other ∈ boundaries,
      Held (attachUsageToRequestBoundaries pre boundaries) other := by
    rw [Exhausted, hheld.room_iff (append_nil boundaries).symm]
    simp
  rw [StillFree, FreeAtTurn, ← hexhausted]
  refine imp_congr_right fun _ => ?_
  constructor
  · intro hstill front boundary back hsplit hmatches
    have hfree := hheld front boundary back hsplit
    refine (hstill boundary (by simp [hsplit]) hmatches).imp ?_ ?_
    · exact fun hnot => not_not.mp (mt hfree.mpr hnot)
    · refine And.imp_left fun hlast => ?_
      rcases eq_nil_or_concat back with hback | ⟨more, last, rfl⟩
      · exact hback
      · rw [hsplit, concat_eq_append, ← cons_append, ← append_assoc,
          getLast?_concat] at hlast
        have hsame := Option.some.inj hlast
        have hnodup : boundaries.Nodup := List.Nodup.of_map _ hfirsts
        rw [hsplit, hsame, concat_eq_append] at hnodup
        exact absurd hnodup Splits.not_nodup_twice
  · intro hturn boundary hmem hmatches
    obtain ⟨front, back, hsplit⟩ := append_of_mem hmem
    have hfree := hheld front boundary back hsplit
    refine (hturn front boundary back hsplit hmatches).imp ?_ ?_
    · exact fun hleft hbound => hfree.mp hbound hleft
    · rintro ⟨rfl, hall⟩
      exact ⟨by simp [hsplit], hall⟩

theorem forall_stillFree_iff (usages : List CompletedRequestUsage) :
    (∀ pre usage post, usages = pre ++ usage :: post →
        StillFree boundaries pre usage) ↔
      ∀ pre usage post, usages = pre ++ usage :: post →
        FreeAtTurn boundaries pre usage := by
  induction usages using reverseRecOn with
  | nil => exact iff_of_true Splits.forall_nil Splits.forall_nil
  | append_singleton usages usage ih =>
    rw [Splits.forall_concat, Splits.forall_concat, ← ih]
    exact and_congr_right fun hstill =>
      (heldUnlessFree hfirsts hids usages hstill).stillFree_iff hfirsts

/-! When no two usages share a boundary. -/

section

variable
  (hstill : ∀ pre usage post, usages = pre ++ usage :: post →
      StillFree boundaries pre usage)
include hstill

theorem heldUnlessFree_prefix (hsplit : usages = pre ++ post) :
    HeldUnlessFree boundaries pre := by
  refine heldUnlessFree hfirsts hids pre ?_
  rintro before usage back rfl
  exact hstill before usage (back ++ post) (by simp [hsplit])

theorem leftFree_of_apart
    (hapart : (attachUsageToRequestBoundaries usages boundaries).Pairwise
      (Apart boundaries)) (hsplit : usages = pre ++ usage :: post)
    {front back : List RequestBoundary}
    (hboundaries : boundaries = front ++ boundary :: back)
    (hclaims : Claims usage boundary) :
    LeftFree boundaries pre front boundary := by
  have hmem : boundary ∈ boundaries := by simp [hboundaries]
  obtain ⟨out, heq, hattached⟩ := attach_snoc hfirsts pre usage
  have hnamed : ¬ Unnamed boundaries usage := by
    rintro ⟨hsource, hnone⟩
    rcases hclaims with hplaced | ⟨-, hmatches⟩
    · rw [hsource] at hplaced
      cases hplaced
    · exact hnone boundary hmem hmatches
  have hout := (hattached.claims_iff hfirsts hids
    (hstill pre usage post hsplit) hnamed hmem).mpr hclaims
  obtain ⟨more, hmore⟩ := attach_prefix hfirsts (pre ++ [usage]) post
  have husages : usages = pre ++ [usage] ++ post := by simp [hsplit]
  rw [husages, hmore, pairwise_append, heq, apart_concat_iff] at hapart
  have hfree := hapart.1.2 boundary hmem hout
  have hheld := heldUnlessFree_prefix hfirsts hids hstill hsplit
  rwa [hheld front boundary back hboundaries, not_not] at hfree

theorem apart_of_leftFree
    (hleft : ∀ pre usage post, usages = pre ++ usage :: post →
      ∀ front boundary back, boundaries = front ++ boundary :: back →
        Claims usage boundary → LeftFree boundaries pre front boundary)
    (hfew : usages.length ≤ boundaries.length)
    (pre : List CompletedRequestUsage) (hsplit : usages = pre ++ post) :
    (attachUsageToRequestBoundaries pre boundaries).Pairwise
      (Apart boundaries) := by
  induction pre using reverseRecOn generalizing post with
  | nil => exact List.Pairwise.nil
  | append_singleton pre usage ih =>
    have hsplit' : usages = pre ++ usage :: post := by
      rw [hsplit, append_assoc, singleton_append]
    obtain ⟨out, heq, hattached⟩ := attach_snoc hfirsts pre usage
    rw [heq, apart_concat_iff]
    refine ⟨ih hsplit', ?_⟩
    intro boundary hmem hbound
    cases hattached with
    | anchored hsource =>
      obtain ⟨front, back, hboundaries⟩ := append_of_mem hmem
      have hheld := heldUnlessFree_prefix hfirsts hids hstill hsplit'
      rw [hheld front boundary back hboundaries, not_not]
      exact hleft pre usage post hsplit' front boundary back hboundaries
        (Or.inl hbound)
    | named hsource hmem' hmatches hfree =>
      have hsame := first_unique hfirsts hmem' hmem
        (Option.some.inj hbound)
      exact hsame ▸ hfree
    | next hsource hnamed hboundaries hheld hfree =>
      have hsame := first_unique hfirsts (by simp [hboundaries]) hmem
        (Option.some.inj hbound)
      exact hsame ▸ hfree
    | last hsource hall hlast =>
      have hlt : pre.length < boundaries.length := by
        rw [hsplit', length_append, length_cons] at hfew
        omega
      obtain ⟨free, hfreeMem, hfree⟩ := exists_free hfirsts hlt
      exact absurd (hall free hfreeMem) hfree
    | unbound hsource hnone =>
      rw [hnone] at hmem
      cases hmem

end

end Pass

/-- The usages are bound by their responses exactly when they are in order. -/
theorem bound_by_response_iff (usages : List CompletedRequestUsage)
    (boundaries : List RequestBoundary)
    (hfirsts : (boundaries.map RequestBoundary.firstSourceIndex).Nodup)
    (hids : (boundaries.filterMap RequestBoundary.responseId).Nodup) :
    BoundByResponse usages boundaries ↔ PlacedInOrder usages boundaries := by
  have hturns := forall_stillFree_iff hfirsts hids usages
  constructor
  · rintro ⟨hexact, hapart⟩
    obtain ⟨hplaced, hstill⟩ := (exact_iff hfirsts hids usages).mp hexact
    refine ⟨hplaced, ?_, fun _ => hturns.mp hstill⟩
    intro hfew pre usage post hsplit front boundary back hboundaries hclaims
    exact leftFree_of_apart hfirsts hids hstill (hapart hfew) hsplit
      hboundaries hclaims
  · rintro ⟨hplaced, hfew, hmany⟩
    have hstill : ∀ pre usage post, usages = pre ++ usage :: post →
        StillFree boundaries pre usage := by
      rw [hturns]
      rcases Nat.lt_or_ge boundaries.length usages.length with hlt | hle
      · exact hmany hlt
      · intro pre usage post hsplit hsource front boundary back hboundaries
          hmatches
        exact Or.inl (hfew hle pre usage post hsplit front boundary back
          hboundaries (Or.inr ⟨hsource, hmatches⟩))
    refine ⟨(exact_iff hfirsts hids usages).mpr ⟨hplaced, hstill⟩, ?_⟩
    intro hle
    exact apart_of_leftFree hfirsts hids hstill (hfew hle) hle usages
      (append_nil usages).symm

namespace StolenBoundary

def turns : List RequestBoundary :=
  [⟨some "resp_1", 1, 2⟩, ⟨some "resp_2", 5, 5⟩]

/-- A usage of a request that left no boundary, then that of the first. -/
def reversed : List CompletedRequestUsage :=
  [⟨some "resp_0", none⟩, ⟨some "resp_1", none⟩]

/-- The first usage takes the boundary of the second. -/
theorem earlier_usage_takes_the_boundary :
    ¬ BoundByResponse reversed turns := by
  rintro ⟨hexact, -⟩
  have hout : attachUsageToRequestBoundaries reversed turns =
      [⟨some "resp_0", some 1⟩, ⟨some "resp_1", some 5⟩] := by decide
  rw [hout, reversed] at hexact
  cases hexact with
  | cons _ hrest =>
    cases hrest with
    | cons hsecond _ =>
      have hbound := hsecond ⟨some "resp_1", 1, 2⟩ (by decide) (by decide)
      cases hbound

/-- A usage that names no request, then that of the second. -/
def ordered : List CompletedRequestUsage :=
  [⟨none, none⟩, ⟨some "resp_2", none⟩]

/-- The first usage has its place in front of what the second one claims. -/
theorem ordered_usages_are_bound : BoundByResponse ordered turns := by
  apply (bound_by_response_iff ordered turns (by decide)
    (by decide)).mpr
  refine ⟨by decide, fun _ => ?_, fun hlt => absurd hlt (by decide)⟩
  refine Splits.forall_cons.mpr ⟨?_, Splits.forall_cons.mpr
    ⟨?_, Splits.forall_nil⟩⟩
  · refine Splits.forall_cons.mpr ⟨?_, Splits.forall_cons.mpr
      ⟨?_, Splits.forall_nil⟩⟩
    · exact fun hclaims => absurd hclaims (by decide)
    · exact fun hclaims => absurd hclaims (by decide)
  · refine Splits.forall_cons.mpr ⟨?_, Splits.forall_cons.mpr
      ⟨?_, Splits.forall_nil⟩⟩
    · exact fun hclaims => absurd hclaims (by decide)
    · exact fun _ => ⟨by decide, .cons (by decide) .nil⟩

end StolenBoundary

end Vellum.Proxy

/-
The size of the retained tail (`compaction.rs`).  The budget is spent on
estimates of single units, each rounded down to whole tokens, while the cap is
about the estimate of the tail as a whole.  What the estimates round off comes
back in the whole, so the cap holds as long as it fits into what the units
leave of the budget.
-/
import Vellum.Library.Budget
import Vellum.Proxy.RetainedTail

namespace Vellum.Proxy

open List Option

variable (floats : JsonText.FloatText) (units : List TailUnit)

def unitBytes (unit : TailUnit) : Nat :=
  totalCost (itemBytes floats) unit.items

/-- The bytes that the estimates of the units round off. -/
def roundedOff : Nat :=
  totalCost (fun unit => unitBytes floats unit % 4) units

/-- The whole tokens of the units. -/
def wholeTokens : Nat :=
  totalCost (fun unit => unitBytes floats unit / 4) units

/-- What a budget pays for, as the loop counts it. -/
def unitTokens : Nat :=
  totalCost (TailUnit.tokens floats) units

/-- The window of the recent user turns. -/
def recentWindow (items : List Json) (keepRecentTurns : Nat) :
    Option (List Json) :=
  (windowStart items keepRecentTurns).bind fun recent =>
    slice items
      ⟨Span.moveBack (toolExchangeSpans items) recent, items.length⟩

variable (floats : JsonText.FloatText) (units : List TailUnit)

theorem totalCost_flattenTailUnits :
    totalCost (itemBytes floats) (flattenTailUnits units) =
      totalCost (unitBytes floats) units := by
  induction units with
  | nil => rfl
  | cons unit rest ih =>
    rw [flattenTailUnits, flatMap_cons, totalCost_append,
      ← flattenTailUnits, ih, totalCost_cons]
    rfl

theorem wholeTokens_le_unitTokens :
    wholeTokens floats units ≤ unitTokens floats units :=
  totalCost_mono (fun _ => le_max_left _ _) units

/-- The estimate of units as a whole: what they round off must fit into what
their whole tokens leave. -/
theorem estimateTokens_flatten_le_iff {budget : Nat} (hbudget : 1 ≤ budget)
    {units : List TailUnit} (hunits : unitTokens floats units ≤ budget) :
    estimateTokens floats (flattenTailUnits units) ≤ budget ↔
      roundedOff floats units ≤
        4 * (budget - wholeTokens floats units) + 3 := by
  have hwhole := (wholeTokens_le_unitTokens floats units).trans hunits
  have hsplit : totalCost (unitBytes floats) units =
      4 * wholeTokens floats units + roundedOff floats units :=
    totalCost_eq_div_add_mod (unitBytes floats) 4 units
  have hestimate : estimateTokens floats (flattenTailUnits units) =
      max (totalCost (unitBytes floats) units / 4) 1 := by
    rw [← totalCost_flattenTailUnits]
    rfl
  rw [hestimate, hsplit, max_le_iff]
  omega

theorem flattenTailUnits_append (front back : List TailUnit) :
    flattenTailUnits (front ++ back) =
      flattenTailUnits front ++ flattenTailUnits back := flatMap_append

theorem estimateTokens_le_append (front back : List Json) :
    estimateTokens floats back ≤ estimateTokens floats (front ++ back) := by
  have hbytes : totalCost (itemBytes floats) back ≤
      totalCost (itemBytes floats) (front ++ back) := by
    rw [totalCost_append]
    exact Nat.le_add_left _ _
  exact max_le_max_right 1 (Nat.div_le_div_right hbytes)

/-- The loop as payments: an orphan output in the newest place ends it at
once. -/
theorem keptFromEnd_of_kept (budget : Nat) {kept : Nat} (hkept : kept ≠ 0)
    (used : Nat) (units : List TailUnit) :
    keptFromEnd floats budget kept used units =
      kept + affordable (TailUnit.tokens floats) budget used units := by
  induction units generalizing kept used with
  | nil => rfl
  | cons unit rest ih =>
    rw [keptFromEnd, affordable, if_neg (by simp [hkept])]
    by_cases hfits : budget < used + unit.tokens floats
    · rw [if_pos hfits, if_pos hfits]
      split <;> rfl
    · rw [if_neg hfits, if_neg hfits, if_neg (by omega),
        ih (Nat.succ_ne_zero kept)]
      omega

theorem keptFromEnd_eq (budget : Nat) (units : List TailUnit) :
    keptFromEnd floats budget 0 0 units =
      if units.head?.any TailUnit.isOrphanOutputOnly then 0
      else affordable (TailUnit.tokens floats) budget 0 units := by
  cases units with
  | nil => rfl
  | cons unit rest =>
    rw [keptFromEnd, head?_cons, any_some]
    by_cases horphan : unit.isOrphanOutputOnly
    · rw [if_pos (by simp [horphan]), if_pos horphan]
    · rw [if_neg (by simp [horphan]), if_neg horphan, affordable,
        Nat.zero_add]
      by_cases hfits : budget < unit.tokens floats
      · rw [if_pos hfits, if_pos hfits]
      · rw [if_neg hfits, if_neg hfits, if_neg hfits,
          keptFromEnd_of_kept floats budget Nat.one_ne_zero, Nat.add_comm]

/-- The units whose items are the tail. -/
def keptUnits (floats : JsonText.FloatText) (maxTailTokens : Nat)
    (units : List TailUnit) : List TailUnit :=
  units.drop (firstKeptUnit units
    (keptFromEnd floats (tailBudget maxTailTokens) 0 0 units.reverse))

/-- Every run of newest units that a budget pays for, and that does not start
with an output, rounds off no more than four bytes for each token that its
whole tokens leave, and three.  Nothing is asked where an orphan output stands
in the newest place. -/
def RemaindersAbsorbed (floats : JsonText.FloatText) (budget : Nat)
    (units : List TailUnit) : Prop :=
  units.getLast?.any TailUnit.isOrphanOutputOnly = false →
    ∀ older unit newer, units = older ++ unit :: newer →
      unit.startsWithToolOutput = false →
      unitTokens floats (unit :: newer) ≤ budget →
      roundedOff floats (unit :: newer) ≤
        4 * (budget - wholeTokens floats (unit :: newer)) + 3

section Kept

variable (floats : JsonText.FloatText) (maxTailTokens : Nat)
  (units : List TailUnit)

theorem keptUnits_eq_dropWhile :
    keptUnits floats maxTailTokens units =
      (units.drop (units.length - keptFromEnd floats (tailBudget maxTailTokens)
        0 0 units.reverse)).dropWhile TailUnit.startsWithToolOutput :=
  drop_firstKeptUnit units _

theorem keptUnits_of_orphan
    (horphan : units.getLast?.any TailUnit.isOrphanOutputOnly = true) :
    keptUnits floats maxTailTokens units = [] := by
  rw [keptUnits_eq_dropWhile, keptFromEnd_eq, head?_reverse,
    if_pos horphan, Nat.sub_zero, drop_length]
  rfl

variable {units}

theorem unitTokens_keptUnits_le :
    unitTokens floats (keptUnits floats maxTailTokens units) ≤
      tailBudget maxTailTokens := by
  by_cases horphan : units.getLast?.any TailUnit.isOrphanOutputOnly = true
  · rw [keptUnits_of_orphan floats maxTailTokens units horphan]
    exact Nat.zero_le _
  · rw [keptUnits_eq_dropWhile, keptFromEnd_eq, head?_reverse,
      if_neg horphan]
    generalize hcount : affordable (TailUnit.tokens floats)
      (tailBudget maxTailTokens) 0 units.reverse = count
    have hpaid : 0 + totalCost (TailUnit.tokens floats)
        (units.reverse.take (affordable (TailUnit.tokens floats)
          (tailBudget maxTailTokens) 0 units.reverse)) ≤
            tailBudget maxTailTokens :=
      totalCost_take_affordable (Nat.zero_le _) units.reverse
    rw [hcount, Nat.zero_add, take_reverse, totalCost_reverse] at hpaid
    refine le_trans ?_ hpaid
    rw [unitTokens]
    generalize units.drop (units.length - count) = recent
    conv_rhs => rw [← takeWhile_append_dropWhile
      (p := TailUnit.startsWithToolOutput) (l := recent), totalCost_append]
    exact Nat.le_add_left _ _

theorem keptUnits_of_run {older newer : List TailUnit} {unit : TailUnit}
    (horphan : units.getLast?.any TailUnit.isOrphanOutputOnly = false)
    (hunits : units = older ++ unit :: newer)
    (hunit : unit.startsWithToolOutput = false)
    (hpaid : unitTokens floats (unit :: newer) ≤ tailBudget maxTailTokens) :
    ∃ more, keptUnits floats maxTailTokens units = more ++ unit :: newer := by
  rw [keptUnits_eq_dropWhile, keptFromEnd_eq, head?_reverse,
    if_neg (by simp [horphan])]
  generalize hcount : affordable (TailUnit.tokens floats)
    (tailBudget maxTailTokens) 0 units.reverse = count
  have hreverse : units.reverse = (unit :: newer).reverse ++ older.reverse := by
    rw [hunits, reverse_append]
  have hlength : (unit :: newer).length ≤ count := by
    rw [← hcount, hreverse, ← length_reverse]
    apply length_le_affordable
    rw [Nat.zero_add, totalCost_reverse]
    exact hpaid
  have hplace : units.length - count ≤ older.length := by
    rw [hunits, length_append]
    omega
  have hdrop : units.drop (units.length - count) =
      older.drop (units.length - count) ++ unit :: newer := by
    generalize units.length - count = place at hplace ⊢
    rw [hunits, drop_append_of_le_length hplace]
  rw [hdrop, dropWhile_append]
  split
  · refine ⟨[], ?_⟩
    rw [dropWhile_cons_of_neg (by simp [hunit])]
    rfl
  · exact ⟨_, rfl⟩

/-- The kept units stay within the budget as a whole exactly if the remainders
of every run that is paid for are absorbed. -/
theorem keptUnits_within_iff :
    (keptUnits floats maxTailTokens units ≠ [] →
        estimateTokens floats
          (flattenTailUnits (keptUnits floats maxTailTokens units)) ≤
            tailBudget maxTailTokens) ↔
      RemaindersAbsorbed floats (tailBudget maxTailTokens) units := by
  have hbudget : 1 ≤ tailBudget maxTailTokens :=
    le_trans (by decide) (le_max_right maxTailTokens 256)
  have hkept : unitTokens floats (keptUnits floats maxTailTokens units) ≤
      tailBudget maxTailTokens :=
    unitTokens_keptUnits_le floats maxTailTokens
  constructor
  · intro hwithin horphan older unit newer hunits hunit hpaid
    obtain ⟨more, hmore⟩ := keptUnits_of_run floats maxTailTokens horphan
      hunits hunit hpaid
    have hestimate := hwithin (by simp [hmore])
    rw [← estimateTokens_flatten_le_iff floats hbudget hpaid]
    rw [hmore, flattenTailUnits_append] at hestimate
    exact (estimateTokens_le_append floats _ _).trans hestimate
  · intro habsorbed hne
    rw [estimateTokens_flatten_le_iff floats hbudget hkept]
    have horphan : units.getLast?.any TailUnit.isOrphanOutputOnly = false := by
      rw [Bool.eq_false_iff]
      exact fun horphan =>
        hne (keptUnits_of_orphan floats maxTailTokens units horphan)
    obtain ⟨unit, newer, hrun⟩ := exists_cons_of_ne_nil hne
    have hunit : unit.startsWithToolOutput = false :=
      not_startsWithToolOutput_firstKeptUnit hrun
    rw [hrun] at hkept ⊢
    obtain ⟨older, hsplit⟩ : ∃ older, units = older ++
        keptUnits floats maxTailTokens units :=
      ⟨_, (take_append_drop _ units).symm⟩
    rw [hrun] at hsplit
    exact habsorbed horphan older unit newer hsplit hunit hkept

end Kept

theorem drop_tailStart {items : List Json} {place : Nat} {units : List TailUnit}
    (hpacked : Packed (items.drop place) 0
      (toolExchangeSpans (items.drop place)) units) (maxTailTokens : Nat) :
    items.drop (tailStart floats items.length place maxTailTokens units) =
      flattenTailUnits (keptUnits floats maxTailTokens units) := by
  rw [tailStart, keptUnits]
  generalize keptFromEnd floats (tailBudget maxTailTokens) 0 0
    units.reverse = kept
  split
  · rename_i hnone
    simp only [Bool.or_eq_true, decide_eq_true_eq] at hnone
    have hall : units.length ≤ firstKeptUnit units kept := by
      rcases hnone with rfl | hlength
      · exact Nat.le_add_right _ _
      · exact hlength
    rw [drop_length, drop_eq_nil_of_le hall]
    rfl
  · rw [← length_flattenTailUnits, drop_flatten_take hpacked]

/-- The tail is made of the kept units of the window. -/
theorem boundRetainedTail_eq (items : List Json) {keepRecentTurns : Nat}
    (hkeep : 1 ≤ keepRecentTurns) (maxTailTokens : Nat) :
    ∃ units, (recentWindow items keepRecentTurns).bind packTailUnits =
        some units ∧
      (∀ unit ∈ units, unit.items ≠ []) ∧
      boundRetainedTail floats items keepRecentTurns maxTailTokens =
        some (flattenTailUnits (keptUnits floats maxTailTokens units)) := by
  have hsome : windowStart items keepRecentTurns ≠ none := by
    rw [ne_eq, windowStart_eq_none_iff]
    omega
  obtain ⟨recent, hrecent⟩ := ne_none_iff_exists'.mp hsome
  generalize hback : Span.moveBack (toolExchangeSpans items) recent = place
  have hplace : place ≤ items.length :=
    hback ▸ (Span.moveBack_le _ _).trans (windowStart_le hrecent)
  have hwhole : ¬ Span.Cut (toolExchangeSpans items) place :=
    hback ▸ Span.not_cut_moveBack (laid_toolExchangeSpans items) recent
  obtain ⟨units, hunits, hpacked⟩ := packTailUnits_spec (items.drop place)
  have hwindow : recentWindow items keepRecentTurns =
      some (items.drop place) := by
    rw [recentWindow, hrecent, bind_some, hback, slice_to_end hplace]
  have htail := drop_tailStart floats hpacked maxTailTokens
  refine ⟨units, ?_, hpacked.nonempty, ?_⟩
  · rw [hwindow, bind_some, hunits]
  · by_cases hitems : items = []
    · rw [← htail, hitems, drop_nil]
      rfl
    · have hbound := (cleanCut_tailStart floats hplace hwhole hpacked
        maxTailTokens).bound
      rw [boundRetainedTail, retainedTailStartIndex_eq floats hitems hrecent
        hback hunits, bind_some, slice_to_end hbound, htail]

/-- What the claim of a hard cap asks of the tail. -/
def TailWithinCap (floats : JsonText.FloatText) (items : List Json)
    (keepRecentTurns maxTailTokens : Nat) : Prop :=
  ∀ tail, boundRetainedTail floats items keepRecentTurns maxTailTokens =
    some tail → tail ≠ [] →
      estimateTokens floats tail ≤ tailBudget maxTailTokens

/-- The tail stays within its cap exactly if the remainders of every run of
newest units of the window are absorbed. -/
theorem tail_within_cap_iff (floats : JsonText.FloatText) (items : List Json)
    {keepRecentTurns : Nat} (hkeep : 1 ≤ keepRecentTurns)
    (maxTailTokens : Nat) :
    TailWithinCap floats items keepRecentTurns maxTailTokens ↔
      ∀ units, (recentWindow items keepRecentTurns).bind packTailUnits =
          some units →
        RemaindersAbsorbed floats (tailBudget maxTailTokens) units := by
  obtain ⟨units, hunits, hnonempty, htail⟩ :=
    boundRetainedTail_eq floats items hkeep maxTailTokens
  have hempty : flattenTailUnits (keptUnits floats maxTailTokens units) ≠ [] ↔
      keptUnits floats maxTailTokens units ≠ [] := by
    rw [ne_eq, ne_eq, not_iff_not, flattenTailUnits, flatMap_eq_nil_iff]
    constructor
    · intro hnone
      rw [eq_nil_iff_forall_not_mem]
      intro unit hmem
      exact hnonempty unit (mem_of_mem_drop hmem) (hnone unit hmem)
    · intro hnil unit hmem
      rw [hnil] at hmem
      exact absurd hmem not_mem_nil
  have hkept := @keptUnits_within_iff floats maxTailTokens units
  rw [TailWithinCap, htail, hunits]
  constructor
  · intro hwithin other hother
    rw [← some.inj hother]
    exact hkept.mp fun hne => hwithin _ rfl (hempty.mpr hne)
  · intro habsorbed tail hsome hne
    rw [← some.inj hsome] at hne ⊢
    exact hkept.mpr (habsorbed units rfl) (hempty.mp hne)

/-- An item of seven bytes, which is estimated at one token. -/
def smallItem : Json := .obj [("a", .num (.int 1))]

/-- 146 of them are estimated at 146 tokens one by one, and at 255 together. -/
theorem small_items_are_absorbed :
    (boundRetainedTail .ofBits (List.replicate 146 smallItem) 1 256).map
        (estimateTokens .ofBits) = some 255 ∧
      ∀ units, (recentWindow (List.replicate 146 smallItem) 1).bind
          packTailUnits = some units →
        RemaindersAbsorbed .ofBits (tailBudget 256) units := by
  have hsize : (boundRetainedTail .ofBits (List.replicate 146 smallItem) 1
      256).map (estimateTokens .ofBits) = some 255 := by decide +kernel
  refine ⟨hsize, (tail_within_cap_iff .ofBits
    (List.replicate 146 smallItem) (Nat.le_refl 1) 256).mp ?_⟩
  intro tail htail _
  rw [htail, map_some, some_inj] at hsize
  rw [hsize]
  decide

/-- Items of seven bytes fill a budget of 256 tokens with 448. -/
theorem rounded_tail_exceeds_cap :
    ¬ ∀ (floats : JsonText.FloatText) (items : List Json)
      (keepRecentTurns maxTailTokens : Nat), 1 ≤ keepRecentTurns →
      TailWithinCap floats items keepRecentTurns maxTailTokens := by
  intro hclaim
  have hwithin := hclaim .ofBits (List.replicate 256 smallItem) 1 256
    (Nat.le_refl 1)
  have hsize : (boundRetainedTail .ofBits (List.replicate 256 smallItem) 1
      256).map (estimateTokens .ofBits) = some 448 := by decide +kernel
  obtain ⟨tail, htail, hestimate⟩ := map_eq_some_iff.mp hsize
  have hne : tail ≠ [] := by
    rintro rfl
    cases hestimate
  have hcap := hwithin tail htail hne
  rw [hestimate] at hcap
  exact absurd hcap (by decide)

end Vellum.Proxy

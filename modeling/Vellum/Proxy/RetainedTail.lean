/-
Where the retained tail of a compaction starts (`compaction.rs`).  The window
of the recent user turns is moved back to the start of a tool exchange, its
units are kept from the newest one backwards while they fit the budget, and
tool outputs at the front of what is kept are dropped.
-/
import Vellum.Proxy.TailUnits

namespace Vellum.Proxy

open List Option

variable (floats : JsonText.FloatText) (items : List Json)

def userStarts : List Nat :=
  items.zipIdx.filterMap fun entry =>
    if classifyItem entry.1 = .user then some entry.2 else none

/-- The first item of the window of the recent user turns. -/
def windowStart (keepRecentTurns : Nat) : Option Nat :=
  let starts := userStarts items
  if starts.isEmpty then some 0
  else if starts.length ≤ keepRecentTurns then starts[0]?
  else starts[starts.length - keepRecentTurns]?

/-- How many units are kept, of units that are listed newest first.  The sums
are sizes of what is in memory, so they do not saturate. -/
def keptFromEnd (floats : JsonText.FloatText) (budget : Nat) :
    Nat → Nat → List TailUnit → Nat
  | kept, _, [] => kept
  | kept, used, unit :: rest =>
    if kept = 0 && unit.isOrphanOutputOnly then kept
    else if budget < unit.tokens floats then kept
    else if budget < used + unit.tokens floats then kept
    else keptFromEnd floats budget (kept + 1) (used + unit.tokens floats) rest

/-- The first of the kept units that does not start with an output. -/
def firstKeptUnit (units : List TailUnit) (kept : Nat) : Nat :=
  let oldest := units.length - kept
  oldest + ((units.drop oldest).takeWhile
    TailUnit.startsWithToolOutput).length

def tailBudget (maxTailTokens : Nat) : Nat := max maxTailTokens 256

/-- The start of the tail in a window that begins at `place`; without a tail
it is the end of the items. -/
def tailStart (size place maxTailTokens : Nat) (units : List TailUnit) : Nat :=
  let kept := keptFromEnd floats (tailBudget maxTailTokens) 0 0 units.reverse
  let unit := firstKeptUnit units kept
  if kept = 0 || units.length ≤ unit then size
  else place + ((units.take unit).map fun unit => unit.items.length).sum

def retainedTailStartIndex (keepRecentTurns maxTailTokens : Nat) : Option Nat :=
  if items.isEmpty then some 0
  else
    (windowStart items keepRecentTurns).bind fun recent =>
      let place := Span.moveBack (toolExchangeSpans items) recent
      (slice items ⟨place, items.length⟩).bind fun window =>
        (packTailUnits window).map
          (tailStart floats items.length place maxTailTokens)

def boundRetainedTail (keepRecentTurns maxTailTokens : Nat) :
    Option (List Json) :=
  (retainedTailStartIndex floats items keepRecentTurns maxTailTokens).bind
    fun start => slice items ⟨start, items.length⟩

variable (floats : JsonText.FloatText) {items : List Json}
  {keepRecentTurns place : Nat} {units : List TailUnit}

theorem mem_userStarts {index : Nat} :
    index ∈ userStarts items ↔
      ∃ item, items[index]? = some item ∧ classifyItem item = .user := by
  simp only [userStarts, mem_filterMap, ite_none_right_eq_some,
    some.injEq]
  constructor
  · rintro ⟨⟨item, place⟩, hmem, huser, rfl⟩
    exact ⟨item, mk_mem_zipIdx_iff_getElem?.mp hmem, huser⟩
  · rintro ⟨item, hitem, huser⟩
    exact ⟨(item, index), mk_mem_zipIdx_iff_getElem?.mpr hitem, huser,
      rfl⟩

theorem userStarts_eq_nil_iff :
    userStarts items = [] ↔ ∀ item ∈ items, classifyItem item ≠ .user := by
  rw [eq_nil_iff_forall_not_mem]
  constructor
  · intro hnone item hitem huser
    obtain ⟨index, hindex⟩ := mem_iff_getElem?.mp hitem
    exact hnone index (mem_userStarts.mpr ⟨item, hindex, huser⟩)
  · intro hnone index hmem
    obtain ⟨item, hitem, huser⟩ := mem_userStarts.mp hmem
    exact hnone item (mem_of_getElem? hitem) huser

/-- The access that goes wrong: with no turns to keep, the position of the
oldest kept turn is behind the last one. -/
theorem windowStart_eq_none_iff (items : List Json) (keepRecentTurns : Nat) :
    windowStart items keepRecentTurns = none ↔
      keepRecentTurns = 0 ∧ userStarts items ≠ [] := by
  rw [windowStart]
  cases hstarts : userStarts items with
  | nil => simp
  | cons start rest =>
    by_cases hkeep : (start :: rest).length ≤ keepRecentTurns
    · have hpositive : keepRecentTurns ≠ 0 := by
        rw [length_cons] at hkeep
        omega
      simp only [isEmpty_cons, Bool.false_eq_true, if_false,
        if_pos hkeep]
      exact iff_of_false (by simp) fun hnone => hpositive hnone.1
    · simp only [isEmpty_cons, Bool.false_eq_true, if_false, hkeep,
        List.getElem?_eq_none_iff, ne_eq, reduceCtorEq, not_false_eq_true,
        and_true]
      omega

theorem windowStart_le
    (hplace : windowStart items keepRecentTurns = some place) :
    place ≤ items.length := by
  have hstart {index : Nat} (hindex : (userStarts items)[index]? = some place) :
      place ≤ items.length := by
    obtain ⟨item, hitem, -⟩ :=
      mem_userStarts.mp (mem_of_getElem? hindex)
    exact (List.getElem?_eq_some_iff.mp hitem).1.le
  rw [windowStart] at hplace
  split at hplace
  · rw [← some.inj hplace]
    exact Nat.zero_le _
  · split at hplace
    · exact hstart hplace
    · exact hstart hplace

theorem slice_to_end (hplace : place ≤ items.length) :
    slice items ⟨place, items.length⟩ = some (items.drop place) := by
  rw [slice, if_pos ⟨hplace, Nat.le_refl _⟩, take_of_length_le]
  rw [length_drop]

theorem length_flattenTailUnits (units : List TailUnit) :
    (flattenTailUnits units).length =
      (units.map fun unit => unit.items.length).sum := by
  rw [flattenTailUnits, length_flatMap]

/-- What is asked of a place at which the items are cut. -/
structure CleanCut (items : List Json) (start : Nat) : Prop where
  bound : start ≤ items.length
  front : (items.drop start).head?.any isToolOutput = false
  pairs : ∀ index output, Paired items index output →
    ¬ (index < start ∧ start ≤ output)

theorem Paired.lt_length {index output : Nat}
    (hpaired : Paired items index output) : output < items.length := by
  obtain ⟨-, -, answer, -, -, -, -, hanswer, -⟩ := hpaired
  exact (List.getElem?_eq_some_iff.mp hanswer).1

theorem cleanCut_length (items : List Json) :
    CleanCut items items.length where
  bound := Nat.le_refl _
  front := by rw [drop_length]; rfl
  pairs := by
    rintro index output hpaired ⟨-, hbehind⟩
    exact absurd hpaired.lt_length (Nat.not_lt.mpr hbehind)

theorem drop_firstKeptUnit (units : List TailUnit) (kept : Nat) :
    units.drop (firstKeptUnit units kept) =
      (units.drop (units.length - kept)).dropWhile
        TailUnit.startsWithToolOutput := by
  rw [firstKeptUnit, ← drop_drop]
  generalize units.drop (units.length - kept) = recent
  have hsplit : recent.takeWhile TailUnit.startsWithToolOutput ++
      recent.dropWhile TailUnit.startsWithToolOutput = recent :=
    takeWhile_append_dropWhile
  calc recent.drop (recent.takeWhile TailUnit.startsWithToolOutput).length
      = (recent.takeWhile TailUnit.startsWithToolOutput ++
          recent.dropWhile TailUnit.startsWithToolOutput).drop
            (recent.takeWhile TailUnit.startsWithToolOutput).length := by
        rw [hsplit]
    _ = recent.dropWhile TailUnit.startsWithToolOutput := drop_left

theorem not_startsWithToolOutput_firstKeptUnit {rest : List TailUnit}
    {kept : Nat} {unit : TailUnit}
    (hunits : units.drop (firstKeptUnit units kept) = unit :: rest) :
    unit.startsWithToolOutput = false := by
  have hhead : ((units.drop (units.length - kept)).dropWhile
      TailUnit.startsWithToolOutput).head? = some unit := by
    rw [← drop_firstKeptUnit, hunits]
    rfl
  have hnot := head?_dropWhile_not TailUnit.startsWithToolOutput
    (units.drop (units.length - kept))
  rw [hhead] at hnot
  simpa using hnot

section Window

variable {items : List Json} {place : Nat} {units : List TailUnit}

/-- The tail that begins with a unit of the window is the items of the units
from there on. -/
theorem drop_flatten_take
    (hpacked : Packed (items.drop place) 0
      (toolExchangeSpans (items.drop place)) units) (unit : Nat) :
    items.drop (place + (flattenTailUnits (units.take unit)).length) =
      flattenTailUnits (units.drop unit) := by
  have hsplit : flattenTailUnits (units.take unit) ++
      flattenTailUnits (units.drop unit) = items.drop place := by
    rw [flattenTailUnits, flattenTailUnits, ← flatMap_append,
      take_append_drop, ← flattenTailUnits, hpacked.flatten,
      drop_zero]
  rw [← drop_drop, ← hsplit, drop_left]

/-- A cut between two units of a window that starts at the start of an exchange
leaves every pair together. -/
theorem pairs_of_packed (hwhole : ¬ Span.Cut (toolExchangeSpans items) place)
    (hpacked : Packed (items.drop place) 0
      (toolExchangeSpans (items.drop place)) units) (unit : Nat)
    {index output : Nat} (hpaired : Paired items index output) :
    ¬ (index < place + (flattenTailUnits (units.take unit)).length ∧
      place + (flattenTailUnits (units.take unit)).length ≤ output) := by
  rintro ⟨hbefore, hbehind⟩
  rcases Nat.lt_or_ge index place with hfront | hinside
  · obtain ⟨span, hspan, hstart, hstop⟩ := hpaired.span
    exact hwhole ⟨span, hspan, by omega, by omega⟩
  · obtain ⟨span, hspan, hstart, hstop⟩ := (hpaired.drop hinside).span
    refine hpacked.whole (units.take unit) (units.drop unit)
      (take_append_drop unit units).symm ⟨span, hspan, ?_, ?_⟩
    · omega
    · omega

end Window

theorem cleanCut_tailStart (hplace : place ≤ items.length)
    (hwhole : ¬ Span.Cut (toolExchangeSpans items) place)
    (hpacked : Packed (items.drop place) 0
      (toolExchangeSpans (items.drop place)) units) (maxTailTokens : Nat) :
    CleanCut items
      (tailStart floats items.length place maxTailTokens units) := by
  rw [tailStart]
  split
  · exact cleanCut_length items
  · rename_i hkept
    simp only [Bool.or_eq_true, decide_eq_true_eq, not_or, Nat.not_le] at hkept
    rw [← length_flattenTailUnits]
    generalize hfirst : firstKeptUnit units
      (keptFromEnd floats (tailBudget maxTailTokens) 0 0 units.reverse) =
        unit at hkept ⊢
    have htail := drop_flatten_take hpacked unit
    refine ⟨?_, ?_, fun index output hpaired =>
      pairs_of_packed hwhole hpacked unit hpaired⟩
    · have hlength := congrArg List.length hpacked.flatten
      rw [drop_zero, length_drop,
        ← take_append_drop unit units, flattenTailUnits,
        flatMap_append, length_append, ← flattenTailUnits] at hlength
      omega
    · cases hrest : units.drop unit with
      | nil =>
        rw [drop_eq_nil_iff] at hrest
        omega
      | cons first rest =>
        have hfirstUnit : first.startsWithToolOutput = false := by
          rw [← hfirst] at hrest
          exact not_startsWithToolOutput_firstKeptUnit hrest
        have hmem : first ∈ units :=
          mem_of_mem_drop (hrest ▸ mem_cons_self)
        have hnonempty := hpacked.nonempty first hmem
        rw [htail, hrest, flattenTailUnits, flatMap_cons,
          head?_append_of_ne_nil _ hnonempty]
        exact hfirstUnit

theorem retainedTailStartIndex_eq (hitems : items ≠ []) {recent : Nat}
    (hrecent : windowStart items keepRecentTurns = some recent)
    (hback : Span.moveBack (toolExchangeSpans items) recent = place)
    (hunits : packTailUnits (items.drop place) = some units)
    (maxTailTokens : Nat) :
    retainedTailStartIndex floats items keepRecentTurns maxTailTokens =
      some (tailStart floats items.length place maxTailTokens units) := by
  have hplace : place ≤ items.length :=
    hback ▸ (Span.moveBack_le _ _).trans (windowStart_le hrecent)
  rw [retainedTailStartIndex, if_neg (by simpa using hitems), hrecent]
  simp only [bind_some, hback, slice_to_end hplace, hunits,
    map_some]

theorem retainedTailStartIndex_clean (hitems : items ≠ []) {recent : Nat}
    (hrecent : windowStart items keepRecentTurns = some recent)
    (maxTailTokens : Nat) :
    ∃ start, retainedTailStartIndex floats items keepRecentTurns maxTailTokens =
      some start ∧ CleanCut items start := by
  have hplace : Span.moveBack (toolExchangeSpans items) recent ≤
      items.length :=
    (Span.moveBack_le _ _).trans (windowStart_le hrecent)
  have hwhole := Span.not_cut_moveBack (laid_toolExchangeSpans items) recent
  obtain ⟨units, hunits, hpacked⟩ := packTailUnits_spec
    (items.drop (Span.moveBack (toolExchangeSpans items) recent))
  exact ⟨_, retainedTailStartIndex_eq floats hitems hrecent rfl hunits
    maxTailTokens, cleanCut_tailStart floats hplace hwhole hpacked
      maxTailTokens⟩

/-- Units can be flattened again, and the tail starts at a clean cut. -/
structure TailHolds (floats : JsonText.FloatText) (items : List Json)
    (keepRecentTurns maxTailTokens : Nat) : Prop where
  flatten : (packTailUnits items).map flattenTailUnits = some items
  start : ∃ start,
    retainedTailStartIndex floats items keepRecentTurns maxTailTokens =
      some start ∧ CleanCut items start

/-- The tail starts at a clean cut exactly if there are turns to keep, or no
user turns at all. -/
theorem retained_tail_is_clean_iff (floats : JsonText.FloatText)
    (items : List Json) (keepRecentTurns maxTailTokens : Nat) :
    TailHolds floats items keepRecentTurns maxTailTokens ↔
      ¬ (keepRecentTurns = 0 ∧
        ∃ item ∈ items, classifyItem item = .user) := by
  have husers : (∃ item ∈ items, classifyItem item = .user) ↔
      userStarts items ≠ [] := by
    rw [ne_eq, userStarts_eq_nil_iff]
    push Not
    rfl
  rw [husers, ← windowStart_eq_none_iff]
  constructor
  · rintro ⟨-, start, hstart, -⟩ hnone
    have hitems : items ≠ [] := by
      rintro rfl
      exact absurd hnone (by simp [windowStart, userStarts])
    rw [retainedTailStartIndex, if_neg (by simpa using hitems), hnone,
      bind_none] at hstart
    cases hstart
  · intro hsome
    refine ⟨flatten_packTailUnits items, ?_⟩
    obtain ⟨recent, hrecent⟩ := ne_none_iff_exists'.mp hsome
    by_cases hitems : items = []
    · subst hitems
      exact ⟨0, rfl, cleanCut_length []⟩
    · exact retainedTailStartIndex_clean floats hitems hrecent
        maxTailTokens

/-- A message of the user. -/
def userTurn : Json :=
  .obj [("type", .str "message"), ("role", .str "user"),
    ("content", .str "go on")]

/-- Of a conversation with a message of the user, no turns are kept. -/
theorem no_turns_to_keep :
    ¬ ∀ (floats : JsonText.FloatText) (items : List Json)
      (keepRecentTurns maxTailTokens : Nat),
      TailHolds floats items keepRecentTurns maxTailTokens := by
  intro hclaim
  obtain ⟨start, hstart, -⟩ := (hclaim .ofBits [userTurn] 0 12000).start
  have hnone : retainedTailStartIndex .ofBits [userTurn] 0 12000 = none := rfl
  rw [hnone] at hstart
  cases hstart

end Vellum.Proxy

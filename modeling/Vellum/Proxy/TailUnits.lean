/-
The atomic units of a recent tail (`compaction.rs`).  A tool call and the
outputs paired with it form a span; overlapping spans are merged, and the items
are packed into one unit for each merged span and one for each other item.  An
access out of range, which the program would not survive, is `none`.
-/
import Vellum.Library.Spans
import Vellum.Library.JsonText
import Vellum.Proxy.ReplayHydration
import Vellum.Proxy.CodexLocalCompact

namespace Vellum.Proxy

open List Option

variable (floats : JsonText.FloatText) (items : List Json)

/-- The bytes of an item on the wire. -/
def itemBytes (item : Json) : Nat :=
  Utf8Slice.byteLen (JsonText.text floats item)

/-- Four bytes a token, rounded down, but never nothing. -/
def estimateTokens : Nat :=
  max ((items.map (itemBytes floats)).sum / 4) 1

def toolPairId (item : Json) : Option String :=
  ((item.get "call_id").bind Json.asStr).or ((item.get "id").bind Json.asStr)

/-- Where the items of one kind with an id stand. -/
def pairIndices (kind : Json → Bool) (items : List Json) (id : String) :
    List Nat :=
  items.zipIdx.filterMap fun entry =>
    if kind entry.1 && toolPairId entry.1 = some id then some entry.2 else none

def callIndices (id : String) : List Nat :=
  pairIndices isToolCall items id

def outputIndices (id : String) : List Nat :=
  pairIndices (fun item => !isToolCall item && isToolOutput item) items id

/-- Move the stop of the span of a call behind an output, if that stands
between the call and the `next` call with its id. -/
def extendStop (index next stop output : Nat) : Nat :=
  if index < output ∧ output < next then max stop (output + 1) else stop

/-- The end of the span of the call at `index`. -/
def spanEnd (index : Nat) (item : Json) : Nat :=
  match toolPairId item with
  | none => index + 1
  | some id =>
    let nextSame := ((callIndices items id).find?
      fun other => decide (index < other)).getD items.length
    (outputIndices items id).foldl (extendStop index nextSame) (index + 1)

def callSpans : List Span :=
  items.zipIdx.filterMap fun entry =>
    if isToolCall entry.1 then some ⟨entry.2, spanEnd items entry.2 entry.1⟩
    else none

def toolExchangeSpans : List Span :=
  Span.merge ((callSpans items).mergeSort fun left right =>
    decide (left.start ≤ right.start))

structure TailUnit where
  items : List Json

namespace TailUnit

def tokens (floats : JsonText.FloatText) (unit : TailUnit) : Nat :=
  estimateTokens floats unit.items

def isOrphanOutputOnly (unit : TailUnit) : Bool :=
  unit.items.length = 1 && unit.items.head?.any isToolOutput

def startsWithToolOutput (unit : TailUnit) : Bool :=
  unit.items.head?.any isToolOutput

end TailUnit

def flattenTailUnits (units : List TailUnit) : List Json :=
  units.flatMap TailUnit.items

/-- `&items[start..stop]`. -/
def slice (items : List Json) (span : Span) : Option (List Json) :=
  if span.start ≤ span.stop ∧ span.stop ≤ items.length then
    some ((items.drop span.start).take (span.stop - span.start))
  else none

/-- The loop of `pack_tail_units` from position `index`, with the spans that
are still ahead. -/
def packFrom (items : List Json) :
    Nat → Nat → List Span → Option (List TailUnit)
  | 0, _, _ => some []
  | fuel + 1, index, merged =>
    if hindex : index < items.length then
      let single := (packFrom items fuel (index + 1) merged).map
        (⟨[items[index]]⟩ :: ·)
      match merged with
      | [] => single
      | span :: rest =>
        if index = span.start then
          (slice items span).bind fun taken =>
            (packFrom items fuel span.stop rest).map (⟨taken⟩ :: ·)
        else if span.start < index ∧ index < span.stop then
          packFrom items fuel span.stop rest
        else single
    else some []

/-- Every round of the loop moves on, so it takes no more rounds than there
are items. -/
def packTailUnits (items : List Json) : Option (List TailUnit) :=
  packFrom items items.length 0 (toolExchangeSpans items)

variable {items : List Json} {index : Nat} {merged rest : List Span}
  {units : List TailUnit}

theorem mem_pairIndices {kind : Json → Bool} {id : String} :
    index ∈ pairIndices kind items id ↔ ∃ item, items[index]? = some item ∧
      kind item ∧ toolPairId item = some id := by
  simp only [pairIndices, mem_filterMap, ite_none_right_eq_some,
    some.injEq, Bool.and_eq_true, decide_eq_true_eq]
  constructor
  · rintro ⟨⟨item, place⟩, hmem, ⟨hkind, hid⟩, rfl⟩
    exact ⟨item, mk_mem_zipIdx_iff_getElem?.mp hmem, hkind, hid⟩
  · rintro ⟨item, hitem, hkind, hid⟩
    exact ⟨(item, index), mk_mem_zipIdx_iff_getElem?.mpr hitem,
      ⟨hkind, hid⟩, rfl⟩

theorem lt_of_mem_pairIndices {kind : Json → Bool} {id : String}
    (hmem : index ∈ pairIndices kind items id) : index < items.length := by
  obtain ⟨item, hitem, -⟩ := mem_pairIndices.mp hmem
  exact (List.getElem?_eq_some_iff.mp hitem).1

theorem mem_callSpans {span : Span} :
    span ∈ callSpans items ↔ ∃ item, items[span.start]? = some item ∧
      isToolCall item ∧ span.stop = spanEnd items span.start item := by
  simp only [callSpans, mem_filterMap, ite_none_right_eq_some,
    some.injEq]
  constructor
  · rintro ⟨⟨item, index⟩, hmem, hcall, rfl⟩
    exact ⟨item, mk_mem_zipIdx_iff_getElem?.mp hmem, hcall, rfl⟩
  · rintro ⟨item, hitem, hcall, hstop⟩
    refine ⟨(item, span.start), mk_mem_zipIdx_iff_getElem?.mpr hitem,
      hcall, ?_⟩
    rw [← hstop]

section Stop

variable (index next : Nat)

theorem le_foldl_extendStop (outputs : List Nat) (stop : Nat) :
    stop ≤ outputs.foldl (extendStop index next) stop := by
  induction outputs generalizing stop with
  | nil => exact Nat.le_refl stop
  | cons output rest ih =>
    refine Nat.le_trans ?_ (ih _)
    rw [extendStop]
    split
    · exact le_max_left _ _
    · exact Nat.le_refl stop

theorem foldl_extendStop_le {size : Nat} {outputs : List Nat} {stop : Nat}
    (hstop : stop ≤ size) (houtputs : ∀ output ∈ outputs, output < size) :
    outputs.foldl (extendStop index next) stop ≤ size := by
  induction outputs generalizing stop with
  | nil => exact hstop
  | cons output rest ih =>
    have hfirst := houtputs output mem_cons_self
    refine ih ?_ fun other hother =>
      houtputs other (mem_cons_of_mem _ hother)
    rw [extendStop]
    split
    · exact max_le hstop hfirst
    · exact hstop

variable {index next}

theorem lt_foldl_extendStop {output : Nat} (hindex : index < output)
    (hnext : output < next) {outputs : List Nat} (hmem : output ∈ outputs)
    (stop : Nat) : output < outputs.foldl (extendStop index next) stop := by
  induction outputs generalizing stop with
  | nil => exact absurd hmem not_mem_nil
  | cons first rest ih =>
    rcases mem_cons.mp hmem with rfl | hmem
    · refine Nat.lt_of_lt_of_le ?_
        (le_foldl_extendStop index next rest _)
      rw [extendStop, if_pos ⟨hindex, hnext⟩]
      exact Nat.lt_of_lt_of_le (Nat.lt_succ_self output) (le_max_right _ _)
    · exact ih hmem _

end Stop

theorem spanEnd_within {item : Json} (hitem : items[index]? = some item) :
    index < spanEnd items index item ∧
      spanEnd items index item ≤ items.length := by
  have hindex := (List.getElem?_eq_some_iff.mp hitem).1
  rw [spanEnd]
  split
  · exact ⟨Nat.lt_succ_self index, hindex⟩
  · constructor
    · exact le_foldl_extendStop index _ _ (index + 1)
    · exact foldl_extendStop_le index _ hindex
        fun output hmem => lt_of_mem_pairIndices hmem

theorem sorted_callSpans (items : List Json) :
    ((callSpans items).mergeSort fun left right =>
      decide (left.start ≤ right.start)).Pairwise
        fun left right => left.start ≤ right.start := by
  have hsorted : ((callSpans items).mergeSort fun left right =>
      decide (left.start ≤ right.start)).Pairwise
        fun left right => decide (left.start ≤ right.start) = true := by
    refine pairwise_mergeSort ?_ ?_ (callSpans items)
    · intro first second third
      simpa using Nat.le_trans
    · intro left right
      simpa using Nat.le_total left.start right.start
  simpa using hsorted

theorem laid_toolExchangeSpans (items : List Json) :
    Span.Laid items.length (toolExchangeSpans items) := by
  apply Span.laid_merge (sorted_callSpans items)
  intro span hspan
  rw [mem_mergeSort] at hspan
  obtain ⟨item, hitem, -, hstop⟩ := mem_callSpans.mp hspan
  obtain ⟨hlower, hupper⟩ := spanEnd_within hitem
  rw [← hstop] at hlower hupper
  exact ⟨hlower, hupper⟩

/-- The output at `output` answers the call at `index`: it has its id, and no
other call with this id stands between them. -/
structure Paired (items : List Json) (index output : Nat) : Prop where
  before : index < output
  answers : ∃ call answer id, items[index]? = some call ∧ isToolCall call ∧
    toolPairId call = some id ∧ items[output]? = some answer ∧
    isToolOutput answer ∧ toolPairId answer = some id ∧
    ∀ between other, index < between → between < output →
      items[between]? = some other → isToolCall other →
        toolPairId other ≠ some id

theorem isToolCall_of_isToolOutput {item : Json}
    (houtput : isToolOutput item) : isToolCall item = false := by
  rw [isToolOutput] at houtput
  rw [isToolCall]
  split
  · rename_i kind htype
    rw [htype] at houtput
    have hkind := of_decide_eq_true houtput
    apply decide_eq_false
    intro hcall
    simp only [mem_cons, not_mem_nil, or_false] at hkind
    rcases hkind with rfl | rfl | rfl | rfl | rfl | rfl <;>
      exact absurd hcall (by decide)
  · rfl

theorem Paired.span {output : Nat} (hpaired : Paired items index output) :
    ∃ span ∈ toolExchangeSpans items,
      span.start ≤ index ∧ output < span.stop := by
  obtain ⟨hbefore, call, answer, id, hcallAt, hcall, hcallId, hanswerAt,
    hanswer, hanswerId, hbetween⟩ := hpaired
  have hnotCall := isToolCall_of_isToolOutput hanswer
  have houtput : output ∈ outputIndices items id :=
    mem_pairIndices.mpr ⟨answer, hanswerAt, by simp [hnotCall, hanswer],
      hanswerId⟩
  have hnext : output < ((callIndices items id).find?
      fun other => decide (index < other)).getD items.length := by
    cases hfind : (callIndices items id).find?
        fun other => decide (index < other) with
    | none => exact lt_of_mem_pairIndices houtput
    | some other =>
      have hlater : index < other := by simpa using find?_some hfind
      obtain ⟨later, hlaterAt, hlaterCall, hlaterId⟩ :=
        mem_pairIndices.mp (mem_of_find?_eq_some hfind)
      rcases Nat.lt_trichotomy other output with hlt | rfl | hgt
      · exact absurd hlaterId
          (hbetween other later hlater hlt hlaterAt hlaterCall)
      · rw [hanswerAt] at hlaterAt
        rw [← some.inj hlaterAt, hnotCall] at hlaterCall
        cases hlaterCall
      · exact hgt
  have hstop : output < spanEnd items index call := by
    rw [spanEnd, hcallId]
    exact lt_foldl_extendStop hbefore hnext houtput (index + 1)
  have hspan : (⟨index, spanEnd items index call⟩ : Span) ∈
      (callSpans items).mergeSort fun left right =>
        decide (left.start ≤ right.start) := by
    rw [mem_mergeSort]
    exact mem_callSpans.mpr ⟨call, hcallAt, hcall, rfl⟩
  obtain ⟨merged, hmerged, hstart, hcovers⟩ :=
    Span.merge_covers (sorted_callSpans items) hspan
  exact ⟨merged, hmerged, hstart, Nat.lt_of_lt_of_le hstop hcovers⟩

theorem Paired.drop {output place : Nat} (hpaired : Paired items index output)
    (hplace : place ≤ index) :
    Paired (items.drop place) (index - place) (output - place) := by
  obtain ⟨hbefore, call, answer, id, hcallAt, hcall, hcallId, hanswerAt,
    hanswer, hanswerId, hbetween⟩ := hpaired
  refine ⟨by omega, call, answer, id, ?_, hcall, hcallId, ?_, hanswer,
    hanswerId, ?_⟩
  · rw [getElem?_drop, Nat.add_sub_cancel' hplace]
    exact hcallAt
  · rw [getElem?_drop, Nat.add_sub_cancel' (by omega)]
    exact hanswerAt
  · intro between other hafter hfront hother
    rw [getElem?_drop] at hother
    exact hbetween (place + between) other (by omega) (by omega) hother

/-- The spans that are still ahead of the loop. -/
structure Ahead (items : List Json) (index : Nat) (merged : List Span) :
    Prop where
  laid : Span.Laid items.length merged
  ahead : ∀ span ∈ merged, index ≤ span.start

theorem Ahead.tail {span : Span} (hahead : Ahead items index (span :: rest)) :
    Ahead items span.stop rest := by
  obtain ⟨hnext, hrest⟩ := pairwise_cons.mp hahead.laid.pairwise
  exact ⟨⟨fun other hother => hahead.laid.within other
    (mem_cons_of_mem _ hother), hrest⟩, hnext⟩

/-- What the loop makes of the items from a place on: their units in order,
none of them empty, and no unit ends within a span. -/
structure Packed (items : List Json) (index : Nat) (merged : List Span)
    (units : List TailUnit) : Prop where
  flatten : flattenTailUnits units = items.drop index
  nonempty : ∀ unit ∈ units, unit.items ≠ []
  whole : ∀ front back, units = front ++ back →
    ¬ Span.Cut merged (index + (flattenTailUnits front).length)

theorem Packed.cons {next : Nat} {unit : TailUnit}
    (hpacked : Packed items next rest units) (hnonempty : unit.items ≠ [])
    (hunit : unit.items ++ items.drop next = items.drop index)
    (hnext : next = index + unit.items.length)
    (hfront : ∀ span ∈ merged, index ≤ span.start)
    (hcut : ∀ place, next ≤ place → Span.Cut merged place →
      Span.Cut rest place) :
    Packed items index merged (unit :: units) where
  flatten := by
    rw [flattenTailUnits, flatMap_cons, ← flattenTailUnits,
      hpacked.flatten, hunit]
  nonempty := by
    intro other hother
    rcases mem_cons.mp hother with rfl | hother
    · exact hnonempty
    · exact hpacked.nonempty other hother
  whole := by
    intro front back hsplit
    cases front with
    | nil =>
      rintro ⟨span, hspan, hbefore, -⟩
      have hlower := hfront span hspan
      exact absurd hbefore (Nat.not_lt.mpr hlower)
    | cons first front =>
      obtain ⟨rfl, hrest⟩ := List.cons.inj hsplit
      intro hplace
      have hlength : (flattenTailUnits (unit :: front)).length =
          unit.items.length + (flattenTailUnits front).length := by
        rw [flattenTailUnits, flatMap_cons, length_append,
          ← flattenTailUnits]
      rw [hlength, ← Nat.add_assoc, ← hnext] at hplace
      exact hpacked.whole front back hrest
        (hcut _ (Nat.le_add_right _ _) hplace)

theorem packed_single (hindex : index < items.length)
    (hahead : Ahead items index merged)
    (hpacked : Packed items (index + 1) merged units) :
    Packed items index merged (⟨[items[index]]⟩ :: units) := by
  refine hpacked.cons (by simp) ?_ rfl hahead.ahead fun _ _ hcut => hcut
  rw [drop_eq_getElem_cons hindex]
  rfl

theorem packed_span {span : Span} {taken : List Json}
    (hahead : Ahead items span.start (span :: rest))
    (htaken : slice items span = some taken)
    (hpacked : Packed items span.stop rest units) :
    Packed items span.start (span :: rest) (⟨taken⟩ :: units) := by
  have hspan := hahead.laid.within span mem_cons_self
  have hbounds := hspan.nonempty
  have hsize := hspan.bound
  rw [slice, if_pos ⟨hbounds.le, hsize⟩, some.injEq] at htaken
  have hlength : taken.length = span.stop - span.start := by
    rw [← htaken, length_take, length_drop]
    omega
  refine hpacked.cons ?_ ?_ ?_ hahead.ahead ?_
  · change taken ≠ []
    exact ne_nil_of_length_pos (by omega)
  · have hdrop : items.drop span.stop =
        (items.drop span.start).drop (span.stop - span.start) := by
      rw [drop_drop]
      congr 1
      omega
    rw [hdrop, ← htaken, take_append_drop]
  · change span.stop = span.start + taken.length
    omega
  · rintro place hplace ⟨other, hother, hbefore, hbehind⟩
    rcases mem_cons.mp hother with rfl | hother
    · omega
    · exact ⟨other, hother, hbefore, hbehind⟩

theorem packed_done (hahead : Ahead items index merged)
    (hend : items.length ≤ index) : Packed items index merged [] := by
  refine ⟨?_, fun _ hmem => absurd hmem not_mem_nil, ?_⟩
  · rw [drop_eq_nil_of_le hend]
    rfl
  · rintro front back - ⟨span, hspan, hbefore, hbehind⟩
    have hbound := (hahead.laid.within span hspan).bound
    omega

/-- Each round of the loop makes one unit and leaves the rest ahead. -/
theorem packFrom_spec {fuel : Nat} (hfuel : items.length - index ≤ fuel)
    (hahead : Ahead items index merged) :
    ∃ units, packFrom items fuel index merged = some units ∧
      Packed items index merged units := by
  induction fuel generalizing index merged with
  | zero => exact ⟨[], rfl, packed_done hahead (by omega)⟩
  | succ fuel ih =>
    by_cases hindex : index < items.length
    · have hsingle (hnext : ∀ span ∈ merged, index + 1 ≤ span.start) :
          ∃ units, (packFrom items fuel (index + 1) merged).map
              (⟨[items[index]]⟩ :: ·) = some units ∧
            Packed items index merged units := by
        obtain ⟨units, hunits, hpacked⟩ :=
          ih (by omega) ⟨hahead.laid, hnext⟩
        rw [hunits]
        exact ⟨_, rfl, packed_single hindex hahead hpacked⟩
      rw [packFrom, dif_pos hindex]
      cases merged with
      | nil => exact hsingle fun _ hmem => absurd hmem not_mem_nil
      | cons span rest =>
        have hstart := hahead.ahead span mem_cons_self
        have hspan := hahead.laid.within span mem_cons_self
        by_cases hat : index = span.start
        · subst hat
          have hbounds := hspan.nonempty
          obtain ⟨units, hunits, hpacked⟩ := ih (by omega) hahead.tail
          have htaken : slice items span = some
              ((items.drop span.start).take (span.stop - span.start)) :=
            if_pos ⟨hbounds.le, hspan.bound⟩
          simp only [if_true, htaken, bind_some, hunits]
          exact ⟨_, rfl, packed_span hahead htaken hpacked⟩
        · have hnot : ¬ (span.start < index ∧ index < span.stop) := by
            omega
          simp only [if_neg hat, if_neg hnot]
          apply hsingle
          intro other hother
          rcases mem_cons.mp hother with rfl | hother
          · omega
          · have hnext := (pairwise_cons.mp hahead.laid.pairwise).1
              other hother
            have hbounds := hspan.nonempty
            omega
    · rw [packFrom, dif_neg hindex]
      exact ⟨[], rfl, packed_done hahead (by omega)⟩

/-- The items are packed without an access out of range. -/
theorem packTailUnits_spec (items : List Json) :
    ∃ units, packTailUnits items = some units ∧
      Packed items 0 (toolExchangeSpans items) units :=
  packFrom_spec (Nat.le_of_eq (Nat.sub_zero _))
    ⟨laid_toolExchangeSpans items, fun _ _ => Nat.zero_le _⟩

theorem flatten_packTailUnits (items : List Json) :
    (packTailUnits items).map flattenTailUnits = some items := by
  obtain ⟨units, hunits, hpacked⟩ := packTailUnits_spec items
  rw [hunits, map_some, hpacked.flatten, drop_zero]

end Vellum.Proxy

/-
The content filter of the Chat adapter
(`vellum-proxy-runtime/src/adapter.rs`, `ModelContentFilter`): text between
private tags is dropped, a front of a tag at the end of a chunk is held back.
The filter searches whole buffers; a scanner that looks at one position at a
time says what it computes, and does not depend on the chunks.
-/
import Vellum.Library.Incremental
import Vellum.Library.Text

namespace Vellum.Proxy

open List

inductive HiddenContent where
  | visible
  | think
  | toolCall
deriving DecidableEq

structure ModelContentFilter where
  pending : List Char := []
  hidden : HiddenContent := .visible
deriving DecidableEq

namespace ModelContentFilter

def tags : List (List Char) :=
  ["<think>".toList, "</think>".toList, "<tool_call>".toList,
    "</tool_call>".toList, "<function_results>".toList,
    "</function_results>".toList, "<function_result>".toList,
    "</function_result>".toList]

/-- The tags that open a hidden tool protocol. -/
def toolTags : List (List Char) :=
  ["<tool_call>".toList, "<function_results>".toList,
    "<function_result>".toList]

/-- The tags the filter looks for, by what it is hiding. -/
def watched : HiddenContent → List (List Char)
  | .visible => tags
  | .think => toolTags ++ ["</think>".toList]
  | .toolCall =>
    ["</tool_call>".toList, "</function_results>".toList,
      "</function_result>".toList, "</think>".toList] ++ toolTags

/-- What is hidden behind a tag. -/
def afterTag (hidden : HiddenContent) (tag : List Char) : HiddenContent :=
  match hidden with
  | .visible =>
    if tag = "<think>".toList then .think
    else if tag ∈ toolTags then .toolCall
    else .visible
  | .think | .toolCall => if tag ∈ toolTags then .toolCall else .visible

/-- `min_by_key` on the position: the first of the smallest. -/
def firstMin : List (Nat × List Char) → Option (Nat × List Char)
  | [] => none
  | found :: rest =>
    match firstMin rest with
    | none => some found
    | some best => if best.1 < found.1 then some best else some found

def nextOf (text : List Char) (tags : List (List Char)) :
    Option (Nat × List Char) :=
  firstMin (tags.filterMap fun tag =>
    (Text.find tag text).map fun index => (index, tag))

/-- The length of the longest front of a tag that is not the whole tag. -/
def longestPartial : Nat := (tags.map fun tag => tag.length - 1).foldl max 0

/-- The length of the longest end of the text that is the front of a tag. -/
def partialTagSuffix (text : List Char) : Nat :=
  let longest := min longestPartial text.length
  ((List.range' 1 longest).reverse.find? fun length =>
    tags.any fun tag =>
      (text.drop (text.length - length)).isPrefixOf tag).getD 0

def discardHiddenPrefix (text : List Char) : List Char :=
  text.drop (text.length - partialTagSuffix text)

/-- The loop of `drain`.  A round either takes a tag off the pending text or
is the last one; `fuel` bounds the rounds. -/
def drainLoop (finishing : Bool) :
    Nat → ModelContentFilter → List Char → ModelContentFilter × List Char
  | 0, filter, visible => (filter, visible)
  | fuel + 1, filter, visible =>
    match nextOf filter.pending (watched filter.hidden) with
    | some (index, tag) =>
      drainLoop finishing fuel
        { pending := filter.pending.drop (index + tag.length)
          hidden := afterTag filter.hidden tag }
        (match filter.hidden with
          | .visible => visible ++ filter.pending.take index
          | .think | .toolCall => visible)
    | none =>
      match filter.hidden with
      | .visible =>
        let keep :=
          if finishing then 0 else partialTagSuffix filter.pending
        let emit := filter.pending.length - keep
        ({ filter with pending := filter.pending.drop emit },
          visible ++ filter.pending.take emit)
      | .think | .toolCall =>
        ({ filter with
            pending := if finishing then []
              else discardHiddenPrefix filter.pending }, visible)

def drain (filter : ModelContentFilter) (finishing : Bool) :
    ModelContentFilter × List Char :=
  drainLoop finishing (filter.pending.length + 1) filter []

def push (filter : ModelContentFilter) (chunk : List Char) :
    ModelContentFilter × List Char :=
  drain { filter with pending := filter.pending ++ chunk } false

def finish (filter : ModelContentFilter) : ModelContentFilter × List Char :=
  drain filter true

/-- Push the chunks one after the other and concatenate what they show. -/
def pushAll (filter : ModelContentFilter) :
    List (List Char) → ModelContentFilter × List Char
  | [] => (filter, [])
  | chunk :: chunks =>
    let first := filter.push chunk
    let rest := pushAll first.1 chunks
    (rest.1, first.2 ++ rest.2)

end ModelContentFilter

def sanitizeModelContent (text : List Char) : List Char :=
  let pushed := ({} : ModelContentFilter).push text
  pushed.2 ++ pushed.1.finish.2

namespace ModelContentFilter

/-- A text that could be the front of a tag. -/
def isPartial (text : List Char) : Bool :=
  text.length ≤ longestPartial && tags.any fun tag => text.isPrefixOf tag

/-- The scanner: a tag at this position, the front of a tag, or one
character. -/
def scan (hidden : HiddenContent) :
    List Char → Option (List Char × HiddenContent × List Char)
  | [] => none
  | c :: rest =>
    match (watched hidden).find? (·.isPrefixOf (c :: rest)) with
    | some tag =>
      some ([], afterTag hidden tag, (c :: rest).drop tag.length)
    | none =>
      if isPartial (c :: rest) then none
      else some (if hidden = .visible then [c] else [], hidden, rest)

theorem watched_subset (hidden : HiddenContent) :
    ∀ tag ∈ watched hidden, tag ∈ tags := by
  cases hidden <;> decide

theorem tag_shape : ∀ tag ∈ tags, tag.head? = some '<' ∧
    '<' ∉ tag.tail ∧ 0 < tag.length ∧
    tag.length ≤ longestPartial + 1 := by
  decide

theorem tags_prefix_free : ∀ tag ∈ tags, ∀ other ∈ tags,
    tag.isPrefixOf other = true → tag = other := by
  decide

variable (c : Char) {text : List Char} (rest : List Char) {tag : List Char}

theorem find?_watched {hidden : HiddenContent}
    (hfind : (watched hidden).find? (·.isPrefixOf text) = some tag) :
    tag ∈ tags ∧ tag <+: text := by
  constructor
  · exact watched_subset hidden tag (mem_of_find?_eq_some hfind)
  · have hprefix := find?_some hfind
    exact List.isPrefixOf_iff_prefix.mp hprefix

/-- A longer text has the same tag at its front. -/
theorem find?_watched_append {hidden : HiddenContent}
    (hfind : (watched hidden).find? (·.isPrefixOf text) = some tag)
    (more : List Char) :
    (watched hidden).find? (·.isPrefixOf (text ++ more)) = some tag := by
  have htag := find?_watched hfind
  have hlong : tag <+: text ++ more := htag.2.trans (prefix_append ..)
  cases hnew : (watched hidden).find? (·.isPrefixOf (text ++ more)) with
  | none =>
    have hnot := find?_eq_none.mp hnew tag
      (mem_of_find?_eq_some hfind)
    exact absurd (List.isPrefixOf_iff_prefix.mpr hlong) hnot
  | some other =>
    have hother := find?_watched hnew
    rcases prefix_or_prefix_of_prefix hlong hother.2 with hle | hle
    · rw [tags_prefix_free tag htag.1 other hother.1
        (List.isPrefixOf_iff_prefix.mpr hle)]
    · rw [tags_prefix_free other hother.1 tag htag.1
        (List.isPrefixOf_iff_prefix.mpr hle)]

theorem isPartial_iff :
    isPartial text = true ↔
      text.length ≤ longestPartial ∧ ∃ tag ∈ tags, text <+: tag := by
  simp [isPartial]

/-- Where no tag stands and none can be completed, none appears when the text
grows. -/
theorem find?_watched_none_append {hidden : HiddenContent}
    (hfind : (watched hidden).find? (·.isPrefixOf text) = none)
    (hincomplete : isPartial text = false) (more : List Char) :
    (watched hidden).find? (·.isPrefixOf (text ++ more)) = none := by
  rw [find?_eq_none] at hfind ⊢
  intro tag htag hprefix
  have hlong := List.isPrefixOf_iff_prefix.mp hprefix
  have hshape := tag_shape tag (watched_subset hidden tag htag)
  rcases prefix_or_prefix_of_prefix hlong (prefix_append text more)
    with hle | hle
  · exact hfind tag htag (List.isPrefixOf_iff_prefix.mpr hle)
  · have hne : text ≠ tag := by
      rintro rfl
      exact hfind text htag (List.isPrefixOf_iff_prefix.mpr hle)
    have hlt : text.length < tag.length :=
      lt_of_le_of_ne hle.length_le fun heq => hne (hle.eq_of_length heq)
    have hyes : isPartial text = true := isPartial_iff.mpr
      ⟨by omega, tag, watched_subset hidden tag htag, hle⟩
    rw [hincomplete] at hyes
    cases hyes

theorem isPartial_append (hincomplete : isPartial text = false)
    (more : List Char) : isPartial (text ++ more) = false := by
  by_contra hlong
  obtain ⟨hlen, tag, htag, hprefix⟩ :=
    isPartial_iff.mp (Bool.not_eq_false _ ▸ hlong)
  have hyes : isPartial text = true := isPartial_iff.mpr
    ⟨by rw [length_append] at hlen; omega, tag, htag,
      (prefix_append text more).trans hprefix⟩
  rw [hincomplete] at hyes
  cases hyes

theorem scan_tag {hidden : HiddenContent}
    (hfind : (watched hidden).find? (·.isPrefixOf text) = some tag) :
    scan hidden text =
      some ([], afterTag hidden tag, text.drop tag.length) := by
  cases text with
  | nil =>
    obtain ⟨htag, hprefix⟩ := find?_watched hfind
    have hshape := tag_shape tag htag
    rw [prefix_nil.mp hprefix] at hshape
    exact absurd hshape.2.2.1 (lt_irrefl 0)
  | cons c rest => simp only [scan, hfind]

theorem scan_cons {hidden : HiddenContent} {c : Char} {rest : List Char}
    (hfind : (watched hidden).find? (·.isPrefixOf (c :: rest)) = none) :
    scan hidden (c :: rest) =
      if isPartial (c :: rest) then none
      else some (if hidden = .visible then [c] else [], hidden, rest) := by
  simp only [scan, hfind]

def scanner : Cutter HiddenContent Char (List Char) where
  cut := scan
  shorter {hidden _ text rest _} hscan := by
    cases hfind : (watched hidden).find? (·.isPrefixOf text) with
    | some tag =>
      obtain ⟨htag, hprefix⟩ := find?_watched hfind
      have hpos := (tag_shape tag htag).2.2.1
      have hle := hprefix.length_le
      rw [scan_tag hfind] at hscan
      cases hscan
      rw [List.length_drop]
      omega
    | none =>
      cases text with
      | nil => cases hscan
      | cons c tail =>
        rw [scan_cons hfind] at hscan
        split at hscan
        · cases hscan
        · cases hscan
          exact Nat.lt_succ_self _
  extend {hidden _ text rest _} hscan more := by
    cases hfind : (watched hidden).find? (·.isPrefixOf text) with
    | some tag =>
      have hle := (find?_watched hfind).2.length_le
      rw [scan_tag hfind] at hscan
      cases hscan
      rw [scan_tag (find?_watched_append hfind more),
        List.drop_append_of_le_length hle]
    | none =>
      cases text with
      | nil => cases hscan
      | cons c tail =>
        rw [scan_cons hfind] at hscan
        split at hscan
        · cases hscan
        · rename_i hincomplete
          cases hscan
          rw [Bool.not_eq_true] at hincomplete
          have hnone := find?_watched_none_append hfind hincomplete more
          have hstill := isPartial_append hincomplete more
          rw [List.cons_append] at hnone hstill ⊢
          rw [scan_cons hnone, hstill]
          rfl

theorem nextOf_cons_tag (text tag : List Char) (tags : List (List Char)) :
    nextOf text (tag :: tags) =
      match Text.find tag text with
      | none => nextOf text tags
      | some index =>
        match nextOf text tags with
        | none => some (index, tag)
        | some best =>
          if best.1 < index then some best else some (index, tag) := by
  cases hfind : Text.find tag text with
  | none => simp [nextOf, hfind]
  | some index =>
    simp only [nextOf, hfind, filterMap_cons, Option.map_some, firstMin]

/-- The search, position by position: a tag that stands here is found, else
the search goes on behind this character. -/
theorem nextOf_cons (tags : List (List Char)) :
    nextOf (c :: rest) tags =
      match tags.find? (·.isPrefixOf (c :: rest)) with
      | some tag => some (0, tag)
      | none => (nextOf rest tags).map fun found => (found.1 + 1, found.2) := by
  induction tags with
  | nil => rfl
  | cons tag tags ih =>
    rw [nextOf_cons_tag, ih, nextOf_cons_tag, Text.find, find?_cons]
    by_cases hhere : tag.isPrefixOf (c :: rest) = true
    · simp only [hhere, ↓reduceIte]
      split
      · rfl
      · simp
    · simp only [hhere]
      cases hfind : tags.find? (·.isPrefixOf (c :: rest)) with
      | some other =>
        cases Text.find tag rest <;> simp
      | none =>
        cases Text.find tag rest with
        | none => simp
        | some index =>
          cases nextOf rest tags with
          | none => simp
          | some best =>
            by_cases hlt : best.1 < index <;> simp [hlt]

/-- Text without a `<` holds no tag. -/
theorem nextOf_eq_none {hidden : HiddenContent} (hplain : '<' ∉ text) :
    nextOf text (watched hidden) = none := by
  induction text with
  | nil => cases hidden <;> rfl
  | cons c rest ih =>
    have hnone : (watched hidden).find? (·.isPrefixOf (c :: rest)) =
        none := by
      rw [find?_eq_none]
      intro tag htag hprefix
      have hhead := (tag_shape tag (watched_subset hidden tag htag)).1
      have hmem := (List.isPrefixOf_iff_prefix.mp hprefix).mem
        (mem_of_head? hhead)
      exact hplain hmem
    rw [nextOf_cons, hnone, ih fun hmem => hplain (mem_cons_of_mem c hmem)]
    rfl

/-- The front of a tag holds no further `<`. -/
theorem isPartial_tail {c : Char} {rest : List Char}
    (hincomplete : isPartial (c :: rest) = true) : '<' ∉ rest := by
  obtain ⟨-, tag, htag, hprefix⟩ := isPartial_iff.mp hincomplete
  obtain ⟨back, hback⟩ := hprefix
  have htail := (tag_shape tag htag).2.1
  rw [← hback, cons_append, tail_cons] at htail
  exact fun hmem => htail (mem_append_left back hmem)

/-- Ends no longer than the rest do not see the first character. -/
theorem find?_suffix_cons {longest : Nat} (hlongest : longest ≤ rest.length) :
    ((List.range' 1 longest).reverse.find? fun length =>
      tags.any fun tag => ((c :: rest).drop
        ((c :: rest).length - length)).isPrefixOf tag) =
    (List.range' 1 longest).reverse.find? fun length =>
      tags.any fun tag => (rest.drop
        (rest.length - length)).isPrefixOf tag := by
  apply find?_congr
  intro length hlength
  rw [mem_reverse, mem_range'_1] at hlength
  have hdrop : (c :: rest).length - length = rest.length - length + 1 := by
    rw [length_cons]
    omega
  rw [hdrop, drop_succ_cons]

/-- The longest end is tried first. -/
theorem find?_suffix_succ (text : List Char) (longest : Nat) :
    ((List.range' 1 (longest + 1)).reverse.find? fun length =>
      tags.any fun tag =>
        (text.drop (text.length - length)).isPrefixOf tag) =
    if tags.any (fun tag =>
      (text.drop (text.length - (longest + 1))).isPrefixOf tag) then
      some (longest + 1)
    else (List.range' 1 longest).reverse.find? fun length =>
      tags.any fun tag =>
        (text.drop (text.length - length)).isPrefixOf tag := by
  rw [List.range'_1_concat, reverse_append, reverse_singleton,
    singleton_append, find?_cons, Nat.add_comm 1]
  split <;> simp_all

/-- What is held back, position by position. -/
theorem partialTagSuffix_cons :
    partialTagSuffix (c :: rest) =
      if isPartial (c :: rest) then (c :: rest).length
      else partialTagSuffix rest := by
  by_cases hshort : (c :: rest).length ≤ longestPartial
  · have hrest : rest.length ≤ longestPartial := Nat.le_of_succ_le hshort
    have hfind := find?_suffix_succ (c :: rest) rest.length
    rw [find?_suffix_cons c rest le_rfl, ← length_cons (a := c),
      Nat.sub_self, drop_zero] at hfind
    have hincomplete : isPartial (c :: rest) =
        tags.any fun tag => (c :: rest).isPrefixOf tag := by
      rw [isPartial, decide_eq_true hshort, Bool.true_and]
    rw [partialTagSuffix, partialTagSuffix, min_eq_right hshort,
      min_eq_right hrest, hfind, hincomplete]
    split <;> rfl
  · have hbound : longestPartial ≤ rest.length := by
      rw [length_cons] at hshort
      omega
    have hincomplete : isPartial (c :: rest) = false := by
      rw [isPartial, decide_eq_false hshort, Bool.false_and]
    rw [partialTagSuffix, partialTagSuffix,
      min_eq_left (Nat.le_of_not_le hshort), min_eq_left hbound,
      find?_suffix_cons c rest hbound, hincomplete]
    rfl

theorem partialTagSuffix_le (text : List Char) :
    partialTagSuffix text ≤ text.length := by
  induction text with
  | nil => decide
  | cons c rest ih =>
    rw [partialTagSuffix_cons]
    split
    · exact le_rfl
    · exact Nat.le_succ_of_le ih

/-- Text in front of a tag is shown, unless something is hidden. -/
def shown (hidden : HiddenContent) (text : List Char) : List Char :=
  if hidden = .visible then text else []

/-- The scanner up to the tag the search finds, or up to what is held back
when it finds none. -/
theorem drain_scanner (hidden : HiddenContent) (text : List Char) :
    (∀ index tag, nextOf text (watched hidden) = some (index, tag) →
      (scanner.drain hidden text).1.flatten =
          shown hidden (text.take index) ++
            (scanner.drain (afterTag hidden tag)
              (text.drop (index + tag.length))).1.flatten ∧
        (scanner.drain hidden text).2 =
          (scanner.drain (afterTag hidden tag)
            (text.drop (index + tag.length))).2) ∧
    (nextOf text (watched hidden) = none →
      (scanner.drain hidden text).1.flatten =
          shown hidden
            (text.take (text.length - partialTagSuffix text)) ∧
        (scanner.drain hidden text).2 =
          (hidden, text.drop (text.length - partialTagSuffix text))) := by
  induction text with
  | nil =>
    have hnone : nextOf [] (watched hidden) = none :=
      nextOf_eq_none not_mem_nil
    rw [hnone, scanner.drain_of_cut_none rfl]
    simp [shown]
  | cons c rest ih =>
    rw [nextOf_cons]
    cases hfind : (watched hidden).find? (·.isPrefixOf (c :: rest)) with
    | some found =>
      -- a tag stands at the front
      rw [scanner.drain_of_cut_some (scan_tag hfind)]
      constructor
      · intro index tag hnext
        cases hnext
        simp [shown]
      · intro hnone
        cases hnone
    | none =>
      have hcut : scanner.cut hidden (c :: rest) = _ := scan_cons hfind
      have hle := partialTagSuffix_le rest
      cases hincomplete : isPartial (c :: rest) with
      | true =>
        -- the front of a tag: nothing behind it can be one
        have hrest : nextOf rest (watched hidden) = none :=
          nextOf_eq_none (isPartial_tail hincomplete)
        rw [hincomplete, if_pos rfl] at hcut
        rw [scanner.drain_of_cut_none hcut, hrest,
          partialTagSuffix_cons, hincomplete]
        simp [shown]
      | false =>
        rw [hincomplete, if_neg Bool.false_ne_true] at hcut
        rw [scanner.drain_of_cut_some hcut, partialTagSuffix_cons,
          hincomplete]
        have hshown (text : List Char) :
            (if hidden = .visible then [c] else []) ++
              shown hidden text = shown hidden (c :: text) := by
          by_cases hvisible : hidden = .visible <;>
            simp [shown, hvisible]
        constructor
        · intro index tag hnext
          obtain ⟨found, hfound, heq⟩ := Option.map_eq_some_iff.mp hnext
          obtain ⟨rfl, rfl⟩ := Prod.mk.inj heq
          obtain ⟨hout, hstate⟩ := ih.1 found.1 found.2 hfound
          have hskip : found.1 + 1 + found.2.length =
              found.1 + found.2.length + 1 := by omega
          rw [flatten_cons, hout, hskip, drop_succ_cons,
            take_succ_cons, ← append_assoc, hshown]
          exact ⟨rfl, hstate⟩
        · intro hnone
          obtain ⟨hout, hstate⟩ := ih.2 (Option.map_eq_none_iff.mp hnone)
          have hlen : (c :: rest).length - partialTagSuffix rest =
              rest.length - partialTagSuffix rest + 1 := by
            rw [length_cons]
            omega
          rw [if_neg Bool.false_ne_true, flatten_cons, hout, hlen,
            drop_succ_cons, take_succ_cons, hshown]
          exact ⟨rfl, hstate⟩

/-- Behind a tag that was found the text is shorter. -/
theorem drop_nextOf_lt {hidden : HiddenContent} {index : Nat}
    (hnext : nextOf text (watched hidden) = some (index, tag)) :
    (text.drop (index + tag.length)).length < text.length := by
  induction text generalizing index with
  | nil =>
    rw [nextOf_eq_none not_mem_nil] at hnext
    cases hnext
  | cons c rest ih =>
    rw [nextOf_cons] at hnext
    split at hnext
    · rename_i found hfind
      cases hnext
      have hpos := (tag_shape tag (find?_watched hfind).1).2.2.1
      rw [length_drop, length_cons]
      omega
    · obtain ⟨found, hfound, heq⟩ := Option.map_eq_some_iff.mp hnext
      obtain ⟨rfl, rfl⟩ := Prod.mk.inj heq
      have hshort := ih hfound
      rw [length_drop] at hshort ⊢
      rw [length_cons]
      omega

theorem drainLoop_eq_drain {fuel : Nat} {filter : ModelContentFilter}
    (hfuel : filter.pending.length < fuel) (visible : List Char) :
    drainLoop false fuel filter visible =
      (⟨(scanner.drain filter.hidden filter.pending).2.2,
          (scanner.drain filter.hidden filter.pending).2.1⟩,
        visible ++
          (scanner.drain filter.hidden filter.pending).1.flatten) := by
  induction fuel generalizing filter visible with
  | zero => omega
  | succ fuel ih =>
    obtain ⟨htag, hnone⟩ := drain_scanner filter.hidden filter.pending
    rw [drainLoop]
    cases hnext : nextOf filter.pending (watched filter.hidden) with
    | some found =>
      obtain ⟨index, tag⟩ := found
      obtain ⟨hout, hstate⟩ := htag index tag hnext
      have hshort := drop_nextOf_lt hnext
      simp only
      rw [ih (by simp only; omega), hout, hstate]
      cases hhidden : filter.hidden <;> simp [shown]
    | none =>
      obtain ⟨hout, hstate⟩ := hnone hnext
      rw [hout, hstate]
      cases hhidden : filter.hidden <;>
        simp [shown, discardHiddenPrefix]

theorem push_eq_drain (filter : ModelContentFilter) (chunk : List Char) :
    filter.push chunk =
      (⟨(scanner.drain filter.hidden (filter.pending ++ chunk)).2.2,
          (scanner.drain filter.hidden (filter.pending ++ chunk)).2.1⟩,
        (scanner.drain filter.hidden
          (filter.pending ++ chunk)).1.flatten) := by
  rw [push, drain, drainLoop_eq_drain (Nat.lt_succ_self _), nil_append]

theorem pushAll_eq_feed (filter : ModelContentFilter)
    (chunks : List (List Char)) :
    filter.pushAll chunks =
      (⟨(scanner.feed filter.hidden filter.pending chunks).2.2,
          (scanner.feed filter.hidden filter.pending chunks).2.1⟩,
        (scanner.feed filter.hidden filter.pending chunks).1.flatten) := by
  induction chunks generalizing filter with
  | nil => rfl
  | cons chunk chunks ih =>
    rw [pushAll, ih, push_eq_drain, Cutter.feed, flatten_append]

theorem pushAll_new (chunks : List (List Char)) :
    ({} : ModelContentFilter).pushAll chunks =
      ({} : ModelContentFilter).push chunks.flatten := by
  have hchunks := pushAll_eq_feed {} chunks
  rw [scanner.feed_eq_drain rfl] at hchunks
  rw [hchunks, push_eq_drain]

/-- However the text is divided into chunks, what the pushes and the finish
show together is the sanitized text. -/
theorem push_chunks_eq_sanitize (chunks : List (List Char)) :
    ((({} : ModelContentFilter).pushAll chunks).2 ++
      (({} : ModelContentFilter).pushAll chunks).1.finish.2) =
      sanitizeModelContent chunks.flatten := by
  rw [sanitizeModelContent, pushAll_new]

end ModelContentFilter

end Vellum.Proxy

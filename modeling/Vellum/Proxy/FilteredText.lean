/-
What the content filter lets through.  Removing a hidden stretch joins the
text on its two sides, so a tag can appear that stood nowhere in the model's
text.  It appears exactly when its front stands directly before a removed
stretch and its back can be read on behind it.
-/
import Vellum.Proxy.ContentFilter

namespace Vellum.Proxy

open List Option

namespace ModelContentFilter

/-- The tag that the filter finds at the front of a text. -/
def tagAt (hidden : HiddenContent) (text : List Char) : Option (List Char) :=
  (watched hidden).find? (·.isPrefixOf text)

/-- What a text shows, tag by tag and letter by letter. -/
inductive Shows : HiddenContent → List Char → List Char → Prop where
  | done {hidden : HiddenContent} : Shows hidden [] []
  | tag {hidden : HiddenContent} {text found visible : List Char}
      (hfound : tagAt hidden text = some found)
      (hrest : Shows (afterTag hidden found) (text.drop found.length) visible) :
      Shows hidden text visible
  | letter {c : Char} {rest visible : List Char}
      (hfound : tagAt .visible (c :: rest) = none)
      (hrest : Shows .visible rest visible) :
      Shows .visible (c :: rest) (c :: visible)
  | skip {hidden : HiddenContent} {c : Char} {rest visible : List Char}
      (hhidden : hidden ≠ .visible)
      (hfound : tagAt hidden (c :: rest) = none)
      (hrest : Shows hidden rest visible) :
      Shows hidden (c :: rest) visible

/-- Behind a front of the text the filter hides `next` and has `rest` still
to read. -/
inductive Passes :
    HiddenContent → List Char → HiddenContent → List Char → Prop where
  | here {hidden : HiddenContent} {text : List Char} :
      Passes hidden text hidden text
  | tag {hidden next : HiddenContent} {text found rest : List Char}
      (hfound : tagAt hidden text = some found)
      (hrest : Passes (afterTag hidden found) (text.drop found.length) next
        rest) :
      Passes hidden text next rest
  | letter {hidden next : HiddenContent} {c : Char} {text rest : List Char}
      (hfound : tagAt hidden (c :: text) = none)
      (hrest : Passes hidden text next rest) :
      Passes hidden (c :: text) next rest

/-- A word can be read at the front of a text, stepping over what is
removed. -/
inductive Reads : HiddenContent → List Char → List Char → Prop where
  | done {hidden : HiddenContent} {text : List Char} : Reads hidden [] text
  | tag {hidden : HiddenContent} {word text found : List Char}
      (hfound : tagAt hidden text = some found)
      (hrest : Reads (afterTag hidden found) word (text.drop found.length)) :
      Reads hidden word text
  | letter {c : Char} {word rest : List Char}
      (hfound : tagAt .visible (c :: rest) = none)
      (hrest : Reads .visible word rest) :
      Reads .visible (c :: word) (c :: rest)
  | skip {hidden : HiddenContent} {c : Char} {word rest : List Char}
      (hhidden : hidden ≠ .visible)
      (hfound : tagAt hidden (c :: rest) = none)
      (hrest : Reads hidden word rest) :
      Reads hidden word (c :: rest)

/-- A tag is interrupted by a removed stretch: its front stands in the text
directly before another tag, its back can be read on from there. -/
def TagAcrossGap (text : List Char) : Prop :=
  ∃ front back gap, front ++ back ∈ tags ∧ front ≠ [] ∧ back ≠ [] ∧
    Passes .visible text .visible (front ++ gap) ∧
    (tagAt .visible gap).isSome = true ∧ Reads .visible back gap

theorem tagAt_nil (hidden : HiddenContent) : tagAt hidden [] = none := by
  cases hidden <;> rfl

variable {text : List Char}

theorem tagAt_eq_some {hidden : HiddenContent} {found : List Char}
    (hfound : tagAt hidden text = some found) : found ∈ tags ∧ found <+: text :=
  find?_watched hfound

theorem tagAt_eq_none {c : Char} (hc : c ≠ '<') (hidden : HiddenContent)
    (rest : List Char) : tagAt hidden (c :: rest) = none := by
  cases hfound : tagAt hidden (c :: rest) with
  | none => rfl
  | some found =>
    obtain ⟨htag, back, hback⟩ := tagAt_eq_some hfound
    obtain ⟨hhead, -, -, -⟩ := tag_shape found htag
    cases found with
    | nil => cases hhead
    | cons first tail =>
      have hfirst := (List.cons.inj hback).1
      rw [hfirst] at hhead
      exact absurd (some.inj hhead) hc

/-- A visible text holds no tag where none stands. -/
theorem not_prefix_of_tagAt {tag : List Char} (htag : tag ∈ tags)
    (hfound : tagAt .visible text = none) : ¬ tag <+: text := by
  intro hfront
  exact find?_eq_none.mp hfound tag htag
    (List.isPrefixOf_iff_prefix.mpr hfront)

/-- A text in which the search finds no tag shows itself, or nothing. -/
theorem shows_of_nextOf {hidden : HiddenContent}
    (hnone : nextOf text (watched hidden) = none) :
    Shows hidden text (shown hidden text) := by
  induction text with
  | nil =>
    have hempty : shown hidden [] = [] := ite_self []
    rw [hempty]
    exact .done
  | cons c rest ih =>
    rw [nextOf_cons] at hnone
    cases hfound : tagAt hidden (c :: rest) with
    | some found =>
      rw [tagAt] at hfound
      rw [hfound] at hnone
      cases hnone
    | none =>
      have hkept := hfound
      rw [tagAt] at hfound
      rw [hfound] at hnone
      have hrest := ih (map_eq_none_iff.mp hnone)
      by_cases hhidden : hidden = .visible
      · subst hhidden
        exact .letter hkept hrest
      · rw [shown, if_neg hhidden] at hrest ⊢
        exact .skip hhidden hkept hrest

/-- What the scanner cannot cut holds no tag. -/
theorem nextOf_of_cut_none {hidden : HiddenContent}
    (hcut : scanner.cut hidden text = none) :
    nextOf text (watched hidden) = none := by
  have hscan : scan hidden text = none := hcut
  cases hfound : (watched hidden).find? (·.isPrefixOf text) with
  | some found =>
    rw [scan_tag hfound] at hscan
    cases hscan
  | none =>
    cases text with
    | nil => exact nextOf_eq_none not_mem_nil
    | cons c rest =>
      rw [scan_cons hfound] at hscan
      split at hscan
      · rename_i hpartial
        rw [nextOf_cons, hfound, nextOf_eq_none (isPartial_tail hpartial)]
        rfl
      · cases hscan

/-- What the scanner cuts off, and then shows of what it has left over. -/
theorem shows_drain (hidden : HiddenContent) (text : List Char) :
    Shows hidden text ((scanner.drain hidden text).1.flatten ++
      shown (scanner.drain hidden text).2.1
        (scanner.drain hidden text).2.2) := by
  induction hidden, text using scanner.drain_induction with
  | stuck hidden text hcut =>
    rw [scanner.drain_of_cut_none hcut]
    exact shows_of_nextOf (nextOf_of_cut_none hcut)
  | step hidden text piece next rest hcut ih =>
    rw [scanner.drain_of_cut_some hcut]
    have hscan : scan hidden text = some (piece, next, rest) := hcut
    cases hfound : (watched hidden).find? (·.isPrefixOf text) with
    | some found =>
      rw [scan_tag hfound] at hscan
      cases hscan
      exact .tag hfound ih
    | none =>
      cases text with
      | nil => cases hscan
      | cons c tail =>
        rw [scan_cons hfound] at hscan
        split at hscan
        · cases hscan
        · cases hscan
          by_cases hhidden : hidden = .visible
          · subst hhidden
            exact .letter hfound ih
          · rw [if_neg hhidden]
            exact .skip hhidden hfound ih

theorem finish_of_nextOf {filter : ModelContentFilter}
    (hnone : nextOf filter.pending (watched filter.hidden) = none) :
    filter.finish.2 = shown filter.hidden filter.pending := by
  rw [finish, drain, drainLoop, hnone]
  cases hhidden : filter.hidden <;> simp [shown]

theorem shows_sanitize (text : List Char) :
    Shows .visible text (sanitizeModelContent text) := by
  have hshows := shows_drain .visible text
  rw [sanitizeModelContent, push_eq_drain, finish_of_nextOf
    (nextOf_of_cut_none (scanner.cut_drain .visible text))]
  exact hshows

namespace Shows

variable {hidden : HiddenContent} {text visible : List Char}

theorem of_tag (hshows : Shows hidden text visible) {found : List Char}
    (hfound : tagAt hidden text = some found) :
    Shows (afterTag hidden found) (text.drop found.length) visible := by
  cases hshows with
  | done => rw [tagAt_nil] at hfound; cases hfound
  | tag hother hrest =>
    rw [hfound] at hother
    cases hother
    exact hrest
  | letter hother | skip _ hother => rw [hfound] at hother; cases hother

variable {word rest : List Char}

theorem of_letter {c : Char} (hshows : Shows .visible (c :: rest) visible)
    (hfound : tagAt .visible (c :: rest) = none) :
    ∃ back, visible = c :: back ∧ Shows .visible rest back := by
  cases hshows with
  | tag hother => rw [hfound] at hother; cases hother
  | letter _ hrest => exact ⟨_, rfl, hrest⟩
  | skip hhidden => exact absurd rfl hhidden

theorem of_skip {c : Char} (hhidden : hidden ≠ .visible)
    (hshows : Shows hidden (c :: rest) visible)
    (hfound : tagAt hidden (c :: rest) = none) : Shows hidden rest visible := by
  cases hshows with
  | tag hother => rw [hfound] at hother; cases hother
  | letter => exact absurd rfl hhidden
  | skip _ _ hrest => exact hrest

section

variable (hshows : Shows hidden text visible)
include hshows

/-- A text shows one thing. -/
theorem unique {other : List Char} (hother : Shows hidden text other) :
    visible = other := by
  induction hshows generalizing other with
  | done =>
    cases hother with
    | done => rfl
    | tag hfound => rw [tagAt_nil] at hfound; cases hfound
  | tag hfound _ ih => exact ih (hother.of_tag hfound)
  | letter hfound _ ih =>
    obtain ⟨back, rfl, hrest⟩ := hother.of_letter hfound
    rw [ih hrest]
  | skip hhidden hfound _ ih => exact ih (of_skip hhidden hother hfound)

/-- What can be read off the text is what it shows first. -/
theorem prefix_of_reads (hreads : Reads hidden word text) :
    word <+: visible := by
  induction hreads generalizing visible with
  | done => exact nil_prefix
  | tag hfound _ ih => exact ih (hshows.of_tag hfound)
  | letter hfound _ ih =>
    obtain ⟨back, rfl, hrest⟩ := hshows.of_letter hfound
    exact prefix_cons_inj _ |>.mpr (ih hrest)
  | skip hhidden hfound _ ih => exact ih (of_skip hhidden hshows hfound)

theorem reads_of_prefix (hfront : word <+: visible) :
    Reads hidden word text := by
  induction hshows generalizing word with
  | done =>
    rw [prefix_nil.mp hfront]
    exact .done
  | tag hfound _ ih => exact .tag hfound (ih hfront)
  | letter hfound _ ih =>
    cases word with
    | nil => exact .done
    | cons first word =>
      obtain ⟨rfl, hrest⟩ := cons_prefix_cons.mp hfront
      exact .letter hfound (ih hrest)
  | skip hhidden hfound _ ih => exact .skip hhidden hfound (ih hfront)

/-- Behind a front of the text the rest of it is shown. -/
theorem of_passes {next : HiddenContent}
    (hpasses : Passes hidden text next rest) :
    ∃ back, Shows next rest back ∧ back <:+ visible := by
  induction hpasses generalizing visible with
  | here => exact ⟨visible, hshows, suffix_refl _⟩
  | tag hfound _ ih => exact ih (hshows.of_tag hfound)
  | letter hfound _ ih =>
    rename_i state next c text rest _
    by_cases hvisible : state = .visible
    · subst hvisible
      obtain ⟨back, rfl, hrest⟩ := hshows.of_letter hfound
      obtain ⟨last, hlast, hsuffix⟩ := ih hrest
      exact ⟨last, hlast, hsuffix.trans (suffix_cons c back)⟩
    · exact ih (of_skip hvisible hshows hfound)

/-- A word that is shown begins at a letter of the text that is shown. -/
theorem exists_start (hword : word ≠ []) (hinside : word <:+: visible) :
    ∃ c rest back, Passes hidden text .visible (c :: rest) ∧
      tagAt .visible (c :: rest) = none ∧
      Shows .visible (c :: rest) back ∧ word <+: back := by
  induction hshows with
  | done => exact absurd (infix_nil.mp hinside) hword
  | tag hfound _ ih =>
    obtain ⟨c, rest, back, hpasses, hstart⟩ := ih hinside
    exact ⟨c, rest, back, .tag hfound hpasses, hstart⟩
  | letter hfound hrest ih =>
    rcases infix_cons_iff.mp hinside with hhere | hlater
    · exact ⟨_, _, _, .here, hfound, .letter hfound hrest, hhere⟩
    · obtain ⟨c, rest, back, hpasses, hstart⟩ := ih hlater
      exact ⟨c, rest, back, .letter hfound hpasses, hstart⟩
  | skip hhidden hfound _ ih =>
    obtain ⟨c, rest, back, hpasses, hstart⟩ := ih hinside
    exact ⟨c, rest, back, .letter hfound hpasses, hstart⟩

end

/-- A word that is shown first stands in the text, or a part of it does and
the next letter of it is behind a tag. -/
theorem prefix_or_gap (hshows : Shows .visible text visible)
    (hfront : word <+: visible) :
    word <+: text ∨ ∃ front back gap, word = front ++ back ∧
      text = front ++ gap ∧ back ≠ [] ∧
      (tagAt .visible gap).isSome = true ∧ Reads .visible back gap := by
  induction text generalizing visible word with
  | nil =>
    cases hshows with
    | done => exact Or.inl hfront
    | tag hfound => rw [tagAt_nil] at hfound; cases hfound
  | cons c rest ih =>
    cases word with
    | nil => exact Or.inl nil_prefix
    | cons first word =>
      cases hfound : tagAt .visible (c :: rest) with
      | some found =>
        refine Or.inr ⟨[], first :: word, c :: rest, rfl, rfl,
          cons_ne_nil _ _, ?_, hshows.reads_of_prefix hfront⟩
        rw [hfound]
        rfl
      | none =>
        obtain ⟨back, rfl, hrest⟩ := hshows.of_letter hfound
        obtain ⟨rfl, hlater⟩ := cons_prefix_cons.mp hfront
        rcases ih hrest hlater with hplain | hgap
        · exact Or.inl (cons_prefix_cons.mpr ⟨rfl, hplain⟩)
        · obtain ⟨front, last, gap, rfl, rfl, hgap⟩ := hgap
          exact Or.inr ⟨first :: front, last, gap, rfl, rfl, hgap⟩

end Shows

theorem reads_letters {front back gap : List Char} (hfront : '<' ∉ front)
    (hreads : Reads .visible back gap) :
    Reads .visible (front ++ back) (front ++ gap) := by
  induction front with
  | nil => exact hreads
  | cons c front ih =>
    rw [mem_cons, not_or] at hfront
    exact .letter (tagAt_eq_none (Ne.symm hfront.1) _ _) (ih hfront.2)

theorem tagAt_front {front back gap : List Char} (htag : front ++ back ∈ tags)
    (hfront : front ≠ []) (hback : back ≠ [])
    (hgap : (tagAt .visible gap).isSome = true) :
    tagAt .visible (front ++ gap) = none := by
  cases hfound : tagAt .visible (front ++ gap) with
  | none => rfl
  | some found =>
    exfalso
    obtain ⟨hknown, hstarts⟩ := tagAt_eq_some hfound
    rcases prefix_or_prefix_of_prefix hstarts
      (prefix_append front gap) with hshort | hlong
    · -- the tag that was found is a front of the interrupted one
      have hinside := hshort.trans (prefix_append front back)
      have hsame := tags_prefix_free found hknown (front ++ back) htag
        (List.isPrefixOf_iff_prefix.mpr hinside)
      rw [hsame] at hshort
      have hlength := hshort.length_le
      rw [length_append] at hlength
      exact hback (eq_nil_of_length_eq_zero (by omega))
    · -- it goes on into the gap, which begins with a `<`
      obtain ⟨other, hother⟩ := isSome_iff_exists.mp hgap
      obtain ⟨hotherTag, last, hlast⟩ := tagAt_eq_some hother
      obtain ⟨hhead, -, -, -⟩ := tag_shape other hotherTag
      obtain ⟨more, rfl⟩ := hlong
      have hmore : more <+: gap := (prefix_append_right_inj front).mp
        hstarts
      obtain ⟨-, htail, -, -⟩ := tag_shape _ hknown
      cases more with
      | nil =>
        rw [append_nil] at hknown
        have hsame := tags_prefix_free front hknown (front ++ back) htag
          (List.isPrefixOf_iff_prefix.mpr (prefix_append front back))
        exact hback (append_right_eq_self.mp hsame.symm)
      | cons c more =>
        have hc : c = '<' := by
          obtain ⟨end_, hend⟩ := hmore
          rw [← hlast] at hend
          cases other with
          | nil => cases hhead
          | cons first tail =>
            rw [(List.cons.inj hend).1]
            exact some.inj hhead
        cases front with
        | nil => exact hfront rfl
        | cons first front =>
          apply htail
          rw [hc, cons_append, tail_cons]
          exact mem_append_right front mem_cons_self

theorem shows_tag_iff {visible : List Char}
    (hshows : Shows .visible text visible) :
    (∃ tag ∈ tags, tag <:+: visible) ↔ TagAcrossGap text := by
  constructor
  · rintro ⟨tag, htag, hinside⟩
    have hne : tag ≠ [] := by
      rintro rfl
      exact absurd (tag_shape [] htag).2.2.1 (Nat.lt_irrefl 0)
    obtain ⟨c, rest, back, hpasses, hstart, hrest, hfront⟩ :=
      hshows.exists_start hne hinside
    rcases hrest.prefix_or_gap hfront with hplain | hgap
    · exact absurd hplain (not_prefix_of_tagAt htag hstart)
    · obtain ⟨front, last, gap, rfl, htext, hlast, hgap, hreads⟩ := hgap
      refine ⟨front, last, gap, htag, ?_, hlast, htext ▸ hpasses, hgap, hreads⟩
      rintro rfl
      rw [htext, nil_append] at hstart
      rw [hstart] at hgap
      cases hgap
  · rintro ⟨front, back, gap, htag, hfront, hback, hpasses, hgap, hreads⟩
    obtain ⟨last, hlast, hsuffix⟩ := hshows.of_passes hpasses
    refine ⟨front ++ back, htag, ?_⟩
    have hstart := tagAt_front htag hfront hback hgap
    have hread : Reads .visible (front ++ back) (front ++ gap) := by
      obtain ⟨-, htail, -, -⟩ := tag_shape _ htag
      cases front with
      | nil => exact absurd rfl hfront
      | cons first front =>
        rw [cons_append, tail_cons, mem_append, not_or]
          at htail
        exact .letter hstart (reads_letters htail.1 hreads)
    exact (hlast.prefix_of_reads hread).isInfix.trans hsuffix.isInfix

theorem nextOf_eq_none_iff :
    nextOf text tags = none ↔ ∀ tag ∈ tags, ¬ tag <:+: text := by
  induction text with
  | nil =>
    constructor
    · intro _ tag htag hinside
      have hpositive := (tag_shape tag htag).2.2.1
      rw [infix_nil.mp hinside] at hpositive
      exact absurd hpositive (Nat.lt_irrefl 0)
    · have hnone : nextOf [] (watched .visible) = none :=
        nextOf_eq_none not_mem_nil
      exact fun _ => hnone
  | cons c rest ih =>
    rw [nextOf_cons]
    cases hfound : tags.find? (·.isPrefixOf (c :: rest)) with
    | some found =>
      have hfront := find?_some hfound
      constructor
      · rintro ⟨⟩
      · intro hnone
        exact absurd (List.isPrefixOf_iff_prefix.mp hfront).isInfix
          (hnone found (mem_of_find?_eq_some hfound))
    | none =>
      rw [map_eq_none_iff, ih]
      have hhere : ∀ tag ∈ tags, ¬ tag <+: c :: rest :=
        fun tag htag => not_prefix_of_tagAt htag hfound
      constructor
      · intro hnone tag htag hinside
        rcases infix_cons_iff.mp hinside with hfront | hlater
        · exact hhere tag htag hfront
        · exact hnone tag htag hlater
      · intro hnone tag htag hinside
        exact hnone tag htag (infix_cons_iff.mpr (Or.inr hinside))

/-- Text without a tag passes the filter as it is. -/
theorem sanitize_of_no_tag (hnone : ∀ tag ∈ tags, ¬ tag <:+: text) :
    sanitizeModelContent text = text := by
  have hshows : Shows .visible text (shown .visible text) :=
    shows_of_nextOf (nextOf_eq_none_iff.mpr hnone)
  exact (shows_sanitize text).unique hshows

/-- What a model's text shows that comes in chunks. -/
def visibleText (chunks : List (List Char)) : List Char :=
  let pushed := ({} : ModelContentFilter).pushAll chunks
  pushed.2 ++ pushed.1.finish.2

/-- The visible text of a model's text, in whatever chunks it comes, holds no
tag and passes the filter again as it is, exactly when no tag is interrupted
by a removed stretch. -/
theorem visible_text_clean_iff (chunks : List (List Char)) :
    visibleText chunks = sanitizeModelContent chunks.flatten ∧
      ((∀ tag ∈ tags, ¬ tag <:+: visibleText chunks) ∧
          sanitizeModelContent (visibleText chunks) = visibleText chunks ↔
        ¬ TagAcrossGap chunks.flatten) := by
  have hvisible : visibleText chunks =
      sanitizeModelContent chunks.flatten := by
    rw [visibleText, sanitizeModelContent, pushAll_new]
  have hiff := shows_tag_iff (shows_sanitize chunks.flatten)
  refine ⟨hvisible, ?_⟩
  rw [hvisible, ← hiff]
  constructor
  · rintro ⟨hnone, -⟩ ⟨tag, htag, hinside⟩
    exact hnone tag htag hinside
  · intro hclean
    have hnone : ∀ tag ∈ tags,
        ¬ tag <:+: sanitizeModelContent chunks.flatten :=
      fun tag htag hinside => hclean ⟨tag, htag, hinside⟩
    exact ⟨hnone, sanitize_of_no_tag hnone⟩

/-- The stray closing tag is removed, and the letters around it join to an
opening tag; filtering again hides what follows. -/
theorem split_tag_is_joined :
    sanitizeModelContent "<th</think>ink>plan".toList = "<think>plan".toList ∧
      "<think>".toList <:+: sanitizeModelContent "<th</think>ink>plan".toList ∧
      sanitizeModelContent
        (sanitizeModelContent "<th</think>ink>plan".toList) = [] := by
  have hjoined : sanitizeModelContent "<th</think>ink>plan".toList =
      "<think>plan".toList := by
    decide
  rw [hjoined]
  exact ⟨rfl, ⟨[], "plan".toList, rfl⟩, by decide⟩

end ModelContentFilter

end Vellum.Proxy

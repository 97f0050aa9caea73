/-
What the normalization of patch delimiters leaves as it is (`adapter.rs`).  The
patch is split with `lines` and joined with line feeds, so besides the two
delimiter lines it also changes every line that ends in a carriage return and a
line feed.
-/
import Vellum.Library.Lines
import Vellum.Proxy.ToolContext

namespace Vellum.Proxy

open List

open Text (Line splitLines)

def beginStars : List Char := "*** Begin Patch ***".toList
def beginBare : List Char := "*** Begin Patch".toList
def endStars : List Char := "*** End Patch ***".toList
def endBare : List Char := "*** End Patch".toList

/-- Give the first line that is not blank another body, if it trims to
`found`. -/
def replaceFirstBody (found replacement : List Char) : List Line → List Line
  | [] => []
  | line :: rest =>
    if Text.isBlank line.body then
      line :: replaceFirstBody found replacement rest
    else if Text.trim line.body = found then
      { line with body := replacement } :: rest
    else line :: rest

/-- Replace the delimiters of a patch. -/
def replaceDelimiters (lines : List Line) : List Line :=
  (replaceFirstBody endStars endBare
    (replaceFirstBody beginStars beginBare lines).reverse).reverse

/-- The patch with its delimiters replaced and every other byte as it was. -/
def delimitersReplaced (patch : String) : String :=
  String.ofList
    ((replaceDelimiters (splitLines patch.toList)).flatMap Line.text)

theorem map_body_replaceFirstBody (found replacement : List Char)
    (lines : List Line) :
    (replaceFirstBody found replacement lines).map Line.body =
      replaceFirstLine found replacement (lines.map Line.body) := by
  induction lines with
  | nil => rfl
  | cons line rest ih =>
    rw [replaceFirstBody, map_cons, replaceFirstLine]
    split
    · rw [map_cons, ih]
    · split <;> rfl

variable {found : List Char} (lines : List Line)

theorem map_body_replaceDelimiters :
    (replaceDelimiters lines).map Line.body =
      (replaceFirstLine endStars endBare
        (replaceFirstLine beginStars beginBare
          (lines.map Line.body)).reverse).reverse := by
  rw [replaceDelimiters, map_reverse, map_body_replaceFirstBody,
    map_reverse, map_body_replaceFirstBody]

/-- What may become of a line: its ending stays, and its body stays or becomes
a bare delimiter. -/
structure Kept (old new : Line) : Prop where
  ending : new.ending = old.ending
  body : new.body = old.body ∨
    ¬ Text.isBlank old.body ∧ (new.body = beginBare ∨ new.body = endBare)

theorem Kept.refl (line : Line) : Kept line line := ⟨rfl, Or.inl rfl⟩

theorem not_blank_bare {body : List Char}
    (hbare : body = beginBare ∨ body = endBare) : Text.isBlank body = false := by
  rcases hbare with rfl | rfl <;> decide

theorem Kept.isBlank_eq {old new : Line} (hkept : Kept old new) :
    Text.isBlank new.body = Text.isBlank old.body := by
  rcases hkept.body with hsame | ⟨hvisible, hbare⟩
  · rw [hsame]
  · rw [not_blank_bare hbare, Bool.eq_false_iff.mpr hvisible]

theorem Kept.trans {first second third : Line} (hfirst : Kept first second)
    (hsecond : Kept second third) : Kept first third := by
  refine ⟨hsecond.ending.trans hfirst.ending, ?_⟩
  rcases hsecond.body with hsame | ⟨hvisible, hbare⟩
  · rw [hsame]
    exact hfirst.body
  · rw [hfirst.isBlank_eq] at hvisible
    exact Or.inr ⟨hvisible, hbare⟩

theorem kept_replaceFirstBody (found : List Char) {replacement : List Char}
    (hbare : replacement = beginBare ∨ replacement = endBare)
    (lines : List Line) :
    List.Forall₂ Kept lines (replaceFirstBody found replacement lines) := by
  induction lines with
  | nil => exact List.Forall₂.nil
  | cons line rest ih =>
    rw [replaceFirstBody]
    split
    · exact List.Forall₂.cons (Kept.refl line) ih
    · rename_i hvisible
      split
      · exact List.Forall₂.cons ⟨rfl, Or.inr ⟨hvisible, hbare⟩⟩
          (List.forall₂_same.mpr fun other _ => Kept.refl other)
      · exact List.forall₂_same.mpr fun other _ => Kept.refl other

theorem forall₂_kept_trans {first second third : List Line}
    (hfirst : List.Forall₂ Kept first second)
    (hsecond : List.Forall₂ Kept second third) :
    List.Forall₂ Kept first third := by
  induction hfirst generalizing third with
  | nil => exact hsecond
  | cons hhead _ ih =>
    cases hsecond with
    | cons hnext hrest =>
      exact List.Forall₂.cons (hhead.trans hnext) (ih hrest)

theorem kept_closed (opened : List Line) :
    List.Forall₂ Kept opened
      (replaceFirstBody endStars endBare opened.reverse).reverse := by
  rw [← List.forall₂_reverse_iff, reverse_reverse]
  exact kept_replaceFirstBody endStars (Or.inr rfl) opened.reverse

theorem kept_replaceDelimiters :
    List.Forall₂ Kept lines (replaceDelimiters lines) :=
  forall₂_kept_trans (kept_replaceFirstBody beginStars (Or.inl rfl) lines)
    (kept_closed _)

theorem map_ending_replaceDelimiters :
    (replaceDelimiters lines).map Line.ending = lines.map Line.ending := by
  have hsame : ∀ {old new : List Line}, List.Forall₂ Kept old new →
      new.map Line.ending = old.map Line.ending := by
    intro old new hkept
    induction hkept with
    | nil => rfl
    | cons hhead _ ih => rw [map_cons, map_cons, hhead.ending, ih]
  exact hsame (kept_replaceDelimiters lines)

theorem formed_of_bare {line : Line}
    (hbare : line.body = beginBare ∨ line.body = endBare) : line.Formed := by
  have hbody : '\n' ∉ line.body ∧ line.body.getLast? ≠ some '\r' ∧
      line.body ≠ [] := by
    rcases hbare with hbegin | hend
    · rw [hbegin]
      decide
    · rw [hend]
      decide
  exact ⟨hbody.1, fun _ => hbody.2.1, fun _ => hbody.2.2⟩

theorem Kept.formed {old new : Line} (hkept : Kept old new)
    (hformed : old.Formed) : new.Formed := by
  rcases hkept.body with hsame | ⟨-, hbare⟩
  · obtain ⟨body, ending⟩ := new
    obtain rfl : ending = old.ending := hkept.ending
    obtain rfl : body = old.body := hsame
    exact hformed
  · exact formed_of_bare hbare

theorem formed_of_kept {old new : List Line}
    (hkept : List.Forall₂ Kept old new) (hformed : Text.Formed old) :
    Text.Formed new := by
  induction hkept with
  | nil => trivial
  | cons hhead htail ih =>
    obtain ⟨hline, hending, hrest⟩ := hformed
    refine ⟨hhead.formed hline, ?_, ih hrest⟩
    intro hne
    rw [hhead.ending]
    apply hending
    rintro rfl
    cases htail
    exact hne rfl

theorem endsTerminated_replaceDelimiters :
    Text.endsTerminated (replaceDelimiters lines) =
      Text.endsTerminated lines := by
  have hlast : ∀ lines : List Line, Text.endsTerminated lines =
      (lines.map Line.ending).getLast?.any
        fun ending => decide (ending ≠ .none) := by
    intro lines
    rw [Text.endsTerminated, getLast?_map, Option.any_map]
  rw [hlast, hlast, map_ending_replaceDelimiters]

/-- The normalized patch is the lines with a line feed for every
terminator. -/
theorem normalizePatchDelimiters_eq (patch : String) :
    normalizePatchDelimiters patch =
      String.ofList
        ((replaceDelimiters (splitLines patch.toList)).flatMap Line.lfText) := by
  have hformed := Text.formed_splitLines patch.toList
  have hfeed : patch.toList.getLast? = some '\n' ↔
      Text.endsTerminated (replaceDelimiters (splitLines patch.toList)) := by
    rw [endsTerminated_replaceDelimiters,
      ← Text.getLast?_flatMap_eq_feed_iff hformed, Text.flatMap_splitLines]
  rw [← Text.joinLines_map_body
    (formed_of_kept (kept_replaceDelimiters _) hformed),
    map_body_replaceDelimiters, ← Text.lines_eq_map_body,
    normalizePatchDelimiters]
  congr 1
  exact if_congr hfeed rfl rfl

theorem normalize_eq_delimitersReplaced_iff (patch : String) :
    normalizePatchDelimiters patch = delimitersReplaced patch ↔
      ¬ ['\r', '\n'] <:+: patch.toList := by
  rw [normalizePatchDelimiters_eq, delimitersReplaced, String.ofList_inj,
    Text.flatMap_lfText_eq_iff, ← Text.exists_crlf_splitLines_iff]
  have hending : ∀ lines : List Line,
      (∀ line ∈ lines, line.ending ≠ .crlf) ↔
        .crlf ∉ lines.map Line.ending := by
    intro lines
    simp
  rw [hending, map_ending_replaceDelimiters]
  simp

/-- The first line that is not blank does not trim to `found`. -/
def Settled (found : List Char) : List Line → Prop
  | [] => True
  | line :: rest =>
    if Text.isBlank line.body then Settled found rest
    else Text.trim line.body ≠ found

theorem replaceFirstBody_of_settled (replacement : List Char)
    {lines : List Line} (hsettled : Settled found lines) :
    replaceFirstBody found replacement lines = lines := by
  induction lines with
  | nil => rfl
  | cons line rest ih =>
    rw [Settled] at hsettled
    rw [replaceFirstBody]
    split
    · rename_i hblank
      rw [if_pos hblank] at hsettled
      rw [ih hsettled]
    · rename_i hvisible
      rw [if_neg hvisible] at hsettled
      rw [if_neg hsettled]

theorem settled_replaceFirstBody {replacement : List Char}
    (hvisible : Text.isBlank replacement = false)
    (hother : Text.trim replacement ≠ found) (lines : List Line) :
    Settled found (replaceFirstBody found replacement lines) := by
  induction lines with
  | nil => trivial
  | cons line rest ih =>
    rw [replaceFirstBody]
    split
    · rename_i hblank
      rw [Settled, if_pos hblank]
      exact ih
    · rename_i hline
      split
      · rw [Settled, if_neg (by simp [hvisible])]
        exact hother
      · rename_i hkeep
        rw [Settled, if_neg hline]
        exact hkeep

theorem Settled.of_kept {old new : List Line}
    (hkept : List.Forall₂ Kept old new)
    (hother : Text.trim beginBare ≠ found ∧ Text.trim endBare ≠ found)
    (hsettled : Settled found old) : Settled found new := by
  induction hkept with
  | nil => trivial
  | cons hhead _ ih =>
    rw [Settled] at hsettled ⊢
    rw [hhead.isBlank_eq]
    split
    · rename_i hblank
      rw [if_pos hblank] at hsettled
      exact ih hsettled
    · rename_i hvisible
      rw [if_neg hvisible] at hsettled
      rcases hhead.body with hsame | ⟨-, hbegin | hend⟩
      · rw [hsame]
        exact hsettled
      · rw [hbegin]
        exact hother.1
      · rw [hend]
        exact hother.2

theorem replaceDelimiters_replaceDelimiters :
    replaceDelimiters (replaceDelimiters lines) = replaceDelimiters lines := by
  have hopened : Settled beginStars (replaceDelimiters lines) :=
    (settled_replaceFirstBody (by decide) (by decide) lines).of_kept
      (kept_closed _) (by decide)
  have hclosed : Settled endStars (replaceDelimiters lines).reverse := by
    rw [replaceDelimiters, reverse_reverse]
    exact settled_replaceFirstBody (by decide) (by decide) _
  rw [replaceDelimiters, replaceFirstBody_of_settled beginBare hopened,
    replaceFirstBody_of_settled endBare hclosed, reverse_reverse]

theorem normalize_delimitersReplaced {patch : String}
    (hsame : normalizePatchDelimiters patch = delimitersReplaced patch) :
    normalizePatchDelimiters (delimitersReplaced patch) =
      delimitersReplaced patch := by
  have hlines : splitLines (delimitersReplaced patch).toList =
      replaceDelimiters (splitLines patch.toList) := by
    rw [delimitersReplaced, String.toList_ofList]
    exact Text.splitLines_flatMap
      (formed_of_kept (kept_replaceDelimiters _) (Text.formed_splitLines _))
  rw [normalizePatchDelimiters_eq, hlines, replaceDelimiters_replaceDelimiters,
    ← normalizePatchDelimiters_eq]
  exact hsame

/-- Nothing but the delimiters changes, and nothing changes twice, exactly if
the patch has no line that ends in a carriage return and a line feed. -/
theorem normalize_changes_delimiters_only_iff (patch : String) :
    (normalizePatchDelimiters patch = delimitersReplaced patch ∧
        normalizePatchDelimiters (normalizePatchDelimiters patch) =
          normalizePatchDelimiters patch) ↔
      ¬ ['\r', '\n'] <:+: patch.toList := by
  rw [← normalize_eq_delimitersReplaced_iff]
  constructor
  · exact And.left
  · intro hsame
    refine ⟨hsame, ?_⟩
    rw [hsame]
    exact normalize_delimitersReplaced hsame

/-- A patch with one content line that ends in both characters. -/
def windowsPatch : String :=
  "*** Begin Patch\n*** Add File: a.txt\n+one\r\n*** End Patch\n"

/-- The line is rewritten although both delimiters are bare already. -/
theorem windows_line_is_rewritten :
    ¬ ∀ patch, normalizePatchDelimiters patch = delimitersReplaced patch := by
  intro hclaim
  have hsame : normalizePatchDelimiters windowsPatch =
      delimitersReplaced windowsPatch := hclaim windowsPatch
  exact absurd hsame (by decide +kernel)

end Vellum.Proxy

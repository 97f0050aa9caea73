/-
The lines of a text with their terminators.  `str::lines` gives the bodies
only; a text is put together again from the lines as they end, and comes out
with every terminator a line feed when the bodies are joined instead.
-/
import Vellum.Library.Text

namespace Vellum

open List

namespace Text

/-- How a line ends. -/
inductive LineEnding where
  | none
  | lf
  | crlf
deriving Repr, DecidableEq

def LineEnding.text : LineEnding → List Char
  | .none => []
  | .lf => ['\n']
  | .crlf => ['\r', '\n']

/-- The same ending without its carriage return. -/
def LineEnding.toLf : LineEnding → LineEnding
  | .none => .none
  | .lf => .lf
  | .crlf => .lf

structure Line where
  body : List Char
  ending : LineEnding

def Line.text (line : Line) : List Char := line.body ++ line.ending.text

def Line.lfText (line : Line) : List Char :=
  line.body ++ line.ending.toLf.text

/-- The line `current` when its line feed is reached. -/
def endedLine (current : List Char) : Line :=
  if current.getLast? = some '\r' then ⟨current.dropLast, .crlf⟩
  else ⟨current, .lf⟩

/-- The lines of `current ++ text`, where `current` holds no line feed. -/
def splitLinesFrom (current : List Char) : List Char → List Line
  | [] => if current = [] then [] else [⟨current, .none⟩]
  | c :: rest =>
    if c = '\n' then endedLine current :: splitLinesFrom [] rest
    else splitLinesFrom (current ++ [c]) rest

def splitLines (text : List Char) : List Line := splitLinesFrom [] text

theorem body_endedLine (current : List Char) :
    (endedLine current).body = stripCr current := by
  by_cases hreturn : current.getLast? = some '\r' <;>
    simp [endedLine, stripCr, hreturn]

theorem text_endedLine (current : List Char) :
    (endedLine current).text = current ++ ['\n'] := by
  by_cases hreturn : current.getLast? = some '\r'
  · obtain ⟨front, rfl⟩ := getLast?_eq_some_iff.mp hreturn
    simp [endedLine, Line.text, LineEnding.text]
  · simp [endedLine, Line.text, LineEnding.text, hreturn]

theorem linesFrom_eq_map_body (current text : List Char) :
    linesFrom current text = (splitLinesFrom current text).map Line.body := by
  induction text generalizing current with
  | nil => by_cases hcurrent : current = [] <;>
      simp [linesFrom, splitLinesFrom, hcurrent]
  | cons c rest ih =>
    by_cases hfeed : c = '\n'
    · rw [linesFrom, splitLinesFrom, if_pos hfeed, if_pos hfeed,
        map_cons, body_endedLine, ih]
    · rw [linesFrom, splitLinesFrom, if_neg hfeed, if_neg hfeed, ih]

theorem lines_eq_map_body (text : List Char) :
    lines text = (splitLines text).map Line.body :=
  linesFrom_eq_map_body [] text

theorem flatMap_splitLinesFrom (current text : List Char) :
    (splitLinesFrom current text).flatMap Line.text = current ++ text := by
  induction text generalizing current with
  | nil => by_cases hcurrent : current = [] <;>
      simp [splitLinesFrom, hcurrent, Line.text, LineEnding.text]
  | cons c rest ih =>
    by_cases hfeed : c = '\n'
    · rw [splitLinesFrom, if_pos hfeed, flatMap_cons, text_endedLine, ih,
        hfeed, append_assoc]
      rfl
    · rw [splitLinesFrom, if_neg hfeed, ih, append_assoc]
      rfl

theorem flatMap_splitLines (text : List Char) :
    (splitLines text).flatMap Line.text = text :=
  flatMap_splitLinesFrom [] text

/-- The body and the ending of a line can be told apart. -/
structure Line.Formed (line : Line) : Prop where
  feed : '\n' ∉ line.body
  carriage : line.ending = .lf → line.body.getLast? ≠ some '\r'
  visible : line.ending = .none → line.body ≠ []

/-- Lines of one text: only the last may be without a terminator. -/
def Formed : List Line → Prop
  | [] => True
  | line :: rest =>
    line.Formed ∧ (rest ≠ [] → line.ending ≠ .none) ∧ Formed rest

variable {current : List Char} {line : Line}

theorem formed_endedLine (hcurrent : '\n' ∉ current) :
    (endedLine current).Formed ∧ (endedLine current).ending ≠ .none := by
  by_cases hreturn : current.getLast? = some '\r'
  · rw [endedLine, if_pos hreturn]
    refine ⟨⟨fun hmem => hcurrent (mem_of_mem_dropLast hmem), ?_, ?_⟩, ?_⟩
    · rintro ⟨⟩
    · rintro ⟨⟩
    · rintro ⟨⟩
  · rw [endedLine, if_neg hreturn]
    refine ⟨⟨hcurrent, fun _ => hreturn, ?_⟩, ?_⟩
    · rintro ⟨⟩
    · rintro ⟨⟩

theorem formed_splitLinesFrom (hcurrent : '\n' ∉ current) (text : List Char) :
    Formed (splitLinesFrom current text) := by
  induction text generalizing current with
  | nil =>
    by_cases hempty : current = []
    · rw [splitLinesFrom, if_pos hempty]
      trivial
    · rw [splitLinesFrom, if_neg hempty]
      refine ⟨⟨hcurrent, ?_, fun _ => hempty⟩, ?_, trivial⟩
      · rintro ⟨⟩
      · exact fun hrest => absurd rfl hrest
  | cons c rest ih =>
    by_cases hfeed : c = '\n'
    · obtain ⟨hline, hending⟩ := formed_endedLine hcurrent
      rw [splitLinesFrom, if_pos hfeed]
      exact ⟨hline, fun _ => hending, ih not_mem_nil⟩
    · rw [splitLinesFrom, if_neg hfeed]
      apply ih
      intro hmem
      rcases mem_append.mp hmem with hold | hnew
      · exact hcurrent hold
      · exact hfeed (mem_singleton.mp hnew).symm

theorem formed_splitLines (text : List Char) : Formed (splitLines text) :=
  formed_splitLinesFrom not_mem_nil text

theorem splitLinesFrom_append {body : List Char} (hbody : '\n' ∉ body)
    (current rest : List Char) :
    splitLinesFrom current (body ++ rest) =
      splitLinesFrom (current ++ body) rest := by
  induction body generalizing current with
  | nil => rw [nil_append, append_nil]
  | cons c body ih =>
    have hhead : c ≠ '\n' := fun h => hbody (h ▸ mem_cons_self)
    rw [cons_append, splitLinesFrom, if_neg hhead,
      ih (fun hmem => hbody (mem_cons_of_mem c hmem)),
      append_assoc, singleton_append]

theorem splitLines_line_append (hline : line.Formed)
    (hending : line.ending ≠ .none) (rest : List Char) :
    splitLines (line.text ++ rest) = line :: splitLines rest := by
  obtain ⟨body, ending⟩ := line
  cases ending with
  | none => exact absurd rfl hending
  | lf =>
    change splitLinesFrom [] (body ++ ['\n'] ++ rest) = _
    rw [append_assoc, splitLinesFrom_append hline.feed, nil_append,
      singleton_append, splitLinesFrom, if_pos rfl, endedLine,
      if_neg (hline.carriage rfl), splitLines]
  | crlf =>
    have hreturn : '\n' ∉ body ++ ['\r'] := by
      intro hmem
      rcases mem_append.mp hmem with hold | hnew
      · exact hline.feed hold
      · exact absurd (mem_singleton.mp hnew) (by decide)
    have htext : Line.text ⟨body, .crlf⟩ ++ rest =
        (body ++ ['\r']) ++ '\n' :: rest := by
      simp [Line.text, LineEnding.text]
    rw [htext, splitLines, splitLinesFrom_append hreturn, nil_append,
      splitLinesFrom, if_pos rfl, endedLine,
      if_pos getLast?_concat, dropLast_concat, splitLines]

theorem splitLines_flatMap {lines : List Line} (hformed : Formed lines) :
    splitLines (lines.flatMap Line.text) = lines := by
  induction lines with
  | nil => rfl
  | cons line rest ih =>
    obtain ⟨hline, hending, hrest⟩ := hformed
    rw [flatMap_cons]
    by_cases hnone : line.ending = .none
    · have hempty : rest = [] := by
        by_contra hne
        exact hending hne hnone
      obtain ⟨body, ending⟩ := line
      cases hnone
      rw [hempty, flatMap_nil, append_nil, Line.text,
        LineEnding.text, splitLines, splitLinesFrom_append hline.feed,
        splitLinesFrom, nil_append, if_neg (hline.visible rfl)]
    · rw [splitLines_line_append hline hnone, ih hrest]

/-- The last line has a terminator. -/
def endsTerminated (lines : List Line) : Bool :=
  lines.getLast?.any fun line => decide (line.ending ≠ .none)

theorem Line.Formed.text_ne_nil (hline : line.Formed) : line.text ≠ [] := by
  obtain ⟨body, ending⟩ := line
  cases ending with
  | none => simpa [Line.text, LineEnding.text] using hline.visible rfl
  | lf => simp [Line.text, LineEnding.text]
  | crlf => simp [Line.text, LineEnding.text]

theorem getLast?_text_eq_feed_iff (hline : line.Formed) :
    line.text.getLast? = some '\n' ↔ line.ending ≠ .none := by
  obtain ⟨body, ending⟩ := line
  cases ending with
  | none =>
    refine iff_of_false ?_ (by simp)
    intro hlast
    rw [Line.text, LineEnding.text, append_nil] at hlast
    exact hline.feed (mem_of_getLast? hlast)
  | lf => simp [Line.text, LineEnding.text]
  | crlf => simp [Line.text, LineEnding.text]

theorem getLast?_flatMap_eq_feed_iff {lines : List Line}
    (hformed : Formed lines) :
    (lines.flatMap Line.text).getLast? = some '\n' ↔ endsTerminated lines := by
  induction lines with
  | nil => simp [endsTerminated]
  | cons line rest ih =>
    obtain ⟨hline, -, hrest⟩ := hformed
    cases rest with
    | nil =>
      rw [flatMap_cons, flatMap_nil, append_nil,
        getLast?_text_eq_feed_iff hline]
      simp [endsTerminated]
    | cons next rest =>
      have hne : (next :: rest).flatMap Line.text ≠ [] := by
        rw [flatMap_cons]
        exact append_ne_nil_of_left_ne_nil hrest.1.text_ne_nil _
      rw [flatMap_cons, getLast?_append_of_ne_nil _ hne,
        ih hrest, endsTerminated, endsTerminated, getLast?_cons_cons]

theorem joinLines_map_body {lines : List Line} (hformed : Formed lines) :
    (if endsTerminated lines then joinLines (lines.map Line.body) ++ ['\n']
      else joinLines (lines.map Line.body)) = lines.flatMap Line.lfText := by
  induction lines with
  | nil => rfl
  | cons line rest ih =>
    obtain ⟨-, hending, hrest⟩ := hformed
    cases rest with
    | nil =>
      obtain ⟨body, ending⟩ := line
      cases ending <;>
        simp [endsTerminated, joinLines, Line.lfText, LineEnding.toLf,
          LineEnding.text]
    | cons next rest =>
      have hlf : line.lfText = line.body ++ ['\n'] := by
        obtain ⟨body, ending⟩ := line
        cases ending with
        | none => exact absurd rfl (hending (by simp))
        | lf => rfl
        | crlf => rfl
      have hrest := ih hrest
      have hsame : endsTerminated (line :: next :: rest) =
          endsTerminated (next :: rest) := by
        rw [endsTerminated, endsTerminated, getLast?_cons_cons]
      rw [flatMap_cons, ← hrest, hlf, hsame]
      by_cases hends : endsTerminated (next :: rest) <;>
        simp [hends, joinLines]

/-- Joining loses one character for each carriage return of an ending. -/
theorem length_flatMap_lfText (lines : List Line) :
    (lines.flatMap Line.lfText).length +
        lines.countP (fun line => decide (line.ending = .crlf)) =
      (lines.flatMap Line.text).length := by
  induction lines with
  | nil => rfl
  | cons line rest ih =>
    rw [flatMap_cons, flatMap_cons, length_append,
      length_append, countP_cons, ← ih]
    obtain ⟨body, ending⟩ := line
    cases ending <;>
      simp [Line.lfText, Line.text, LineEnding.toLf, LineEnding.text] <;> omega

theorem flatMap_lfText_eq_iff (lines : List Line) :
    lines.flatMap Line.lfText = lines.flatMap Line.text ↔
      ∀ line ∈ lines, line.ending ≠ .crlf := by
  constructor
  · intro heq
    have hlength := length_flatMap_lfText lines
    rw [heq] at hlength
    have hcount := Nat.add_eq_left.mp hlength
    simpa using countP_eq_zero.mp hcount
  · intro hnone
    rw [flatMap_def, flatMap_def]
    congr 1
    apply map_congr_left
    intro line hline
    have hending := hnone line hline
    obtain ⟨body, ending⟩ := line
    cases ending with
    | none => rfl
    | lf => rfl
    | crlf => exact absurd rfl hending

/-- A line feed behind a line: either it ends the line in both characters, or
the two characters come later. -/
theorem crlf_infix_iff (hcurrent : '\n' ∉ current) (rest : List Char) :
    ['\r', '\n'] <:+: current ++ '\n' :: rest ↔
      current.getLast? = some '\r' ∨ ['\r', '\n'] <:+: rest := by
  constructor
  · rintro ⟨front, back, hsplit⟩
    have hshape : (front ++ ['\r']) ++ '\n' :: back =
        current ++ '\n' :: rest := by
      rw [← hsplit]
      simp
    rcases append_eq_append_iff.mp hshape with
      ⟨between, hfront, hrest⟩ | ⟨between, hfront, hrest⟩
    · cases between with
      | nil =>
        rw [hfront, append_nil]
        exact Or.inl getLast?_concat
      | cons c between =>
        obtain ⟨rfl, -⟩ := List.cons.inj hrest
        rw [hfront] at hcurrent
        exact absurd (mem_append_right _ mem_cons_self) hcurrent
    · rcases eq_nil_or_concat between with rfl | ⟨middle, c, rfl⟩
      · rw [append_nil] at hfront
        rw [← hfront]
        exact Or.inl getLast?_concat
      · rw [concat_eq_append, ← append_assoc] at hfront
        obtain ⟨-, hlast⟩ := append_inj' hfront rfl
        obtain rfl := singleton_inj.mp hlast
        rw [concat_eq_append] at hrest
        cases middle with
        | nil => exact absurd (List.cons.inj hrest).1 (by decide)
        | cons c middle =>
          obtain ⟨-, hrest⟩ := List.cons.inj hrest
          refine Or.inr ⟨middle, back, ?_⟩
          rw [hrest]
          simp
  · rintro (hlast | ⟨front, back, hsplit⟩)
    · obtain ⟨front, rfl⟩ := getLast?_eq_some_iff.mp hlast
      exact ⟨front, rest, by simp⟩
    · exact ⟨current ++ '\n' :: front, back, by simp [← hsplit]⟩

theorem exists_crlf_splitLinesFrom_iff (hcurrent : '\n' ∉ current)
    (text : List Char) :
    (∃ line ∈ splitLinesFrom current text, line.ending = .crlf) ↔
      ['\r', '\n'] <:+: current ++ text := by
  induction text generalizing current with
  | nil =>
    apply iff_of_false
    · rintro ⟨line, hline, hending⟩
      rw [splitLinesFrom] at hline
      split at hline
      · exact absurd hline not_mem_nil
      · rw [mem_singleton.mp hline] at hending
        cases hending
    · rw [append_nil]
      exact fun hfactor => hcurrent (hfactor.subset (by simp))
  | cons c rest ih =>
    by_cases hfeed : c = '\n'
    · have hhead : (endedLine current).ending = .crlf ↔
          current.getLast? = some '\r' := by
        by_cases hreturn : current.getLast? = some '\r' <;>
          simp [endedLine, hreturn]
      rw [splitLinesFrom, if_pos hfeed, hfeed, crlf_infix_iff hcurrent,
        ← hhead, ← nil_append rest, ← ih not_mem_nil]
      simp
    · have hmore : '\n' ∉ current ++ [c] := by
        intro hmem
        rcases mem_append.mp hmem with hold | hnew
        · exact hcurrent hold
        · exact hfeed (mem_singleton.mp hnew).symm
      rw [splitLinesFrom, if_neg hfeed, ih hmore, append_assoc,
        singleton_append]

/-- Some line ends in both characters exactly if they follow each other in the
text. -/
theorem exists_crlf_splitLines_iff (text : List Char) :
    (∃ line ∈ splitLines text, line.ending = .crlf) ↔
      ['\r', '\n'] <:+: text :=
  exists_crlf_splitLinesFrom_iff not_mem_nil text

end Text

end Vellum

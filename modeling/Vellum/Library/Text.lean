/-
Text as a list of characters: the searches and splits of the standard
library's `str`.  Positions count characters.
-/
import Mathlib

namespace Vellum

open List

namespace Text

/-- `str::find`: where the needle first occurs. -/
def find (needle : List Char) : List Char → Option Nat
  | [] => if needle = [] then some 0 else none
  | c :: rest =>
    if needle.isPrefixOf (c :: rest) then some 0
    else (find needle rest).map (· + 1)

/-- `str::strip_prefix`. -/
def stripPrefix (front text : List Char) : Option (List Char) :=
  if front.isPrefixOf text then some (text.drop front.length) else none

/-- A line without the carriage return before its line feed. -/
def stripCr (line : List Char) : List Char :=
  if line.getLast? = some '\r' then line.dropLast else line

/-- The lines of `current ++ text`, where `current` holds no line feed.  Text
behind the last line feed is a line of its own and keeps its carriage
return. -/
def linesFrom (current : List Char) : List Char → List (List Char)
  | [] => if current = [] then [] else [current]
  | c :: rest =>
    if c = '\n' then stripCr current :: linesFrom [] rest
    else linesFrom (current ++ [c]) rest

/-- `str::lines`. -/
def lines (text : List Char) : List (List Char) := linesFrom [] text

/-- `char::is_whitespace`: the Unicode property `White_Space`. -/
def isWhitespace (c : Char) : Bool :=
  (9 ≤ c.toNat && c.toNat ≤ 13) || (0x2000 ≤ c.toNat && c.toNat ≤ 0x200A) ||
    c.toNat ∈ [0x20, 0x85, 0xA0, 0x1680, 0x2028, 0x2029, 0x202F, 0x205F,
      0x3000]

def trimStart (text : List Char) : List Char := text.dropWhile isWhitespace

def trimEnd (text : List Char) : List Char :=
  (text.reverse.dropWhile isWhitespace).reverse

/-- `str::trim`. -/
def trim (text : List Char) : List Char :=
  ((text.dropWhile isWhitespace).reverse.dropWhile isWhitespace).reverse

/-- `text.trim().is_empty()`. -/
def isBlank (text : List Char) : Bool := text.all isWhitespace

/-- The text without the occurrences of a needle; `skip` counts the characters
of an occurrence still to be passed over. -/
def removeFrom (needle : List Char) : Nat → List Char → List Char
  | _, [] => []
  | skip + 1, _ :: rest => removeFrom needle skip rest
  | 0, c :: rest =>
    if needle.isPrefixOf (c :: rest) then
      removeFrom needle (needle.length - 1) rest
    else c :: removeFrom needle 0 rest

/-- `text.replace(needle, "")` for a needle that is not empty. -/
def remove (needle text : List Char) : List Char := removeFrom needle 0 text

/-- `text.split_inclusive('\n')`: the lines with their line feeds. -/
def splitInclusive (current : List Char) : List Char → List (List Char)
  | [] => if current = [] then [] else [current]
  | c :: rest =>
    if c = '\n' then (current ++ [c]) :: splitInclusive [] rest
    else splitInclusive (current ++ [c]) rest

/-- `lines.join("\n")`. -/
def joinLines : List (List Char) → List Char
  | [] => []
  | [line] => line
  | line :: next :: rest => line ++ '\n' :: joinLines (next :: rest)

/-- The first character of a longer text. -/
theorem toList_append_head {front : String} {c : Char} {left : List Char}
    (hfront : front.toList = c :: left) (rest : String) :
    (front ++ rest).toList = c :: (left ++ rest.toList) := by
  rw [String.toList_append, hfront, cons_append]

theorem notMem_toList_append {c : Char} {left right : String}
    (hleft : c ∉ left.toList) (hright : c ∉ right.toList) :
    c ∉ (left ++ right).toList := by
  rw [String.toList_append]
  exact fun hmem => (mem_append.mp hmem).elim hleft hright

theorem notMem_toList_ofList {c : Char} {text : List Char} (htext : c ∉ text) :
    c ∉ (String.ofList text).toList := by
  rwa [String.toList_ofList]

/-- Text that starts with a visible character still does once trimmed. -/
theorem trim_cons {c : Char} (hvisible : isWhitespace c = false)
    (rest : List Char) : trim (c :: rest) = c :: trimEnd rest := by
  rw [trim, dropWhile_cons_of_neg (by simp [hvisible]),
    reverse_cons, dropWhile_append, trimEnd]
  split
  · rename_i hempty
    rw [List.isEmpty_iff] at hempty
    rw [hempty, dropWhile_cons_of_neg (by simp [hvisible])]
    rfl
  · rw [reverse_append]
    rfl

theorem linesFrom_append {line : List Char} (hline : '\n' ∉ line)
    (current rest : List Char) :
    linesFrom current (line ++ '\n' :: rest) =
      stripCr (current ++ line) :: linesFrom [] rest := by
  induction line generalizing current with
  | nil => rw [nil_append, linesFrom, if_pos rfl, append_nil]
  | cons c line ih =>
    have hhead : c ≠ '\n' := fun h => hline (h ▸ mem_cons_self)
    rw [cons_append, linesFrom, if_neg hhead,
      ih (fun hmem => hline (mem_cons_of_mem c hmem)),
      append_assoc, singleton_append]

theorem linesFrom_of_notMem {line : List Char} (hline : '\n' ∉ line)
    (current : List Char) :
    linesFrom current line =
      if current ++ line = [] then [] else [current ++ line] := by
  induction line generalizing current with
  | nil => rw [linesFrom, append_nil]
  | cons c line ih =>
    have hhead : c ≠ '\n' := fun h => hline (h ▸ mem_cons_self)
    rw [linesFrom, if_neg hhead,
      ih (fun hmem => hline (mem_cons_of_mem c hmem)),
      append_assoc, singleton_append]

/-- Lines that hold no line feed and end in no carriage return are read back
as they were written. -/
theorem lines_flatMap {texts : List (List Char)}
    (hline : ∀ text ∈ texts, '\n' ∉ text ∧ text.getLast? ≠ some '\r') :
    lines (texts.flatMap (· ++ ['\n'])) = texts := by
  induction texts with
  | nil => rfl
  | cons text texts ih =>
    obtain ⟨hfeed, hreturn⟩ := hline text mem_cons_self
    rw [flatMap_cons, append_assoc, singleton_append, lines,
      linesFrom_append hfeed, nil_append, stripCr, if_neg hreturn]
    congr 1
    exact ih fun other hother => hline other (mem_cons_of_mem text hother)

/-- What comes before and after the last separator is determined. -/
theorem append_separator_inj {separator : Char}
    {front front' back back' : List Char} (hback : separator ∉ back)
    (hback' : separator ∉ back')
    (heq : front ++ separator :: back = front' ++ separator :: back') :
    front = front' ∧ back = back' := by
  rcases append_eq_append_iff.mp heq with
    ⟨between, hfront, hrest⟩ | ⟨between, hfront, hrest⟩
  · cases between with
    | nil =>
      rw [append_nil] at hfront
      exact ⟨hfront.symm, (List.cons.inj hrest).2⟩
    | cons c between =>
      rw [(List.cons.inj hrest).2] at hback
      exact absurd (mem_append_right between mem_cons_self) hback
  · cases between with
    | nil =>
      rw [append_nil] at hfront
      exact ⟨hfront, (List.cons.inj hrest).2.symm⟩
    | cons c between =>
      rw [(List.cons.inj hrest).2] at hback'
      exact absurd (mem_append_right between mem_cons_self) hback'

theorem toDigits_inj {m n : Nat} (heq : Nat.toDigits 10 m = Nat.toDigits 10 n) :
    m = n := by
  rw [← Nat.ofDigitChars_ten_toDigits (n := m), heq,
    Nat.ofDigitChars_ten_toDigits]

theorem colon_notMem_toDigits (n : Nat) : ':' ∉ Nat.toDigits 10 n := by
  intro hmem
  have hdigit := Nat.isDigit_of_mem_toDigits (by decide) (by decide) hmem
  exact absurd hdigit (by decide)

end Text

end Vellum

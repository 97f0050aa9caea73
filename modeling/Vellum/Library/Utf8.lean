/-
UTF-8 validation as the standard library does it.  A buffer is read character
by character; the first position that is not a character is either an invalid
sequence, of a length the error reports, or the front of a character that the
buffer does not hold whole.
-/
import Vellum.Library.Incremental

namespace Vellum

open List

/-- What stands at the front of a nonempty buffer. -/
inductive Utf8Head where
  | valid (width : Nat) (char : Char)
  | invalid (len : Nat)
  | incomplete
deriving Repr, DecidableEq

/-- The length a leading byte announces; `0` for a byte that leads nothing. -/
def utf8CharWidth (first : UInt8) : Nat :=
  if first < 0x80 then 1
  else if 0xC2 ≤ first ∧ first ≤ 0xDF then 2
  else if 0xE0 ≤ first ∧ first ≤ 0xEF then 3
  else if 0xF0 ≤ first ∧ first ≤ 0xF4 then 4
  else 0

def isContinuation (byte : UInt8) : Bool :=
  0x80 ≤ byte && byte ≤ 0xBF

/-- The second bytes a three-byte leader allows: no overlong forms and no
surrogates. -/
def secondOfThree (first second : UInt8) : Bool :=
  if first = 0xE0 then 0xA0 ≤ second && second ≤ 0xBF
  else if first = 0xED then 0x80 ≤ second && second ≤ 0x9F
  else isContinuation second

/-- The second bytes a four-byte leader allows: no overlong forms and nothing
past the last scalar value. -/
def secondOfFour (first second : UInt8) : Bool :=
  if first = 0xF0 then 0x90 ≤ second && second ≤ 0xBF
  else if first = 0xF4 then 0x80 ≤ second && second ≤ 0x8F
  else isContinuation second

/-- The payload of a continuation byte. -/
def continuationBits (byte : UInt8) : Nat := byte.toNat % 64

def headOfTwo (first : UInt8) : List UInt8 → Utf8Head
  | [] => .incomplete
  | b₁ :: _ =>
    if isContinuation b₁ then
      .valid 2 (Char.ofNat (first.toNat % 32 * 64 + continuationBits b₁))
    else .invalid 1

def headOfThree (first : UInt8) : List UInt8 → Utf8Head
  | [] => .incomplete
  | b₁ :: rest =>
    if secondOfThree first b₁ then
      match rest with
      | [] => .incomplete
      | b₂ :: _ =>
        if isContinuation b₂ then
          .valid 3 (Char.ofNat (first.toNat % 16 * 4096 +
            continuationBits b₁ * 64 + continuationBits b₂))
        else .invalid 2
    else .invalid 1

def headOfFour (first : UInt8) : List UInt8 → Utf8Head
  | [] => .incomplete
  | b₁ :: rest =>
    if secondOfFour first b₁ then
      match rest with
      | [] => .incomplete
      | b₂ :: rest =>
        if isContinuation b₂ then
          match rest with
          | [] => .incomplete
          | b₃ :: _ =>
            if isContinuation b₃ then
              .valid 4 (Char.ofNat (first.toNat % 8 * 262144 +
                continuationBits b₁ * 4096 +
                continuationBits b₂ * 64 + continuationBits b₃))
            else .invalid 3
        else .invalid 2
    else .invalid 1

/-- One character off the front, by the width its first byte announces. -/
def utf8Head : List UInt8 → Utf8Head
  | [] => .incomplete
  | first :: rest =>
    match utf8CharWidth first with
    | 1 => .valid 1 (Char.ofNat first.toNat)
    | 2 => headOfTwo first rest
    | 3 => headOfThree first rest
    | 4 => headOfFour first rest
    | _ => .invalid 1

/-- The number of bytes a decided head spans. -/
def Utf8Head.span : Utf8Head → Nat
  | .valid width _ => width
  | .invalid len => len
  | .incomplete => 0

theorem utf8Head_decided (bytes : List UInt8)
    (hdecided : utf8Head bytes ≠ .incomplete) :
    0 < (utf8Head bytes).span ∧ (utf8Head bytes).span ≤ bytes.length ∧
      ∀ more, utf8Head (bytes ++ more) = utf8Head bytes := by
  cases bytes with
  | nil => exact absurd rfl hdecided
  | cons first rest =>
    revert hdecided
    simp only [utf8Head, cons_append]
    split
    · simp [Utf8Head.span]
    · fun_cases headOfTwo first rest <;> simp_all [headOfTwo, Utf8Head.span]
    · fun_cases headOfThree first rest <;>
        simp_all [headOfThree, Utf8Head.span]
    · fun_cases headOfFour first rest <;>
        simp_all [headOfFour, Utf8Head.span]
    · simp [Utf8Head.span]

variable {bytes : List UInt8} {width len : Nat} {char : Char}

/-- A character is read off the bytes it spans.  An invalid sequence is not:
the byte behind it tells that it is invalid. -/
theorem utf8Head_take_of_valid {count : Nat}
    (hhead : utf8Head bytes = .valid width char) (hcount : width ≤ count) :
    utf8Head (bytes.take count) = .valid width char := by
  cases bytes with
  | nil => simp [utf8Head] at hhead
  | cons first rest =>
    revert hhead
    cases count with
    | zero =>
      intro hhead
      have hpos := (utf8Head_decided (first :: rest) (by simp [hhead])).1
      simp only [hhead, Utf8Head.span] at hpos
      omega
    | succ count =>
      simp only [utf8Head, take_succ_cons]
      split
      · simp
      · fun_cases headOfTwo first rest <;>
          rcases count with _ | count <;> grind [headOfTwo]
      · fun_cases headOfThree first rest <;>
          rcases count with _ | _ | count <;> grind [headOfThree]
      · fun_cases headOfFour first rest <;>
          rcases count with _ | _ | _ | count <;> grind [headOfFour]
      · simp

/-- Cut right behind an invalid sequence, the buffer may no longer tell that
it is invalid. -/
theorem utf8Head_take_of_invalid {count : Nat}
    (hhead : utf8Head bytes = .invalid len) (hcount : len ≤ count) :
    utf8Head (bytes.take count) = .invalid len ∨
      count = len ∧ utf8Head (bytes.take count) = .incomplete := by
  cases bytes with
  | nil => simp [utf8Head] at hhead
  | cons first rest =>
    revert hhead
    cases count with
    | zero =>
      intro hhead
      have hpos := (utf8Head_decided (first :: rest) (by simp [hhead])).1
      simp only [hhead, Utf8Head.span] at hpos
      omega
    | succ count =>
      simp only [utf8Head, take_succ_cons]
      split
      · simp
      · fun_cases headOfTwo first rest <;>
          rcases count with _ | count <;> rintro ⟨⟩ <;>
          simp_all [headOfTwo]
      · fun_cases headOfThree first rest <;>
          rcases count with _ | _ | count <;> rintro ⟨⟩ <;>
          simp_all [headOfThree]
      · fun_cases headOfFour first rest <;>
          rcases count with _ | _ | _ | count <;> rintro ⟨⟩ <;>
          simp_all [headOfFour]
      · simp

/-- An undecided buffer is at most three bytes long. -/
theorem utf8Head_incomplete_length (bytes : List UInt8)
    (hhead : utf8Head bytes = .incomplete) : bytes.length ≤ 3 := by
  cases bytes with
  | nil => simp
  | cons first rest =>
    revert hhead
    simp only [utf8Head]
    split
    · simp
    · fun_cases headOfTwo first rest <;> simp
    · fun_cases headOfThree first rest <;> simp
    · fun_cases headOfFour first rest <;> simp
    · simp

/-- U+FFFD, which stands for a sequence that is no character. -/
def replacementChar : Char := Char.ofNat 0xFFFD

theorem span_drop_lt (bytes : List UInt8)
    (hdecided : utf8Head bytes ≠ .incomplete) :
    (bytes.drop (utf8Head bytes).span).length < bytes.length := by
  obtain ⟨hpos, hspan, -⟩ := utf8Head_decided bytes hdecided
  rw [length_drop]
  omega

/-- Characters and invalid sequences are cut one at a time; an incomplete
character stays in the buffer. -/
def utf8Cutter : Cutter Unit UInt8 Char where
  cut _ bytes :=
    match utf8Head bytes with
    | .valid width char => some (char, (), bytes.drop width)
    | .invalid len => some (replacementChar, (), bytes.drop len)
    | .incomplete => none
  shorter {_ _ input rest piece} hcut := by
    have hlt := span_drop_lt input
    split at hcut <;> rename_i hhead <;>
      simp only [hhead, Utf8Head.span, Option.some.injEq, Prod.mk.injEq,
        reduceCtorEq] at hcut hlt
    all_goals
      obtain ⟨-, -, rfl⟩ := hcut
      exact hlt (by simp)
  extend {_ _ input rest piece} hcut more := by
    have hdec := utf8Head_decided input
    split at hcut <;> rename_i hhead <;>
      simp only [hhead, Utf8Head.span, Option.some.injEq, Prod.mk.injEq,
        reduceCtorEq] at hcut hdec
    all_goals
      obtain ⟨-, hspan, hsame⟩ := hdec (by simp)
      obtain ⟨rfl, -, rfl⟩ := hcut
      simp only [hsame more, List.drop_append_of_le_length hspan]

/-- Where validation stopped: the length of the valid front, and the length
of the invalid sequence behind it, `none` when that is an incomplete
character. -/
structure Utf8Error where
  validUpTo : Nat
  errorLen : Option Nat

/-- `std::str::from_utf8`. -/
def fromUtf8 (bytes : List UInt8) : Except Utf8Error (List Char) :=
  if bytes = [] then .ok []
  else
    match _hhead : utf8Head bytes with
    | .incomplete => .error ⟨0, none⟩
    | .invalid len => .error ⟨0, some len⟩
    | .valid width char =>
      match fromUtf8 (bytes.drop width) with
      | .ok chars => .ok (char :: chars)
      | .error e => .error { e with validUpTo := width + e.validUpTo }
termination_by bytes.length
decreasing_by
  have hlt := span_drop_lt bytes (by simp [_hhead])
  simpa only [_hhead, Utf8Head.span] using hlt

/-- `String::from_utf8_lossy`: every invalid sequence, and an incomplete
character at the end, becomes one U+FFFD. -/
def fromUtf8Lossy (bytes : List UInt8) : List Char :=
  if bytes = [] then []
  else
    match _hhead : utf8Head bytes with
    | .incomplete => [replacementChar]
    | .invalid len => replacementChar :: fromUtf8Lossy (bytes.drop len)
    | .valid width char => char :: fromUtf8Lossy (bytes.drop width)
termination_by bytes.length
decreasing_by
  all_goals
    have hlt := span_drop_lt bytes (by simp [_hhead])
    simpa only [_hhead, Utf8Head.span] using hlt

theorem utf8Cutter_valid (hhead : utf8Head bytes = .valid width char) :
    utf8Cutter.cut () bytes = some (char, (), bytes.drop width) := by
  simp only [utf8Cutter, hhead]

theorem utf8Cutter_invalid (hhead : utf8Head bytes = .invalid len) :
    utf8Cutter.cut () bytes =
      some (replacementChar, (), bytes.drop len) := by
  simp only [utf8Cutter, hhead]

theorem utf8Cutter_incomplete :
    utf8Cutter.cut () bytes = none ↔ utf8Head bytes = .incomplete := by
  cases hhead : utf8Head bytes <;> simp [utf8Cutter, hhead]

/-- Validation that succeeds is a drain that leaves nothing over. -/
theorem drain_of_fromUtf8_ok {chars : List Char}
    (hok : fromUtf8 bytes = .ok chars) :
    utf8Cutter.drain () bytes = (chars, (), []) := by
  fun_induction fromUtf8 bytes generalizing chars with
  | case1 =>
    cases hok
    exact utf8Cutter.drain_of_cut_none rfl
  | case2 | case3 => cases hok
  | case4 bytes _ width char hhead rest hrest ih =>
    cases hok
    rw [utf8Cutter.drain_of_cut_some (utf8Cutter_valid hhead), ih hrest]
  | case5 => cases hok

/-- Validation that fails decodes the valid front and stops at the invalid
sequence or the incomplete character behind it. -/
theorem fromUtf8_error {e : Utf8Error} (herror : fromUtf8 bytes = .error e) :
    ∃ valid, fromUtf8 (bytes.take e.validUpTo) = .ok valid ∧
      utf8Cutter.drain () bytes =
        (valid ++ (utf8Cutter.drain () (bytes.drop e.validUpTo)).1,
          (utf8Cutter.drain () (bytes.drop e.validUpTo)).2) ∧
      utf8Head (bytes.drop e.validUpTo) =
        e.errorLen.elim .incomplete .invalid := by
  fun_induction fromUtf8 bytes generalizing e with
  | case1 => cases herror
  | case2 bytes _ hhead =>
    cases herror
    exact ⟨[], by rw [take_zero, fromUtf8, if_pos rfl], rfl, hhead⟩
  | case3 bytes _ len hhead =>
    cases herror
    exact ⟨[], by rw [take_zero, fromUtf8, if_pos rfl], rfl, hhead⟩
  | case4 => cases herror
  | case5 bytes hne width char hhead inner hinner ih =>
    cases herror
    obtain ⟨valid, hvalid, hdrain, hstop⟩ := ih hinner
    refine ⟨char :: valid, ?_, ?_, ?_⟩
    · have hfront := utf8Head_take_of_valid hhead
        (Nat.le_add_right width inner.validUpTo)
      have hne' : bytes.take (width + inner.validUpTo) ≠ [] := by
        intro hnil
        simp [hnil, utf8Head] at hfront
      rw [fromUtf8, if_neg hne']
      split
      · simp_all
      · simp_all
      · rename_i w c hhead'
        rw [hfront] at hhead'
        cases hhead'
        rw [drop_take, Nat.add_sub_cancel_left, hvalid]
    · rw [utf8Cutter.drain_of_cut_some (utf8Cutter_valid hhead), hdrain,
        drop_drop]
      rfl
    · rw [drop_drop] at hstop
      exact hstop

theorem fromUtf8Lossy_valid (hhead : utf8Head bytes = .valid width char) :
    fromUtf8Lossy bytes = char :: fromUtf8Lossy (bytes.drop width) := by
  have hne : bytes ≠ [] := by
    rintro rfl
    simp [utf8Head] at hhead
  rw [fromUtf8Lossy, if_neg hne]
  split <;> simp_all

theorem fromUtf8Lossy_invalid (hhead : utf8Head bytes = .invalid len) :
    fromUtf8Lossy bytes =
      replacementChar :: fromUtf8Lossy (bytes.drop len) := by
  have hne : bytes ≠ [] := by
    rintro rfl
    simp [utf8Head] at hhead
  rw [fromUtf8Lossy, if_neg hne]
  split <;> simp_all

theorem fromUtf8Lossy_incomplete (hne : bytes ≠ [])
    (hhead : utf8Head bytes = .incomplete) :
    fromUtf8Lossy bytes = [replacementChar] := by
  rw [fromUtf8Lossy, if_neg hne]
  split <;> simp_all

/-- The bytes a head spans, with a front of what follows them. -/
theorem take_span_append {front rest : List UInt8} {span : Nat}
    (hdrop : bytes.drop span = front ++ rest) (hspan : span ≤ bytes.length) :
    bytes = bytes.take (span + front.length) ++ rest ∧
      (bytes.take (span + front.length)).drop span = front := by
  have htake : bytes.take (span + front.length) =
      bytes.take span ++ front := by
    rw [take_add, hdrop, take_left]
  rw [htake]
  constructor
  · rw [append_assoc, ← hdrop, take_append_drop]
  · exact drop_left' (length_take_of_le hspan)

/-- What the cutter yields is the lossy decoding of everything in front of
what it leaves over. -/
theorem drain_eq_lossy_front (bytes : List UInt8) :
    ∃ front, bytes = front ++ (utf8Cutter.drain () bytes).2.2 ∧
      fromUtf8Lossy front = (utf8Cutter.drain () bytes).1 := by
  generalize hunit : () = state
  induction state, bytes using utf8Cutter.drain_induction with
  | stuck state bytes hcut =>
    rw [utf8Cutter.drain_of_cut_none hcut]
    exact ⟨[], rfl, by rw [fromUtf8Lossy, if_pos rfl]⟩
  | step state bytes char next rest hcut ih =>
    obtain ⟨front, hrest, hlossy⟩ := ih rfl
    rw [utf8Cutter.drain_of_cut_some hcut]
    have hspan := utf8Head_decided bytes
    cases hhead : utf8Head bytes with
    | incomplete => simp [utf8Cutter, hhead] at hcut
    | valid width c =>
      rw [utf8Cutter_valid hhead] at hcut
      obtain ⟨rfl, hnext⟩ := Prod.mk.inj (Option.some.inj hcut)
      obtain ⟨-, rfl⟩ := Prod.mk.inj hnext
      simp only [hhead, Utf8Head.span] at hspan
      obtain ⟨hbytes, hdrop⟩ := take_span_append hrest
        (hspan (by simp)).2.1
      refine ⟨_, hbytes, ?_⟩
      rw [fromUtf8Lossy_valid (utf8Head_take_of_valid hhead
        (Nat.le_add_right width front.length)), hdrop, hlossy]
    | invalid len =>
      rw [utf8Cutter_invalid hhead] at hcut
      obtain ⟨rfl, hnext⟩ := Prod.mk.inj (Option.some.inj hcut)
      obtain ⟨-, rfl⟩ := Prod.mk.inj hnext
      simp only [hhead, Utf8Head.span] at hspan
      obtain ⟨hpos, hle, -⟩ := hspan (by simp)
      obtain ⟨hbytes, hdrop⟩ := take_span_append hrest hle
      refine ⟨_, hbytes, ?_⟩
      rcases utf8Head_take_of_invalid hhead
        (Nat.le_add_right len front.length) with hsame | ⟨hend, hopen⟩
      · rw [fromUtf8Lossy_invalid hsame, hdrop, hlossy]
      · -- nothing follows the sequence, and it is one U+FFFD either way
        have hnil : front = [] := length_eq_zero_iff.mp (by omega)
        have hne : bytes.take (len + front.length) ≠ [] := by
          intro hempty
          have := congrArg List.length hempty
          rw [length_take, length_nil] at this
          omega
        rw [fromUtf8Lossy_incomplete hne hopen, ← hlossy, hnil,
          fromUtf8Lossy, if_pos rfl]

end Vellum

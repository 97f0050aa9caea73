/-
Server-sent event parsing (`vellum-proxy-runtime/src/sse.rs`): fields of a
line, event blocks of a text buffer, and bytes appended to a text buffer
across chunk boundaries.  Text is a list of characters.
-/
import Vellum.Library.Text
import Vellum.Library.Utf8

namespace Vellum.Proxy

open List

/-- The value of a field, with or without a space behind the colon. -/
def stripSseField (line field : List Char) : Option (List Char) :=
  (Text.stripPrefix (field ++ [':', ' ']) line).or
    (Text.stripPrefix (field ++ [':']) line)

def crlfBlank : List Char := ['\r', '\n', '\r', '\n']

def lfBlank : List Char := ['\n', '\n']

/-- One round of the search for the earliest delimiter. -/
def betterDelimiter (buffer : List Char) (best : Option (Nat × Nat))
    (delimiter : List Char × Nat) : Option (Nat × Nat) :=
  match Text.find delimiter.1 buffer with
  | some pos =>
    if best.all (fun found => pos < found.1) then some (pos, delimiter.2)
    else best
  | none => best

/-- Cut the first block off the buffer: the block and what stands behind its
delimiter. -/
def takeSseBlock (buffer : List Char) : Option (List Char × List Char) :=
  ([(crlfBlank, 4), (lfBlank, 2)].foldl (betterDelimiter buffer) none).map
    fun found => (buffer.take found.1, buffer.drop (found.1 + found.2))

/-- The first block, read off character by character. -/
def cutBlock : List Char → Option (List Char × List Char)
  | [] => none
  | c :: rest =>
    if crlfBlank.isPrefixOf (c :: rest) then some ([], rest.drop 3)
    else if lfBlank.isPrefixOf (c :: rest) then some ([], rest.drop 1)
    else (cutBlock rest).map fun cut => (c :: cut.1, cut.2)

/-- The two searches together find the first position at which either
delimiter stands. -/
theorem takeSseBlock_eq_cutBlock (buffer : List Char) :
    takeSseBlock buffer = cutBlock buffer := by
  induction buffer with
  | nil => rfl
  | cons c rest ih =>
    simp only [takeSseBlock, cutBlock, foldl_cons, foldl_nil,
      betterDelimiter, Text.find] at ih ⊢
    by_cases hcrlf : crlfBlank.isPrefixOf (c :: rest) = true
    · by_cases hlf : lfBlank.isPrefixOf (c :: rest) = true <;>
        cases Text.find lfBlank rest <;> simp [hcrlf, hlf]
    · by_cases hlf : lfBlank.isPrefixOf (c :: rest) = true
      · cases Text.find crlfBlank rest <;> simp [hcrlf, hlf]
      · rw [← ih]
        cases Text.find crlfBlank rest <;> cases Text.find lfBlank rest <;>
          simp [hcrlf, hlf]
        all_goals grind

theorem cutBlock_shorter {buffer block rest : List Char}
    (hcut : cutBlock buffer = some (block, rest)) :
    rest.length < buffer.length := by
  induction buffer generalizing block with
  | nil => simp [cutBlock] at hcut
  | cons c tail ih =>
    rw [cutBlock] at hcut
    split at hcut
    · cases hcut
      simp only [length_drop, length_cons]
      omega
    · split at hcut
      · cases hcut
        simp only [length_drop, length_cons]
        omega
      · obtain ⟨cut, hinner, heq⟩ := Option.map_eq_some_iff.mp hcut
        obtain ⟨-, rfl⟩ := Prod.mk.inj heq
        have hshort := ih hinner
        simp only [length_cons]
        omega

/-- A delimiter that the appended text completes at the very front leaves no
room for a block inside the buffer. -/
theorem cutBlock_tail_eq_none {c : Char} {tail more : List Char}
    (hcrlf : ¬ crlfBlank.isPrefixOf (c :: tail) = true)
    (hlf : ¬ lfBlank.isPrefixOf (c :: tail) = true)
    (hlong : crlfBlank.isPrefixOf (c :: (tail ++ more)) = true ∨
      lfBlank.isPrefixOf (c :: (tail ++ more)) = true) :
    cutBlock tail = none := by
  rcases tail with _ | ⟨a, _ | ⟨b, _ | ⟨d, tail⟩⟩⟩
  all_goals simp_all [cutBlock, crlfBlank, lfBlank]
  all_goals grind

theorem cutBlock_extend {buffer block rest : List Char}
    (hcut : cutBlock buffer = some (block, rest)) (more : List Char) :
    cutBlock (buffer ++ more) = some (block, rest ++ more) := by
  induction buffer generalizing block with
  | nil => simp [cutBlock] at hcut
  | cons c tail ih =>
    by_cases hcrlf : crlfBlank.isPrefixOf (c :: tail) = true
    · simp only [cutBlock, hcrlf, ↓reduceIte] at hcut
      cases hcut
      obtain ⟨back, hback⟩ := List.isPrefixOf_iff_prefix.mp hcrlf
      obtain ⟨rfl, rfl⟩ := List.cons.inj hback
      rfl
    · by_cases hlf : lfBlank.isPrefixOf (c :: tail) = true
      · simp only [cutBlock, hcrlf, hlf, ↓reduceIte] at hcut
        cases hcut
        obtain ⟨back, hback⟩ := List.isPrefixOf_iff_prefix.mp hlf
        obtain ⟨rfl, rfl⟩ := List.cons.inj hback
        rfl
      · simp only [cutBlock, hcrlf, hlf] at hcut
        obtain ⟨cut, hinner, heq⟩ := Option.map_eq_some_iff.mp hcut
        obtain ⟨rfl, rfl⟩ := Prod.mk.inj heq
        have hlong : ¬ (crlfBlank.isPrefixOf (c :: (tail ++ more)) = true ∨
            lfBlank.isPrefixOf (c :: (tail ++ more)) = true) := by
          intro hfront
          rw [cutBlock_tail_eq_none hcrlf hlf hfront] at hinner
          cases hinner
        rw [not_or] at hlong
        rw [cons_append, cutBlock, if_neg hlong.1, if_neg hlong.2,
          ih hinner]
        rfl

/-- Blocks are cut one at a time; text behind the last delimiter stays in the
buffer. -/
def blockCutter : Cutter Unit Char (List Char) where
  cut _ buffer := (takeSseBlock buffer).map fun cut => (cut.1, (), cut.2)
  shorter {_ _ input rest block} hcut := by
    obtain ⟨cut, hblock, heq⟩ := Option.map_eq_some_iff.mp hcut
    obtain ⟨-, hrest⟩ := Prod.mk.inj heq
    obtain ⟨-, rfl⟩ := Prod.mk.inj hrest
    rw [takeSseBlock_eq_cutBlock] at hblock
    exact cutBlock_shorter hblock
  extend {_ _ input rest block} hcut more := by
    obtain ⟨cut, hblock, heq⟩ := Option.map_eq_some_iff.mp hcut
    obtain ⟨rfl, hrest⟩ := Prod.mk.inj heq
    obtain ⟨-, rfl⟩ := Prod.mk.inj hrest
    rw [takeSseBlock_eq_cutBlock] at hblock
    rw [takeSseBlock_eq_cutBlock, cutBlock_extend hblock more]
    rfl

/-- `while let Some(block) = take_sse_block(buffer)`: the blocks in order and
the text left in the buffer. -/
def takeSseBlocks (buffer : List Char) : List (List Char) × List Char :=
  let drained := blockCutter.drain () buffer
  (drained.1, drained.2.2)

/-- The decoding loop of `append_utf8_safe`: valid text goes to the buffer,
an invalid sequence becomes U+FFFD, an incomplete character at the end is the
new remainder. -/
def decodeLoop (buffer : List Char) (input : List UInt8) :
    List Char × List UInt8 :=
  match _herror : fromUtf8 input with
  | .ok text => (buffer ++ text, [])
  | .error e =>
    let validSlice := input.take e.validUpTo
    let valid := match fromUtf8 validSlice with
      | .ok valid => valid
      | .error _ => fromUtf8Lossy validSlice
    match _hlen : e.errorLen with
    | some invalidLen =>
      decodeLoop (buffer ++ valid ++ [replacementChar])
        (input.drop (e.validUpTo + invalidLen))
    | none => (buffer ++ valid, input.drop e.validUpTo)
termination_by input.length
decreasing_by
  obtain ⟨-, -, -, hstop⟩ := fromUtf8_error _herror
  rw [_hlen] at hstop
  have hlt := span_drop_lt (input.drop e.validUpTo)
    (by simp [hstop])
  simp only [hstop, Option.elim_some, Utf8Head.span, List.length_drop] at hlt ⊢
  omega

/-- Append raw bytes to the text buffer, in front of them the bytes the last
call could not decide. -/
def appendUtf8Safe (buffer : List Char) (remainder newBytes : List UInt8) :
    List Char × List UInt8 :=
  if remainder = [] then decodeLoop buffer newBytes
  else if 3 < remainder.length then
    decodeLoop (buffer ++ fromUtf8Lossy remainder) newBytes
  else decodeLoop buffer (remainder ++ newBytes)

/-- The loop appends what the cutter yields and keeps what it leaves over. -/
theorem decodeLoop_eq_drain (buffer : List Char) (input : List UInt8) :
    decodeLoop buffer input =
      (buffer ++ (utf8Cutter.drain () input).1,
        (utf8Cutter.drain () input).2.2) := by
  fun_induction decodeLoop buffer input with
  | case1 buffer input text hok => rw [drain_of_fromUtf8_ok hok]
  | case2 buffer input e herror validSlice valid invalidLen hlen ih =>
    obtain ⟨front, hfront, hdrain, hstop⟩ := fromUtf8_error herror
    rw [hlen] at hstop
    have hvalid : valid = front := by simp only [valid, validSlice, hfront]
    have hcut := utf8Cutter_invalid hstop
    rw [drop_drop] at hcut
    rw [ih, hdrain, utf8Cutter.drain_of_cut_some hcut, hvalid]
    simp
  | case3 buffer input e herror validSlice valid hlen =>
    obtain ⟨front, hfront, hdrain, hstop⟩ := fromUtf8_error herror
    rw [hlen] at hstop
    have hvalid : valid = front := by simp only [valid, validSlice, hfront]
    rw [hdrain, utf8Cutter.drain_of_cut_none
      (utf8Cutter_incomplete.mpr hstop), hvalid, append_nil]

/-- A remainder that decides nothing is at most three bytes long, so it is
put in front of the new bytes. -/
theorem appendUtf8Safe_eq_drain {remainder : List UInt8}
    (hremainder : utf8Cutter.cut () remainder = none)
    (buffer : List Char) (newBytes : List UInt8) :
    appendUtf8Safe buffer remainder newBytes =
      (buffer ++ (utf8Cutter.drain () (remainder ++ newBytes)).1,
        (utf8Cutter.drain () (remainder ++ newBytes)).2.2) := by
  have hshort := utf8Head_incomplete_length remainder
    (utf8Cutter_incomplete.mp hremainder)
  rw [appendUtf8Safe]
  split
  · rename_i hnil
    rw [hnil, nil_append, decodeLoop_eq_drain]
  · rw [if_neg (by omega), decodeLoop_eq_drain]

end Vellum.Proxy

/-
The compact text of a JSON value: no blanks, the fields of an object in the
order in which they stand.  A text is read back in one way only, so values
with one text are the same value.
-/
import Vellum.Library.Json

namespace Vellum

open List

namespace JsonText

def hexDigit (digit : Nat) : Char :=
  ("0123456789abcdef".toList[digit]?).getD '0'

/-- A character of a string, escaped where JSON asks for it. -/
def escape (c : Char) : List Char :=
  if c = '"' then ['\\', '"']
  else if c = '\\' then ['\\', '\\']
  else if c = '\x08' then ['\\', 'b']
  else if c = '\t' then ['\\', 't']
  else if c = '\n' then ['\\', 'n']
  else if c = '\x0c' then ['\\', 'f']
  else if c = '\r' then ['\\', 'r']
  else if c.toNat < 32 then
    ['\\', 'u', '0', '0', hexDigit (c.toNat / 16), hexDigit (c.toNat % 16)]
  else [c]

/-- The text of a string. -/
def quote (text : String) : List Char :=
  '"' :: text.toList.flatMap escape ++ ['"']

/-- What the printing of numbers must know about doubles. -/
structure FloatText where
  text : UInt64 → List Char
  injective : ∀ left right, text left = text right → left = right
  /-- A double does not look like an integer. -/
  marked : ∀ bits, '.' ∈ text bits ∨ 'e' ∈ text bits
  first : ∀ bits, ∃ c rest, text bits = c :: rest ∧
    (c.isDigit = true ∨ c = '-')
  characters : ∀ bits, ∀ c ∈ text bits,
    c.isDigit = true ∨ c ∈ ['-', '+', '.', 'e']

def intText (value : Int) : List Char :=
  if value < 0 then '-' :: Nat.toDigits 10 value.natAbs
  else Nat.toDigits 10 value.natAbs

def numberText (floats : FloatText) : JsonNumber → List Char
  | .int value => intText value
  | .float bits => floats.text bits

/-- Texts with commas between them. -/
def commaJoin : List (List Char) → List Char
  | [] => []
  | [text] => text
  | text :: next :: rest => text ++ ',' :: commaJoin (next :: rest)

mutual

def text (floats : FloatText) : Json → List Char
  | .null => "null".toList
  | .bool true => "true".toList
  | .bool false => "false".toList
  | .num value => numberText floats value
  | .str value => quote value
  | .arr items => '[' :: commaJoin (itemTexts floats items) ++ [']']
  | .obj fields => '\x7b' :: commaJoin (fieldTexts floats fields) ++ ['\x7d']

def itemTexts (floats : FloatText) : List Json → List (List Char)
  | [] => []
  | item :: rest => text floats item :: itemTexts floats rest

def fieldTexts (floats : FloatText) :
    List (String × Json) → List (List Char)
  | [] => []
  | (name, value) :: rest =>
    (quote name ++ ':' :: text floats value) :: fieldTexts floats rest

end

theorem itemTexts_eq (floats : FloatText) (items : List Json) :
    itemTexts floats items = items.map (text floats) := by
  induction items with
  | nil => rfl
  | cons item rest ih => rw [itemTexts, ih, map_cons]

/-- The text of a field. -/
def fieldText (floats : FloatText) (field : String × Json) : List Char :=
  quote field.1 ++ ':' :: text floats field.2

theorem fieldTexts_eq (floats : FloatText) (fields : List (String × Json)) :
    fieldTexts floats fields = fields.map (fieldText floats) := by
  induction fields with
  | nil => rfl
  | cons field rest ih => rw [fieldTexts, ih, map_cons, fieldText]

def hexValue (c : Char) : Nat :=
  if c.isDigit then c.toNat - 48 else c.toNat - 87

/-- The character at the front of the text of a string. -/
def unescape : List Char → Option (Char × List Char)
  | '\\' :: '"' :: rest => some ('"', rest)
  | '\\' :: '\\' :: rest => some ('\\', rest)
  | '\\' :: 'b' :: rest => some ('\x08', rest)
  | '\\' :: 't' :: rest => some ('\t', rest)
  | '\\' :: 'n' :: rest => some ('\n', rest)
  | '\\' :: 'f' :: rest => some ('\x0c', rest)
  | '\\' :: 'r' :: rest => some ('\r', rest)
  | '\\' :: 'u' :: '0' :: '0' :: high :: low :: rest =>
    some (Char.ofNat (16 * hexValue high + hexValue low), rest)
  | c :: rest => if c = '\\' || c = '"' then none else some (c, rest)
  | [] => none

theorem hexValue_hexDigit : ∀ n < 32,
    16 * hexValue (hexDigit (n / 16)) + hexValue (hexDigit (n % 16)) = n := by
  decide

theorem unescape_plain {c : Char} (hslash : c ≠ '\\') (hquote : c ≠ '"')
    (rest : List Char) : unescape (c :: rest) = some (c, rest) := by
  rw [unescape.eq_def]
  split <;> simp_all

theorem unescape_escape (c : Char) (rest : List Char) :
    unescape (escape c ++ rest) = some (c, rest) := by
  rw [escape]
  split
  · rename_i hc
    rw [hc]
    rfl
  · rename_i hquote
    split
    · rename_i hc
      rw [hc]
      rfl
    · rename_i hslash
      repeat' split
      all_goals first
        | (rename_i hc; rw [hc]; rfl)
        | skip
      · rename_i hlow
        have hvalue := hexValue_hexDigit c.toNat hlow
        simp only [cons_append, nil_append, unescape, hvalue,
          Char.ofNat_toNat]
      · exact unescape_plain hslash hquote rest

/-- A string ends at the first quote that is not escaped. -/
theorem quote_inj {left right : String} {s t : List Char}
    (heq : quote left ++ s = quote right ++ t) : left = right ∧ s = t := by
  have hbody : ∀ xs ys : List Char, xs.flatMap escape ++ '"' :: s =
      ys.flatMap escape ++ '"' :: t → xs = ys ∧ s = t := by
    intro xs
    induction xs with
    | nil =>
      intro ys heq
      cases ys with
      | nil => exact ⟨rfl, (List.cons.inj heq).2⟩
      | cons d ys =>
        have hread := congrArg unescape heq
        rw [flatMap_cons, append_assoc, unescape_escape] at hread
        cases hread
    | cons c xs ih =>
      intro ys heq
      have hread := congrArg unescape heq
      rw [flatMap_cons, append_assoc, unescape_escape] at hread
      cases ys with
      | nil => cases hread
      | cons d ys =>
        rw [flatMap_cons, append_assoc, unescape_escape] at hread
        obtain ⟨rfl, hrest⟩ := Prod.mk.inj (Option.some.inj hread)
        obtain ⟨rfl, hback⟩ := ih ys hrest
        exact ⟨rfl, hback⟩
  simp only [quote, cons_append, append_assoc, List.cons.injEq,
    true_and, nil_append] at heq
  obtain ⟨hchars, hback⟩ := hbody _ _ heq
  exact ⟨String.toList_inj.mp hchars, hback⟩

def isNumberChar (c : Char) : Bool := c.isDigit || c ∈ ['-', '+', '.', 'e']

/-- What may stand behind the text of a value: no number goes on in it. -/
def Closed (rest : List Char) : Prop :=
  ∀ c ∈ rest.head?, isNumberChar c = false

theorem closed_cons {c : Char} (hc : isNumberChar c = false)
    (rest : List Char) : Closed (c :: rest) := by
  intro first hfirst
  rw [head?_cons, Option.mem_some_iff] at hfirst
  rw [← hfirst]
  exact hc

theorem intText_characters (value : Int) :
    ∀ c ∈ intText value, c.isDigit = true ∨ c = '-' := by
  intro c hc
  rw [intText] at hc
  split at hc
  · rcases mem_cons.mp hc with rfl | hc
    · exact Or.inr rfl
    · exact Or.inl (Nat.isDigit_of_mem_toDigits (by decide) (by decide) hc)
  · exact Or.inl (Nat.isDigit_of_mem_toDigits (by decide) (by decide) hc)

theorem natDigits_inj {m n : Nat}
    (heq : Nat.toDigits 10 m = Nat.toDigits 10 n) : m = n := by
  rw [← Nat.ofDigitChars_ten_toDigits (n := m), heq,
    Nat.ofDigitChars_ten_toDigits]

/-- Doubles printed by their bits, as a number of its own for each. -/
def FloatText.ofBits : FloatText where
  text bits := Nat.toDigits 10 bits.toNat ++ ".0".toList
  injective left right heq :=
    UInt64.toNat_inj.mp (natDigits_inj (List.append_cancel_right heq))
  marked bits := Or.inl (by simp)
  first bits := by
    have hdigits := fun c => Nat.isDigit_of_mem_toDigits (b := 10)
      (n := bits.toNat) (c := c) (by omega) (by omega)
    cases hchars : Nat.toDigits 10 bits.toNat with
    | nil => exact absurd hchars Nat.toDigits_ne_nil
    | cons c rest =>
      rw [hchars] at hdigits
      exact ⟨c, _, rfl, Or.inl (hdigits c List.mem_cons_self)⟩
  characters bits c hc := by
    rcases List.mem_append.mp hc with hdigit | hmark
    · exact Or.inl (Nat.isDigit_of_mem_toDigits (by omega) (by omega) hdigit)
    · revert hmark
      simp
      rintro (rfl | rfl) <;> decide

theorem intText_inj {left right : Int} (heq : intText left = intText right) :
    left = right := by
  have hsign : ∀ n rest, Nat.toDigits 10 n ≠ '-' :: rest := by
    intro n rest hdigits
    have hdigit := Nat.isDigit_of_mem_toDigits (b := 10) (n := n) (c := '-')
      (by decide) (by decide) (by rw [hdigits]; exact mem_cons_self)
    revert hdigit
    decide
  rw [intText, intText] at heq
  split at heq
  · split at heq
    · have habs := natDigits_inj (List.cons.inj heq).2
      omega
    · exact absurd heq.symm (hsign _ _)
  · split at heq
    · exact absurd heq (hsign _ _)
    · have habs := natDigits_inj heq
      omega

section

variable (floats : FloatText)

theorem numberText_characters (value : JsonNumber) :
    ∀ c ∈ numberText floats value, isNumberChar c = true := by
  intro c hc
  rw [isNumberChar, Bool.or_eq_true, decide_eq_true_eq]
  cases value with
  | int value =>
    rcases intText_characters value c hc with hdigit | rfl
    · exact Or.inl hdigit
    · exact Or.inr mem_cons_self
  | float bits => exact floats.characters bits c hc

theorem numberText_inj {left right : JsonNumber}
    (heq : numberText floats left = numberText floats right) :
    left = right := by
  have hmixed : ∀ value bits, intText value ≠ floats.text bits := by
    intro value bits hsame
    rcases floats.marked bits with hmark | hmark
    · rw [← hsame] at hmark
      rcases intText_characters value _ hmark with hc | hc <;> cases hc
    · rw [← hsame] at hmark
      rcases intText_characters value _ hmark with hc | hc <;> cases hc
  cases left with
  | int left =>
    cases right with
    | int right => rw [intText_inj heq]
    | float right => exact absurd heq (hmixed left right)
  | float left =>
    cases right with
    | int right => exact absurd heq.symm (hmixed right left)
    | float right => rw [floats.injective left right heq]

theorem numberText_append_inj {left right : JsonNumber} {s t : List Char}
    (hs : Closed s) (ht : Closed t)
    (heq : numberText floats left ++ s = numberText floats right ++ t) :
    left = right ∧ s = t := by
  have hspan : ∀ value rest, Closed rest →
      (numberText floats value ++ rest).takeWhile isNumberChar =
        numberText floats value := by
    intro value rest hrest
    rw [takeWhile_append_of_pos (numberText_characters floats value)]
    cases rest with
    | nil => exact append_nil _
    | cons c rest =>
      rw [takeWhile_cons_of_neg, append_nil]
      rw [hrest c rfl]
      exact Bool.false_ne_true
  have hnumber := congrArg (List.takeWhile isNumberChar) heq
  rw [hspan left s hs, hspan right t ht] at hnumber
  rw [hnumber] at heq
  exact ⟨numberText_inj floats hnumber, append_cancel_left heq⟩

end

section

universe u

variable {α : Type u} {f : α → List Char}

/-- A text that is read back in one way, whatever stands behind it. -/
def Decodes (f : α → List Char) (x : α) : Prop :=
  ∀ y s t, Closed s → Closed t → f x ++ s = f y ++ t → x = y ∧ s = t

def commaTail : List (List Char) → List Char
  | [] => []
  | text :: rest => ',' :: text ++ commaTail rest

theorem commaJoin_cons (text : List Char) (rest : List (List Char)) :
    commaJoin (text :: rest) = text ++ commaTail rest := by
  induction rest generalizing text with
  | nil => exact (append_nil text).symm
  | cons next rest ih => rw [commaJoin, ih, commaTail, cons_append]

variable {close : Char}

theorem closed_commaTail (hclose : isNumberChar close = false)
    (texts : List (List Char)) (s : List Char) :
    Closed (commaTail texts ++ close :: s) := by
  cases texts with
  | nil => exact closed_cons hclose s
  | cons text rest => exact closed_cons (by decide) _

theorem commaTail_inj (hclose : isNumberChar close = false)
    (hcomma : close ≠ ',') {xs : List α} (hxs : ∀ x ∈ xs, Decodes f x)
    {ys : List α} {s t : List Char}
    (heq : commaTail (xs.map f) ++ close :: s =
      commaTail (ys.map f) ++ close :: t) : xs = ys ∧ s = t := by
  induction xs generalizing ys with
  | nil =>
    cases ys with
    | nil => exact ⟨rfl, (List.cons.inj heq).2⟩
    | cons y ys => exact absurd (List.cons.inj heq).1 hcomma
  | cons x xs ih =>
    cases ys with
    | nil => exact absurd (List.cons.inj heq).1.symm hcomma
    | cons y ys =>
      rw [map_cons, map_cons, commaTail, commaTail,
        cons_append, cons_append, cons_append,
        cons_append, append_assoc, append_assoc] at heq
      obtain ⟨rfl, hrest⟩ := hxs x mem_cons_self y _ _
        (closed_commaTail hclose _ s) (closed_commaTail hclose _ t)
        (List.cons.inj heq).2
      obtain ⟨rfl, hback⟩ :=
        ih (fun x hx => hxs x (mem_cons_of_mem _ hx)) hrest
      exact ⟨rfl, hback⟩

/-- A list between brackets ends at its closing bracket. -/
theorem commaJoin_inj (hclose : isNumberChar close = false)
    (hcomma : close ≠ ',')
    (hfirst : ∀ y, ∃ c rest, f y = c :: rest ∧ c ≠ close)
    {xs : List α} (hxs : ∀ x ∈ xs, Decodes f x) {ys : List α}
    {s t : List Char}
    (heq : commaJoin (xs.map f) ++ close :: s =
      commaJoin (ys.map f) ++ close :: t) : xs = ys ∧ s = t := by
  cases xs with
  | nil =>
    cases ys with
    | nil => exact ⟨rfl, (List.cons.inj heq).2⟩
    | cons y ys =>
      obtain ⟨c, rest, hy, hne⟩ := hfirst y
      rw [map_cons, commaJoin_cons, hy] at heq
      exact absurd (List.cons.inj heq).1.symm hne
  | cons x xs =>
    cases ys with
    | nil =>
      obtain ⟨c, rest, hx, hne⟩ := hfirst x
      rw [map_cons, commaJoin_cons, hx] at heq
      exact absurd (List.cons.inj heq).1 hne
    | cons y ys =>
      rw [map_cons, map_cons, commaJoin_cons, commaJoin_cons,
        append_assoc, append_assoc] at heq
      obtain ⟨rfl, hrest⟩ := hxs x mem_cons_self y _ _
        (closed_commaTail hclose _ s) (closed_commaTail hclose _ t) heq
      obtain ⟨rfl, hback⟩ := commaTail_inj hclose hcomma
        (fun x hx => hxs x (mem_cons_of_mem _ hx)) hrest
      exact ⟨rfl, hback⟩

end

/-- The kinds of values, which their first characters tell apart. -/
inductive Shape where
  | null
  | bool
  | num
  | str
  | arr
  | obj
deriving DecidableEq

def shape : Json → Shape
  | .null => .null
  | .bool _ => .bool
  | .num _ => .num
  | .str _ => .str
  | .arr _ => .arr
  | .obj _ => .obj

def firstShape (c : Char) : Shape :=
  if c = 'n' then .null
  else if c = 't' || c = 'f' then .bool
  else if c = '"' then .str
  else if c = '[' then .arr
  else if c = '\x7b' then .obj
  else .num

section

variable (floats : FloatText)

variable {c : Char} (value : Json)

theorem firstShape_number (hc : c.isDigit = true ∨ c = '-') :
    firstShape c = .num := by
  rcases hc with hdigit | rfl
  · rw [firstShape]
    repeat' split
    all_goals first
      | rfl
      | (rename_i heq; simp only [Bool.or_eq_true, decide_eq_true_eq] at heq
         rcases heq with rfl | rfl <;> cases hdigit)
      | (rename_i heq; rw [heq] at hdigit; cases hdigit)
  · decide

theorem text_head :
    ∃ c rest, text floats value = c :: rest ∧ firstShape c = shape value := by
  cases value with
  | null => exact ⟨'n', _, rfl, by decide⟩
  | bool value =>
    cases value with
    | false => exact ⟨'f', _, rfl, by decide⟩
    | true => exact ⟨'t', _, rfl, by decide⟩
  | num value =>
    cases value with
    | float bits =>
      obtain ⟨c, rest, htext, hc⟩ := floats.first bits
      exact ⟨c, rest, htext, firstShape_number hc⟩
    | int value =>
      have hne : intText value ≠ [] := by
        rw [intText]
        split
        · exact cons_ne_nil _ _
        · exact Nat.toDigits_ne_nil
      obtain ⟨c, rest, htext⟩ := exists_cons_of_ne_nil hne
      have hc := intText_characters value c
        (by rw [htext]; exact mem_cons_self)
      exact ⟨c, rest, htext, firstShape_number hc⟩
  | str value => exact ⟨'"', _, rfl, rfl⟩
  | arr items => exact ⟨'[', _, rfl, rfl⟩
  | obj fields => exact ⟨'\x7b', _, rfl, rfl⟩

theorem shape_eq_of_text {left right : Json} {s t : List Char}
    (heq : text floats left ++ s = text floats right ++ t) :
    shape left = shape right := by
  obtain ⟨c, front, hleft, hc⟩ := text_head floats left
  obtain ⟨d, back, hright, hd⟩ := text_head floats right
  rw [hleft, hright] at heq
  rw [← hc, ← hd, (List.cons.inj heq).1]

theorem text_first_ne {close : Char} (hclose : firstShape close = .num)
    (hnumber : isNumberChar close = false) (value : Json) :
    ∃ c rest, text floats value = c :: rest ∧ c ≠ close := by
  obtain ⟨c, rest, htext, hc⟩ := text_head floats value
  refine ⟨c, rest, htext, ?_⟩
  rintro rfl
  cases value with
  | num value =>
    have hmem := numberText_characters floats value c
      (by rw [show numberText floats value = c :: rest from htext]
          exact mem_cons_self)
    rw [hnumber] at hmem
    cases hmem
  | null | bool | str | arr | obj =>
    rw [hclose] at hc
    cases hc

theorem fieldText_decodes {field : String × Json}
    (hvalue : Decodes (text floats) field.2) :
    Decodes (fieldText floats) field := by
  intro other s t hs ht heq
  rw [fieldText, fieldText, append_assoc, append_assoc] at heq
  obtain ⟨hname, hrest⟩ := quote_inj heq
  obtain ⟨hsame, hback⟩ := hvalue other.2 s t hs ht (List.cons.inj hrest).2
  exact ⟨Prod.ext hname hsame, hback⟩

/-- Whatever stands behind the text of a value, only the value has that
text. -/
theorem text_decodes : Decodes (text floats) value := by
  induction value using Json.nestedInduction with
  | leaf value harr hobj =>
    intro other s t hs ht heq
    have hshape := shape_eq_of_text floats heq
    cases value with
    | null =>
      cases other with
      | null => exact ⟨rfl, append_cancel_left heq⟩
      | bool | num | str | arr | obj => cases hshape
    | bool value =>
      cases other with
      | bool other =>
        cases value <;> cases other
        · exact ⟨rfl, append_cancel_left heq⟩
        · cases (List.cons.inj heq).1
        · cases (List.cons.inj heq).1
        · exact ⟨rfl, append_cancel_left heq⟩
      | null | num | str | arr | obj => cases hshape
    | num value =>
      cases other with
      | num other =>
        obtain ⟨rfl, hback⟩ := numberText_append_inj floats hs ht heq
        exact ⟨rfl, hback⟩
      | null | bool | str | arr | obj => cases hshape
    | str value =>
      cases other with
      | str other =>
        obtain ⟨rfl, hback⟩ := quote_inj heq
        exact ⟨rfl, hback⟩
      | null | bool | num | arr | obj => cases hshape
    | arr items => exact absurd rfl (harr items)
    | obj fields => exact absurd rfl (hobj fields)
  | arr items ih =>
    intro other s t _ _ heq
    have hshape := shape_eq_of_text floats heq
    cases other with
    | arr others =>
      simp only [text, itemTexts_eq, cons_append, append_assoc,
        nil_append] at heq
      obtain ⟨rfl, hback⟩ := commaJoin_inj (by decide) (by decide)
        (text_first_ne floats (by decide) (by decide)) ih
        (List.cons.inj heq).2
      exact ⟨rfl, hback⟩
    | null | bool | num | str | obj => cases hshape
  | obj fields ih =>
    intro other s t _ _ heq
    have hshape := shape_eq_of_text floats heq
    cases other with
    | obj others =>
      simp only [text, fieldTexts_eq, cons_append, append_assoc,
        nil_append] at heq
      have hfirst : ∀ field, ∃ c rest, fieldText floats field = c :: rest ∧
          c ≠ '\x7d' := fun field => ⟨'"', _, rfl, by decide⟩
      obtain ⟨rfl, hback⟩ := commaJoin_inj (by decide) (by decide) hfirst
        (fun field hfield => fieldText_decodes floats (ih field hfield))
        (List.cons.inj heq).2
      exact ⟨rfl, hback⟩
    | null | bool | num | str | arr => cases hshape

theorem text_inj {left right : Json}
    (heq : text floats left = text floats right) : left = right := by
  have hend : Closed [] := by rintro _ ⟨⟩
  exact (text_decodes floats left right [] [] hend hend (by rw [heq])).1

theorem commaJoin_mem {texts : List (List Char)} (hc : c ∈ commaJoin texts) :
    c = ',' ∨ ∃ text ∈ texts, c ∈ text := by
  cases texts with
  | nil => cases hc
  | cons text rest =>
    rw [commaJoin_cons, mem_append] at hc
    rcases hc with hhere | htail
    · exact Or.inr ⟨text, mem_cons_self, hhere⟩
    · induction rest generalizing text with
      | nil => cases htail
      | cons next rest ih =>
        rw [commaTail, cons_append, mem_cons, mem_append]
          at htail
        rcases htail with hcomma | hnext | hrest
        · exact Or.inl hcomma
        · exact Or.inr ⟨next, mem_cons_of_mem _ mem_cons_self,
            hnext⟩
        · rcases ih text hrest with hcomma | ⟨found, hfound, hin⟩
          · exact Or.inl hcomma
          · refine Or.inr ⟨found, ?_, hin⟩
            rcases mem_cons.mp hfound with rfl | hlater
            · exact mem_cons_self
            · exact mem_cons_of_mem _ (mem_cons_of_mem _ hlater)

theorem hexDigit_printed : ∀ n < 16, 32 ≤ (hexDigit n).toNat := by decide

theorem escape_printed {d : Char} (hd : d ∈ escape c) : 32 ≤ d.toNat := by
  rw [escape] at hd
  repeat' split at hd
  all_goals first
    | (simp only [mem_cons, not_mem_nil, or_false] at hd
       rcases hd with rfl | rfl <;> decide)
    | skip
  · rename_i hlow
    simp only [mem_cons, not_mem_nil, or_false] at hd
    rcases hd with rfl | rfl | rfl | rfl | rfl | rfl
    · decide
    · decide
    · decide
    · decide
    · exact hexDigit_printed _ (by omega)
    · exact hexDigit_printed _ (by omega)
  · rename_i hhigh
    rw [mem_singleton.mp hd]
    omega

theorem quote_printed {value : String} (hc : c ∈ quote value) :
    32 ≤ c.toNat := by
  simp only [quote, cons_append, mem_cons, mem_append,
    not_mem_nil, or_false] at hc
  rcases hc with rfl | hbody | rfl
  · decide
  · obtain ⟨d, -, hd⟩ := mem_flatMap.mp hbody
    exact escape_printed hd
  · decide

theorem numberChar_printed (hc : isNumberChar c = true) : 32 ≤ c.toNat := by
  rw [isNumberChar, Bool.or_eq_true, decide_eq_true_eq] at hc
  rcases hc with hdigit | hmem
  · rw [Char.isDigit, Bool.and_eq_true, decide_eq_true_eq] at hdigit
    have hlow : (48 : UInt32).toNat ≤ c.val.toNat := hdigit.1
    exact Nat.le_trans (by decide) hlow
  · simp only [mem_cons, not_mem_nil, or_false] at hmem
    rcases hmem with rfl | rfl | rfl | rfl <;> decide

theorem printed_of_all {chars : List Char}
    (hall : (chars.all fun c => 32 ≤ c.toNat) = true) :
    ∀ c ∈ chars, 32 ≤ c.toNat :=
  fun c hc => of_decide_eq_true (all_eq_true.mp hall c hc)

/-- The text of a value holds no control character. -/
theorem text_printed : ∀ c ∈ text floats value, 32 ≤ c.toNat := by
  induction value using Json.nestedInduction with
  | leaf value harr hobj =>
    intro c hc
    cases value with
    | null => exact printed_of_all rfl c hc
    | bool value =>
      cases value with
      | true => exact printed_of_all rfl c hc
      | false => exact printed_of_all rfl c hc
    | num value =>
      exact numberChar_printed (numberText_characters floats value c hc)
    | str value => exact quote_printed hc
    | arr items => exact absurd rfl (harr items)
    | obj fields => exact absurd rfl (hobj fields)
  | arr items ih =>
    intro c hc
    simp only [text, itemTexts_eq, cons_append, mem_cons,
      mem_append, not_mem_nil, or_false] at hc
    rcases hc with rfl | hbody | rfl
    · decide
    · rcases commaJoin_mem hbody with rfl | ⟨found, hfound, hin⟩
      · decide
      · obtain ⟨item, hitem, rfl⟩ := mem_map.mp hfound
        exact ih item hitem c hin
    · decide
  | obj fields ih =>
    intro c hc
    simp only [text, fieldTexts_eq, cons_append, mem_cons,
      mem_append, not_mem_nil, or_false] at hc
    rcases hc with rfl | hbody | rfl
    · decide
    · rcases commaJoin_mem hbody with rfl | ⟨found, hfound, hin⟩
      · decide
      · obtain ⟨field, hfield, rfl⟩ := mem_map.mp hfound
        rw [fieldText, mem_append, mem_cons] at hin
        rcases hin with hname | rfl | hvalue
        · exact quote_printed hname
        · decide
        · exact ih field hfield c hvalue
    · decide

end

end JsonText

end Vellum

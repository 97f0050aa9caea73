/-
The grammar of JSON texts (without blanks), over the characters.  The compact
text of a value is derivable in it once the texts of its numbers are; a text
is never wrong because of what its strings hold.
-/
import Vellum.Library.JsonText

namespace Vellum

open List

namespace JsonGrammar

def isHexDigit (c : Char) : Bool :=
  c.isDigit || ('a' ≤ c && c ≤ 'f') || ('A' ≤ c && c ≤ 'F')

/-- What may stand between the quotes of a string. -/
inductive StringBody : List Char → Prop
  | empty : StringBody []
  | plain {c : Char} {rest : List Char} (hprinted : 32 ≤ c.toNat)
      (hquote : c ≠ '"') (hslash : c ≠ '\\') (hrest : StringBody rest) :
      StringBody (c :: rest)
  | escaped {c : Char} {rest : List Char}
      (hc : c ∈ ['"', '\\', '/', 'b', 'f', 'n', 'r', 't'])
      (hrest : StringBody rest) : StringBody ('\\' :: c :: rest)
  | unicode {digits rest : List Char} (hfour : digits.length = 4)
      (hhex : digits.all isHexDigit = true) (hrest : StringBody rest) :
      StringBody ('\\' :: 'u' :: digits ++ rest)

/-- One or more decimal digits. -/
def Digits (digits : List Char) : Prop :=
  digits ≠ [] ∧ digits.all Char.isDigit = true

/-- The integer part of a number: no zero in front. -/
def Whole (digits : List Char) : Prop :=
  Digits digits ∧ (digits.head? = some '0' → digits = ['0'])

def Fraction (text : List Char) : Prop :=
  text = [] ∨ ∃ digits, Digits digits ∧ text = '.' :: digits

def Exponent (text : List Char) : Prop :=
  text = [] ∨ ∃ mark sign digits, mark ∈ ['e', 'E'] ∧
    sign ∈ [[], ['+'], ['-']] ∧ Digits digits ∧ text = mark :: sign ++ digits

def Number (text : List Char) : Prop :=
  ∃ sign whole fraction exponent, sign ∈ [[], ['-']] ∧ Whole whole ∧
    Fraction fraction ∧ Exponent exponent ∧
    text = sign ++ whole ++ fraction ++ exponent

/-- A name with its colon and its value. -/
def member (name value : List Char) : List Char :=
  '"' :: name ++ ['"', ':'] ++ value

inductive Value : List Char → Prop
  | null : Value "null".toList
  | true : Value "true".toList
  | false : Value "false".toList
  | number {text : List Char} (htext : Number text) : Value text
  | string {body : List Char} (hbody : StringBody body) :
      Value ('"' :: body ++ ['"'])
  | array {items : List (List Char)} (hitems : ∀ item ∈ items, Value item) :
      Value ('[' :: JsonText.commaJoin items ++ [']'])
  | object {members : List (List Char × List Char)}
      (hnames : ∀ field ∈ members, StringBody field.1)
      (hvalues : ∀ field ∈ members, Value field.2) :
      Value ('\x7b' :: JsonText.commaJoin
        (members.map fun field => member field.1 field.2) ++ ['\x7d'])

mutual

/-- The numbers of a value. -/
def numbers : Json → List JsonNumber
  | .num value => [value]
  | .arr items => numbersOfItems items
  | .obj fields => numbersOfFields fields
  | _ => []

def numbersOfItems : List Json → List JsonNumber
  | [] => []
  | item :: rest => numbers item ++ numbersOfItems rest

def numbersOfFields : List (String × Json) → List JsonNumber
  | [] => []
  | (_, value) :: rest => numbers value ++ numbersOfFields rest

end

theorem mem_numbersOfItems {items : List Json} {item : Json}
    {number : JsonNumber} (hitem : item ∈ items)
    (hnumber : number ∈ numbers item) : number ∈ numbersOfItems items := by
  induction items with
  | nil => exact absurd hitem not_mem_nil
  | cons first rest ih =>
    rw [numbersOfItems, mem_append]
    rcases mem_cons.mp hitem with rfl | hlater
    · exact Or.inl hnumber
    · exact Or.inr (ih hlater)

theorem mem_numbersOfFields {fields : List (String × Json)}
    {field : String × Json} {number : JsonNumber} (hfield : field ∈ fields)
    (hnumber : number ∈ numbers field.2) :
    number ∈ numbersOfFields fields := by
  induction fields with
  | nil => exact absurd hfield not_mem_nil
  | cons first rest ih =>
    rw [numbersOfFields, mem_append]
    rcases mem_cons.mp hfield with rfl | hlater
    · exact Or.inl hnumber
    · exact Or.inr (ih hlater)

theorem hexDigit_isHex : ∀ n < 16, isHexDigit (JsonText.hexDigit n) = true := by
  decide

/-- Every character is written in a way that the grammar knows. -/
theorem stringBody_escape (c : Char) {rest : List Char}
    (hrest : StringBody rest) : StringBody (JsonText.escape c ++ rest) := by
  rw [JsonText.escape]
  split_ifs with hquote hslash hb ht hn hf hr hcontrol
  pick_goal 9
  · exact StringBody.plain (Nat.le_of_not_lt hcontrol) hquote hslash hrest
  pick_goal 8
  · have hhigh := hexDigit_isHex (c.toNat / 16) (by omega)
    have hlow := hexDigit_isHex (c.toNat % 16) (by omega)
    have hzero : isHexDigit '0' = true := by decide
    refine StringBody.unicode rfl ?_ hrest
    simp only [all_cons, all_nil, hzero, hhigh, hlow, Bool.and_true]
  all_goals exact StringBody.escaped (by decide) hrest

theorem stringBody_flatMap (chars : List Char) :
    StringBody (chars.flatMap JsonText.escape) := by
  induction chars with
  | nil => exact StringBody.empty
  | cons c rest ih =>
    rw [flatMap_cons]
    exact stringBody_escape c ih

variable (floats : JsonText.FloatText)

theorem value_text (value : Json)
    (hnumbers : ∀ number ∈ numbers value,
      Number (JsonText.numberText floats number)) :
    Value (JsonText.text floats value) := by
  induction value using Json.nestedInduction with
  | leaf value harr hobj =>
    cases value with
    | null => exact Value.null
    | bool value =>
      cases value with
      | true => exact Value.true
      | false => exact Value.false
    | num value =>
      refine Value.number (hnumbers value ?_)
      rw [numbers]
      exact mem_singleton_self value
    | str value => exact Value.string (stringBody_flatMap value.toList)
    | arr items => exact absurd rfl (harr items)
    | obj fields => exact absurd rfl (hobj fields)
  | arr items ih =>
    rw [numbers] at hnumbers
    rw [JsonText.text, JsonText.itemTexts_eq]
    refine Value.array ?_
    intro text htext
    obtain ⟨item, hitem, rfl⟩ := mem_map.mp htext
    exact ih item hitem fun number hnumber =>
      hnumbers number (mem_numbersOfItems hitem hnumber)
  | obj fields ih =>
    rw [numbers] at hnumbers
    have hmembers : JsonText.fieldTexts floats fields =
        (fields.map fun field =>
          (field.1.toList.flatMap JsonText.escape,
            JsonText.text floats field.2)).map
          fun field => member field.1 field.2 := by
      rw [JsonText.fieldTexts_eq, map_map]
      refine map_congr_left ?_
      intro field _
      simp [JsonText.fieldText, JsonText.quote, member]
    rw [JsonText.text, hmembers]
    refine Value.object ?_ ?_
    · intro field hfield
      obtain ⟨source, -, rfl⟩ := mem_map.mp hfield
      exact stringBody_flatMap source.1.toList
    · intro field hfield
      obtain ⟨source, hsource, rfl⟩ := mem_map.mp hfield
      exact ih source hsource fun number hnumber =>
        hnumbers number (mem_numbersOfFields hsource hnumber)

end JsonGrammar

end Vellum

/-
What is hashed of a provider tool call
(`vellum-enhanced-codex/src/tool_reliability.rs`).  The fingerprint is a digest
of texts joined by NUL, over JSON with its fields in order; it tells the calls
of one id apart.
-/
import Vellum.Enhanced.ToolCallLedger

namespace Vellum.Enhanced

open List

/-- The arguments of a call: a JSON value, or the raw text of a custom
tool. -/
inductive CallInput where
  | json (arguments : Json)
  | raw (input : String)

structure CallRequest where
  providerCallId : String
  toolName : String
  toolKind : ToolKind := .function
  namespaceName : String := ""
  input : CallInput

def CallRequest.identity (crates : LedgerCrates) (request : CallRequest) :
    ProviderToolCallIdentity :=
  match request.input with
  | .json arguments =>
    ToolCallLedger.identityJson crates request.providerCallId
      request.toolName request.toolKind request.namespaceName arguments
  | .raw input =>
    ToolCallLedger.identityRaw crates request.providerCallId request.toolName
      request.toolKind request.namespaceName input

/-- An object has each name once. -/
def CallRequest.Distinct (request : CallRequest) : Prop :=
  ∀ arguments, request.input = .json arguments → arguments.distinct = true

def SameInput : CallInput → CallInput → Prop
  | .json left, .json right => Json.Alike left right
  | .raw left, .raw right => left = right
  | _, _ => False

/-- Two requests ask for the same call. -/
def SameCall (left right : CallRequest) : Prop :=
  left.toolName = right.toolName ∧ left.toolKind = right.toolKind ∧
    canonicalNamespace left.namespaceName =
      canonicalNamespace right.namespaceName ∧
    SameInput left.input right.input

/-! What is hashed. -/

theorem canonicalItems_eq (floats : JsonText.FloatText) (items : List Json) :
    canonicalItems floats items = items.map (canonicalJson floats) := by
  induction items with
  | nil => rfl
  | cons item rest ih => rw [canonicalItems, ih, map_cons]

theorem canonicalFields_eq (floats : JsonText.FloatText)
    (fields : List (String × Json)) :
    canonicalFields floats fields =
      fields.map fun field => (field.1, canonicalJson floats field.2) := by
  induction fields with
  | nil => rfl
  | cons field rest ih => rw [canonicalFields, ih, map_cons]

/-- The canonical text is the text of the value with its fields in order. -/
theorem canonicalJson_eq (floats : JsonText.FloatText) (value : Json) :
    canonicalJson floats value = JsonText.text floats value.sortKeys := by
  induction value using Json.nestedInduction with
  | leaf value harr hobj =>
    cases value with
    | arr items => exact absurd rfl (harr items)
    | obj fields => exact absurd rfl (hobj fields)
    | _ => rfl
  | arr items ih =>
    rw [canonicalJson, Json.sortKeys, JsonText.text, canonicalItems_eq,
      JsonText.itemTexts_eq, Json.sortItems_eq, map_map]
    have hitems : items.map (canonicalJson floats) =
        items.map (JsonText.text floats ∘ Json.sortKeys) :=
      map_congr_left ih
    rw [hitems]
  | obj fields ih =>
    have hsorted : canonicalFields floats fields =
        (Json.sortFields fields).map fun field =>
          (field.1, JsonText.text floats field.2) := by
      rw [canonicalFields_eq, Json.sortFields_eq, map_map]
      exact map_congr_left fun field hfield => by
        rw [ih field hfield]
        rfl
    rw [canonicalJson, Json.sortKeys, JsonText.text, JsonText.fieldTexts_eq,
      hsorted, ← map_insertionSort (r := Json.byName), map_map]
    · rfl
    · exact fun left _ right _ => Iff.rfl

theorem hexValue_digit : ∀ n < 16,
    JsonText.hexValue (JsonText.hexDigit n) = n := by decide

theorem hexByte_inj {left right : UInt8}
    (heq : Proxy.hexByte left = Proxy.hexByte right) : left = right := by
  have hleft : left.toNat < 256 := left.toNat_lt
  have hright : right.toNat < 256 := right.toNat_lt
  have hhigh : JsonText.hexDigit (left.toNat / 16) =
      JsonText.hexDigit (right.toNat / 16) := (List.cons.inj heq).1
  have hlow : JsonText.hexDigit (left.toNat % 16) =
      JsonText.hexDigit (right.toNat % 16) :=
    (List.cons.inj (List.cons.inj heq).2).1
  have hdiv := congrArg JsonText.hexValue hhigh
  have hmod := congrArg JsonText.hexValue hlow
  rw [hexValue_digit _ (by omega), hexValue_digit _ (by omega)] at hdiv
  rw [hexValue_digit _ (by omega), hexValue_digit _ (by omega)] at hmod
  apply UInt8.toNat_inj.mp
  omega

theorem hexBytes_inj {left right : List UInt8}
    (heq : left.flatMap Proxy.hexByte = right.flatMap Proxy.hexByte) :
    left = right := by
  induction left generalizing right with
  | nil =>
    cases right with
    | nil => rfl
    | cons byte rest => cases heq
  | cons byte rest ih =>
    cases right with
    | nil => cases heq
    | cons other others =>
      rw [flatMap_cons, flatMap_cons] at heq
      obtain ⟨hbyte, hrest⟩ := append_inj heq rfl
      rw [hexByte_inj hbyte, ih hrest]

section Fingerprint

variable {crates : LedgerCrates} (hsha : Function.Injective crates.sha256)
include hsha

theorem digestText_inj {left right : String}
    (heq : digestText crates left = digestText crates right) :
    left = right := by
  have hchars := congrArg String.toList heq
  simp only [digestText, String.toList_append, String.toList_ofList] at hchars
  exact hsha (hexBytes_inj (append_cancel_left hchars))

theorem fingerprint_payload {toolName : String} {toolKind : ToolKind}
    {leftSpace rightSpace : String} {left right : InputEncoding}
    {payload other : List Char}
    (heq : fingerprint crates toolName toolKind leftSpace left payload =
      fingerprint crates toolName toolKind rightSpace right other) :
    payload ++ fingerprintSuffix toolKind leftSpace left =
      other ++ fingerprintSuffix toolKind rightSpace right := by
  have htext := congrArg String.toList (digestText_inj hsha heq)
  rw [String.toList_ofList, String.toList_ofList, append_assoc,
    append_assoc] at htext
  exact (List.cons.inj (append_cancel_left htext)).2

end Fingerprint

theorem fingerprintSuffix_congr {toolKind : ToolKind} {left right : String}
    (hspace : canonicalNamespace left = canonicalNamespace right)
    (encoding : InputEncoding) :
    fingerprintSuffix toolKind left encoding =
      fingerprintSuffix toolKind right encoding := by
  rw [fingerprintSuffix, fingerprintSuffix, hspace]

/-- JSON text has no NUL, so its fingerprint is never that of raw text. -/
theorem suffix_tells_encoding {toolKind : ToolKind} {left right : String}
    (hspace : canonicalNamespace left = canonicalNamespace right)
    {payload raw : List Char} (hpayload : ∀ c ∈ payload, 32 ≤ c.toNat) :
    payload ++ fingerprintSuffix toolKind left .jsonArguments ≠
      raw ++ fingerprintSuffix toolKind right .rawCustom := by
  have hraw : fingerprintSuffix toolKind right .rawCustom =
      '\x00' :: toolKind.asStr.toList ++
        '\x00' :: (canonicalNamespace right).toList ++
        '\x00' :: InputEncoding.rawCustom.asStr.toList :=
    if_neg fun hdefault => by cases hdefault.2.2
  rw [hraw, fingerprintSuffix, hspace]
  split
  · intro heq
    have hnul : '\x00' ∈ payload ++ [] := by
      rw [heq]
      simp
    rw [append_nil] at hnul
    exact absurd (hpayload _ hnul) (by decide)
  · intro heq
    have hjson : ∀ front : List Char, (front ++ '\x00' ::
        InputEncoding.jsonArguments.asStr.toList).getLast? = some 's' :=
      fun front => by simp [InputEncoding.asStr]
    have hcustom : ∀ front : List Char, (front ++ '\x00' ::
        InputEncoding.rawCustom.asStr.toList).getLast? = some 'm' :=
      fun front => by simp [InputEncoding.asStr]
    rw [← append_assoc, ← append_assoc raw] at heq
    have hlast := hjson (payload ++ ('\x00' :: toolKind.asStr.toList ++
      '\x00' :: (canonicalNamespace right).toList))
    rw [heq, hcustom] at hlast
    cases hlast

/-- The ledger tells two requests of one id apart by what they ask for. -/
theorem sameCall_iff {crates : LedgerCrates}
    (hsha : Function.Injective crates.sha256) {left right : CallRequest}
    (hleft : left.Distinct) (hright : right.Distinct) :
    SameCall left right ↔
      (left.identity crates).toolName = (right.identity crates).toolName ∧
      (left.identity crates).toolKind = (right.identity crates).toolKind ∧
      (left.identity crates).namespaceName =
        (right.identity crates).namespaceName ∧
      (left.identity crates).argumentFingerprint =
        (right.identity crates).argumentFingerprint := by
  obtain ⟨_, name, kind, leftSpace, leftInput⟩ := left
  obtain ⟨_, name', kind', rightSpace, rightInput⟩ := right
  have hprinted : ∀ arguments, ∀ c ∈ canonicalJson crates.floats arguments,
      32 ≤ c.toNat := by
    intro arguments
    rw [canonicalJson_eq]
    exact JsonText.text_printed crates.floats _
  have hcanonical : ∀ {a b : Json}, a.distinct = true → b.distinct = true →
      (Json.Alike a b ↔
        canonicalJson crates.floats a = canonicalJson crates.floats b) := by
    intro a b ha hb
    rw [canonicalJson_eq, canonicalJson_eq, ← Json.sortKeys_eq_iff ha hb]
    exact ⟨congrArg _, JsonText.text_inj crates.floats⟩
  cases leftInput with
  | json a =>
    cases rightInput with
    | json b =>
      have hsame := hcanonical (hleft a rfl) (hright b rfl)
      constructor
      · rintro ⟨hname, hkind, hspace, halike⟩
        refine ⟨hname, hkind, hspace, ?_⟩
        change fingerprint _ name kind leftSpace _ _ =
          fingerprint _ name' kind' rightSpace _ _
        change name = name' at hname
        change kind = kind' at hkind
        rw [fingerprint, fingerprint, hsame.mp halike, hname, hkind,
          fingerprintSuffix_congr hspace]
      · rintro ⟨hname, hkind, hspace, hprint⟩
        change name = name' at hname
        change kind = kind' at hkind
        subst hname hkind
        have htext := fingerprint_payload hsha hprint
        rw [fingerprintSuffix_congr hspace] at htext
        exact ⟨rfl, rfl, hspace,
          hsame.mpr (append_cancel_right htext)⟩
    | raw b =>
      refine ⟨fun hsame => absurd hsame.2.2.2 id, ?_⟩
      rintro ⟨hname, hkind, hspace, hprint⟩
      change name = name' at hname
      change kind = kind' at hkind
      subst hname hkind
      exact absurd (fingerprint_payload hsha hprint)
        (suffix_tells_encoding hspace (hprinted a))
  | raw a =>
    cases rightInput with
    | json b =>
      refine ⟨fun hsame => absurd hsame.2.2.2 id, ?_⟩
      rintro ⟨hname, hkind, hspace, hprint⟩
      change name = name' at hname
      change kind = kind' at hkind
      subst hname hkind
      exact absurd (fingerprint_payload hsha hprint).symm
        (suffix_tells_encoding hspace.symm (hprinted b))
    | raw b =>
      constructor
      · rintro ⟨hname, hkind, hspace, hraw⟩
        refine ⟨hname, hkind, hspace, ?_⟩
        change fingerprint _ name kind leftSpace _ _ =
          fingerprint _ name' kind' rightSpace _ _
        change name = name' at hname
        change kind = kind' at hkind
        change a = b at hraw
        rw [fingerprint, fingerprint, hraw, hname, hkind,
          fingerprintSuffix_congr hspace]
      · rintro ⟨hname, hkind, hspace, hprint⟩
        change name = name' at hname
        change kind = kind' at hkind
        subst hname hkind
        have htext := fingerprint_payload hsha hprint
        rw [fingerprintSuffix_congr hspace] at htext
        exact ⟨rfl, rfl, hspace,
          String.toList_inj.mp (append_cancel_right htext)⟩

end Vellum.Enhanced

/-
The ledger of provider tool calls
(`vellum-enhanced-codex/src/tool_reliability.rs`).  A call is reserved under
its id when it is first admitted; a later call with the id is told apart from
a replay by a digest of its tool and arguments.  The ledger is saved as JSON
and restored on resume.
-/
import Vellum.Library.HashMap
import Vellum.Library.JsonOrder
import Vellum.Library.JsonRecord
import Vellum.Library.JsonText
import Vellum.Proxy.ToolContext

namespace Vellum.Enhanced

open Json

/-- What the ledger calls of other crates: SHA-256 of a text, and the texts
of doubles. -/
structure LedgerCrates where
  sha256 : String → List UInt8
  floats : JsonText.FloatText

inductive ToolKind where
  | function
  | custom
  | toolSearch
deriving DecidableEq

def ToolKind.asStr : ToolKind → String
  | function => "function"
  | custom => "custom"
  | toolSearch => "tool_search"

inductive InputEncoding where
  | jsonArguments
  | rawCustom
deriving DecidableEq

def InputEncoding.asStr : InputEncoding → String
  | jsonArguments => "json_arguments"
  | rawCustom => "raw_custom"

/-- No namespace and Codex's default namespace are the same. -/
def canonicalNamespace (namespaceName : String) : String :=
  if namespaceName = "" ∨ namespaceName = "functions" then ""
  else namespaceName

structure ProviderToolCallIdentity where
  providerCallId : String
  toolName : String
  toolKind : ToolKind := .function
  namespaceName : String := ""
  argumentFingerprint : String
  inputEncoding : InputEncoding := .jsonArguments

inductive ToolCallResolution where
  | inFlight
  | executed
  | failed
  | cancelled
  | syntheticDuplicate
deriving DecidableEq

structure HandledToolCall where
  identity : ProviderToolCallIdentity
  resolution : ToolCallResolution
  originalAdmitted : Bool
  syntheticDuplicateEmitted : Bool
  originalResultDelivered : Bool
  dispatchIndex : UInt64 := 0

structure ToolCallLedger where
  handled : HashMap String HandledToolCall := .empty
  nextDispatchIndex : UInt64 := 0

inductive AdmitDecision where
  | execute
  | suppressDuplicate (message : String)
  | failClosed (message : String)

inductive LateResultDecision where
  | accept
  | suppress

/-- The kinds of events the ledger emits. -/
inductive EnhancedEventKind where
  | toolDuplicateDetected
  | toolDuplicateSuppressed
  | toolCallIdCollision

structure EnhancedEvent where
  kind : EnhancedEventKind
  callIdHash : String

structure ToolReliabilityOutcome where
  decision : AdmitDecision
  events : List EnhancedEvent

/-- A digest as the ledger writes it. -/
def digestText (crates : LedgerCrates) (text : String) : String :=
  "sha256:" ++ String.ofList ((crates.sha256 text).flatMap Proxy.hexByte)

def hashIdentifier (crates : LedgerCrates) (value : String) : String :=
  digestText crates value

mutual

/-- The text of a value with the fields of objects in the order of their
names. -/
def canonicalJson (floats : JsonText.FloatText) : Json → List Char
  | .obj fields =>
    '\x7b' :: JsonText.commaJoin
      (((canonicalFields floats fields).insertionSort
        fun left right => left.1 ≤ right.1).map
        fun field => JsonText.quote field.1 ++ ':' :: field.2) ++ ['\x7d']
  | .arr items =>
    '[' :: JsonText.commaJoin (canonicalItems floats items) ++ [']']
  | value => JsonText.text floats value

def canonicalItems (floats : JsonText.FloatText) :
    List Json → List (List Char)
  | [] => []
  | item :: rest => canonicalJson floats item :: canonicalItems floats rest

def canonicalFields (floats : JsonText.FloatText) :
    List (String × Json) → List (String × List Char)
  | [] => []
  | (name, value) :: rest =>
    (name, canonicalJson floats value) :: canonicalFields floats rest

end

/-- What of a call's kind, namespace and encoding is hashed behind its
payload: nothing for a function of the default namespace with JSON
arguments. -/
def fingerprintSuffix (toolKind : ToolKind) (namespaceName : String)
    (encoding : InputEncoding) : List Char :=
  let namespaceName := canonicalNamespace namespaceName
  if toolKind = .function ∧ namespaceName = "" ∧ encoding = .jsonArguments then
    []
  else
    '\x00' :: toolKind.asStr.toList ++ '\x00' :: namespaceName.toList ++
      '\x00' :: encoding.asStr.toList

def fingerprint (crates : LedgerCrates) (toolName : String)
    (toolKind : ToolKind) (namespaceName : String) (encoding : InputEncoding)
    (payload : List Char) : String :=
  digestText crates (String.ofList (toolName.toList ++ '\x00' :: payload ++
    fingerprintSuffix toolKind namespaceName encoding))

namespace ToolCallLedger

variable (crates : LedgerCrates) (ledger : ToolCallLedger)

def fingerprintJson (toolName : String) (toolKind : ToolKind)
    (namespaceName : String) (arguments : Json) : String :=
  fingerprint crates toolName toolKind namespaceName .jsonArguments
    (canonicalJson crates.floats arguments)

def fingerprintRaw (toolName : String) (toolKind : ToolKind)
    (namespaceName rawInput : String) : String :=
  fingerprint crates toolName toolKind namespaceName .rawCustom rawInput.toList

def identityJson (providerCallId toolName : String) (toolKind : ToolKind)
    (namespaceName : String) (arguments : Json) : ProviderToolCallIdentity where
  providerCallId := providerCallId
  toolName := toolName
  toolKind := toolKind
  namespaceName := canonicalNamespace namespaceName
  argumentFingerprint :=
    fingerprintJson crates toolName toolKind namespaceName arguments
  inputEncoding := .jsonArguments

def identityRaw (providerCallId toolName : String) (toolKind : ToolKind)
    (namespaceName rawInput : String) : ProviderToolCallIdentity where
  providerCallId := providerCallId
  toolName := toolName
  toolKind := toolKind
  namespaceName := canonicalNamespace namespaceName
  argumentFingerprint :=
    fingerprintRaw crates toolName toolKind namespaceName rawInput
  inputEncoding := .rawCustom

def collisionMessage (id : String) : String :=
  "provider protocol collision: call id " ++ id ++
    " reused with a different tool or argument fingerprint"

def duplicateMessage (id : String) : String :=
  "duplicate provider tool call " ++ id ++ " was not executed"

/-- The source's `admit`: the first call under an id is reserved; a later one
is a duplicate or a collision. -/
def admitCall (identity : ProviderToolCallIdentity) :
    ToolCallLedger × ToolReliabilityOutcome :=
  let id := identity.providerCallId
  match ledger.handled.get id with
  | some existing =>
    if existing.identity.toolName ≠ identity.toolName ∨
        existing.identity.toolKind ≠ identity.toolKind ∨
        existing.identity.namespaceName ≠ identity.namespaceName ∨
        existing.identity.argumentFingerprint ≠
          identity.argumentFingerprint then
      (ledger, ⟨.failClosed (collisionMessage id),
        [⟨.toolCallIdCollision, hashIdentifier crates id⟩]⟩)
    else
      let marked := { existing with syntheticDuplicateEmitted := true }
      ({ ledger with handled := ledger.handled.insert id marked },
        ⟨.suppressDuplicate (duplicateMessage id),
          [⟨.toolDuplicateDetected, hashIdentifier crates id⟩,
            ⟨.toolDuplicateSuppressed, hashIdentifier crates id⟩]⟩)
  | none =>
    let reserved : HandledToolCall :=
      { identity
        resolution := .inFlight
        originalAdmitted := true
        syntheticDuplicateEmitted := false
        originalResultDelivered := false
        dispatchIndex := ledger.nextDispatchIndex }
    (⟨ledger.handled.insert id reserved,
      if ledger.nextDispatchIndex.toNat + 1 < 2 ^ 64 then
        ledger.nextDispatchIndex + 1
      else ledger.nextDispatchIndex⟩, ⟨.execute, []⟩)

/-- A synthetic duplicate is a result for the model, not a resolution of the
call. -/
def markResolution (id : String) (resolution : ToolCallResolution) :
    ToolCallLedger :=
  match ledger.handled.get id with
  | some existing =>
    let marked : HandledToolCall :=
      if resolution = .syntheticDuplicate then
        { existing with syntheticDuplicateEmitted := true }
      else { existing with resolution }
    { ledger with handled := ledger.handled.insert id marked }
  | none => ledger

def completeOriginal (id : String) : ToolCallLedger × LateResultDecision :=
  match ledger.handled.get id with
  | some handled =>
    if handled.originalAdmitted && !handled.originalResultDelivered then
      let delivered := { handled with originalResultDelivered := true }
      ({ ledger with handled := ledger.handled.insert id delivered },
        .accept)
    else (ledger, .suppress)
  | none => (ledger, .suppress)

end ToolCallLedger

/-! The durable form of the ledger. -/

def ToolKind.durable : ToolKind → Json
  | function => .str "function"
  | custom => .str "custom"
  | toolSearch => .str "toolSearch"

def ToolKind.read (value : Json) : Option ToolKind :=
  match value.asStr with
  | some "function" => some .function
  | some "custom" => some .custom
  | some "toolSearch" => some .toolSearch
  | _ => none

def InputEncoding.durable : InputEncoding → Json
  | jsonArguments => .str "jsonArguments"
  | rawCustom => .str "rawCustom"

def InputEncoding.read (value : Json) : Option InputEncoding :=
  match value.asStr with
  | some "jsonArguments" => some .jsonArguments
  | some "rawCustom" => some .rawCustom
  | _ => none

def ToolCallResolution.durable : ToolCallResolution → Json
  | inFlight => .str "inFlight"
  | executed => .str "executed"
  | failed => .str "failed"
  | cancelled => .str "cancelled"
  | syntheticDuplicate => .str "syntheticDuplicate"

def ToolCallResolution.read (value : Json) : Option ToolCallResolution :=
  match value.asStr with
  | some "inFlight" => some .inFlight
  | some "executed" => some .executed
  | some "failed" => some .failed
  | some "cancelled" => some .cancelled
  | some "syntheticDuplicate" => some .syntheticDuplicate
  | _ => none

def ProviderToolCallIdentity.durable (identity : ProviderToolCallIdentity) :
    Json :=
  .obj [("providerCallId", .str identity.providerCallId),
    ("toolName", .str identity.toolName),
    ("toolKind", identity.toolKind.durable),
    ("namespace", .str identity.namespaceName),
    ("argumentFingerprint", .str identity.argumentFingerprint),
    ("inputEncoding", identity.inputEncoding.durable)]

def ProviderToolCallIdentity.read (value : Json) :
    Option ProviderToolCallIdentity := do
  let providerCallId ← value.field Json.asStr "providerCallId"
  let toolName ← value.field Json.asStr "toolName"
  let toolKind ← value.fieldOr .function ToolKind.read "toolKind"
  let namespaceName ← value.fieldOr "" Json.asStr "namespace"
  let argumentFingerprint ← value.field Json.asStr "argumentFingerprint"
  let inputEncoding ←
    value.fieldOr .jsonArguments InputEncoding.read "inputEncoding"
  some ⟨providerCallId, toolName, toolKind, namespaceName, argumentFingerprint,
    inputEncoding⟩

def HandledToolCall.durable (handled : HandledToolCall) : Json :=
  .obj [("identity", handled.identity.durable),
    ("resolution", handled.resolution.durable),
    ("originalAdmitted", .bool handled.originalAdmitted),
    ("syntheticDuplicateEmitted", .bool handled.syntheticDuplicateEmitted),
    ("originalResultDelivered", .bool handled.originalResultDelivered),
    ("dispatchIndex", .nat handled.dispatchIndex.toNat)]

def HandledToolCall.read (value : Json) : Option HandledToolCall := do
  let identity ← value.field ProviderToolCallIdentity.read "identity"
  let resolution ← value.field ToolCallResolution.read "resolution"
  let originalAdmitted ← value.field Json.asBool "originalAdmitted"
  let syntheticDuplicateEmitted ←
    value.field Json.asBool "syntheticDuplicateEmitted"
  let originalResultDelivered ←
    value.field Json.asBool "originalResultDelivered"
  let dispatchIndex ← value.fieldOr 0 Json.readU64 "dispatchIndex"
  some ⟨identity, resolution, originalAdmitted, syntheticDuplicateEmitted,
    originalResultDelivered, dispatchIndex⟩

/-- A map from the fields of an object; a repeated name keeps its last
value. -/
def readHandled (value : Json) : Option (HashMap String HandledToolCall) := do
  let fields ← value.asObj
  let entries ← fields.mapM fun field =>
    (HandledToolCall.read field.2).map fun handled => (field.1, handled)
  some (entries.foldl KeyedTable.put KeyedTable.empty)

namespace ToolCallLedger

def toDurableJson (ledger : ToolCallLedger) : Json :=
  .obj [("handled", .obj (ledger.handled.rows.map fun entry =>
      (entry.1, entry.2.durable))),
    ("nextDispatchIndex", .nat ledger.nextDispatchIndex.toNat)]

def fromDurableJson (value : Json) : Option ToolCallLedger := do
  let handled ← value.field readHandled "handled"
  let nextDispatchIndex ← value.fieldOr 0 Json.readU64 "nextDispatchIndex"
  some ⟨handled, nextDispatchIndex⟩

end ToolCallLedger

theorem ToolKind.read_durable (kind : ToolKind) :
    ToolKind.read kind.durable = some kind := by
  cases kind <;> rfl

theorem InputEncoding.read_durable (encoding : InputEncoding) :
    InputEncoding.read encoding.durable = some encoding := by
  cases encoding <;> rfl

theorem ToolCallResolution.read_durable (resolution : ToolCallResolution) :
    ToolCallResolution.read resolution.durable = some resolution := by
  cases resolution <;> rfl

theorem ProviderToolCallIdentity.read_durable
    (identity : ProviderToolCallIdentity) :
    ProviderToolCallIdentity.read identity.durable = some identity := by
  have hkind := identity.toolKind.read_durable
  have hencoding := identity.inputEncoding.read_durable
  rw [read, durable, field_of_get rfl, field_of_get rfl,
    fieldOr_of_get rfl, fieldOr_of_get rfl, field_of_get rfl,
    fieldOr_of_get rfl, hkind, hencoding]
  rfl

theorem HandledToolCall.read_durable (handled : HandledToolCall) :
    HandledToolCall.read handled.durable = some handled := by
  have hidentity := handled.identity.read_durable
  have hresolution := handled.resolution.read_durable
  rw [read, durable, field_of_get rfl, field_of_get rfl,
    field_of_get rfl, field_of_get rfl, field_of_get rfl,
    fieldOr_of_get rfl, hidentity, hresolution, readU64_nat]
  rfl

theorem readHandled_durable (handled : HashMap String HandledToolCall) :
    readHandled (.obj (handled.rows.map fun entry =>
      (entry.1, entry.2.durable))) = some handled := by
  have hentries : (handled.rows.map fun entry =>
      (entry.1, entry.2.durable)).mapM (fun field =>
        (HandledToolCall.read field.2).map fun handled => (field.1, handled)) =
      some handled.rows := by
    generalize handled.rows = rows
    induction rows with
    | nil => rfl
    | cons entry rest ih =>
      rw [List.map_cons, List.mapM_cons, HandledToolCall.read_durable, ih]
      rfl
  have hrows : (handled.rows.foldl KeyedTable.put
      (KeyedTable.empty : HashMap String HandledToolCall)).rows =
        handled.rows :=
    KeyedTable.rows_foldl_put handled.keys_nodup
  rw [readHandled, Json.asObj]
  simp only [bind, Option.bind, hentries]
  exact congrArg some (KeyedTable.eq_of_rows hrows)

theorem ToolCallLedger.from_toDurableJson (ledger : ToolCallLedger) :
    fromDurableJson ledger.toDurableJson = some ledger := by
  rw [fromDurableJson, toDurableJson, field_of_get rfl,
    fieldOr_of_get rfl, readHandled_durable, readU64_nat]
  rfl

end Vellum.Enhanced

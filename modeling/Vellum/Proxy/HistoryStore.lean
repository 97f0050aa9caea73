/-
The durable history of exchanges (`vellum-proxy-runtime/src/history.rs`,
`FileHistoryStore`).  Exchanges, compaction journals and conversation keys are
held in hash maps and rewritten to one file of JSON lines on every record; a
restarted store reads the lines back and tells the three kinds apart by
trying to parse them.  A hash map iterates in the order of its rows, which any
call may change.
-/
import Vellum.Library.KeyedTable
import Vellum.Library.StepRun
import Vellum.Proxy.CodexMetadata

namespace Vellum.Proxy

open Json

/-- One recorded exchange. -/
structure HistoryEntry where
  responseId : String
  previousResponseId : Option String
  routeId : String
  continuationRealm : Option String
  inputItems : List Json
  outputItems : List Json
  createdAt : Int64
deriving DecidableEq

/-- A compaction to be journaled. -/
structure CompactionJournalRecord where
  responseId : String
  compactionId : String
  generation : UInt32
  engineId : String
  engineProvenance : Option String
  routeId : String
  upstreamModel : String
  tokensBefore : UInt64
  tokensAfter : UInt64
  elapsedMs : UInt64
  schemaVersion : UInt32
  sourceItems : List Json
  canonicalItems : List Json
  sourceHash : String
  checkpointHash : String
  providerOwned : Bool

/-- A journaled compaction. -/
structure CompactionJournal where
  compactionId : String
  engineId : String
  engineProvenance : Option String
  routeId : String
  upstreamModel : String
  tokensBefore : UInt64
  tokensAfter : UInt64
  elapsedMs : UInt64
  responseId : String
  generation : UInt32
  canonicalItems : List Json
  sourceItems : List Json
  schemaVersion : UInt32
  sourceHash : String
  checkpointHash : String
  createdAt : Int64
deriving DecidableEq

def CompactionJournal.fromRecord (record : CompactionJournalRecord)
    (now : Int64) : CompactionJournal where
  compactionId := record.compactionId
  engineId := record.engineId
  engineProvenance := record.engineProvenance
  routeId := record.routeId
  upstreamModel := record.upstreamModel
  tokensBefore := record.tokensBefore
  tokensAfter := record.tokensAfter
  elapsedMs := record.elapsedMs
  responseId := record.responseId
  generation := record.generation
  canonicalItems := record.canonicalItems
  sourceItems := record.sourceItems
  schemaVersion := record.schemaVersion
  sourceHash := record.sourceHash
  checkpointHash := record.checkpointHash
  createdAt := now

/-- An exchange as it is written; a realm that is not known is left out. -/
def HistoryEntry.toJson (entry : HistoryEntry) : Json :=
  .obj ([("response_id", .str entry.responseId),
    ("previous_response_id", .ofOption entry.previousResponseId),
    ("route_id", .str entry.routeId)] ++
    (entry.continuationRealm.map fun realm =>
      ("continuation_realm", Json.str realm)).toList ++
    [("input_items", .arr entry.inputItems),
    ("output_items", .arr entry.outputItems),
    ("created_at", .int64 entry.createdAt)])

def HistoryEntry.fromJson (value : Json) : Option HistoryEntry := do
  return {
    responseId := ← value.field Json.asStr "response_id"
    previousResponseId := ← value.optionalField Json.asStr "previous_response_id"
    routeId := ← value.field Json.asStr "route_id"
    continuationRealm := ← value.optionalField Json.asStr "continuation_realm"
    inputItems := ← value.field Json.asArr "input_items"
    outputItems := ← value.field Json.asArr "output_items"
    createdAt := ← value.field Json.readI64 "created_at" }

def CompactionJournal.toJson (journal : CompactionJournal) : Json :=
  .obj [("compaction_id", .str journal.compactionId),
    ("engine_id", .str journal.engineId),
    ("engine_provenance", .ofOption journal.engineProvenance),
    ("route_id", .str journal.routeId),
    ("upstream_model", .str journal.upstreamModel),
    ("tokens_before", .nat journal.tokensBefore.toNat),
    ("tokens_after", .nat journal.tokensAfter.toNat),
    ("elapsed_ms", .nat journal.elapsedMs.toNat),
    ("response_id", .str journal.responseId),
    ("generation", .nat journal.generation.toNat),
    ("canonical_items", .arr journal.canonicalItems),
    ("source_items", .arr journal.sourceItems),
    ("schema_version", .nat journal.schemaVersion.toNat),
    ("source_hash", .str journal.sourceHash),
    ("checkpoint_hash", .str journal.checkpointHash),
    ("created_at", .int64 journal.createdAt)]

/-- A record without an engine id was written by the retired engine. -/
def defaultEngineId : String := "vellum_canonical_retired"

def defaultJournalSchemaVersion : UInt32 := 1

def CompactionJournal.fromJson (value : Json) : Option CompactionJournal := do
  return {
    compactionId := ← value.field Json.asStr "compaction_id"
    engineId := ← value.fieldOr defaultEngineId Json.asStr "engine_id"
    engineProvenance := ← value.optionalField Json.asStr "engine_provenance"
    routeId := ← value.fieldOr "" Json.asStr "route_id"
    upstreamModel := ← value.fieldOr "" Json.asStr "upstream_model"
    tokensBefore := ← value.fieldOr 0 Json.readU64 "tokens_before"
    tokensAfter := ← value.fieldOr 0 Json.readU64 "tokens_after"
    elapsedMs := ← value.fieldOr 0 Json.readU64 "elapsed_ms"
    responseId := ← value.field Json.asStr "response_id"
    generation := ← value.field Json.readU32 "generation"
    canonicalItems := ← value.field Json.asArr "canonical_items"
    sourceItems := ← value.fieldOr [] Json.asArr "source_items"
    schemaVersion :=
      ← value.fieldOr defaultJournalSchemaVersion Json.readU32 "schema_version"
    sourceHash := ← value.fieldOr "" Json.asStr "source_hash"
    checkpointHash := ← value.fieldOr "" Json.asStr "checkpoint_hash"
    createdAt := ← value.field Json.readI64 "created_at" }

/-- An exchange is read back as it was written. -/
theorem HistoryEntry.fromJson_toJson (entry : HistoryEntry) :
    HistoryEntry.fromJson entry.toJson = some entry := by
  obtain ⟨responseId, previous, routeId, realm, input, output, createdAt⟩ :=
    entry
  cases realm with
  | none =>
    simp [HistoryEntry.fromJson, HistoryEntry.toJson, Json.field,
      Json.optionalField, Json.fieldOr, get_cons,
      optional_ofOption, readI64_int64, Json.asStr, Json.asArr]
    rfl
  | some realm =>
    simp [HistoryEntry.fromJson, HistoryEntry.toJson, Json.field,
      Json.optionalField, Json.fieldOr, get_cons,
      optional_ofOption, readI64_int64, Json.asStr, Json.asArr]
    rfl

theorem CompactionJournal.fromJson_toJson (journal : CompactionJournal) :
    CompactionJournal.fromJson journal.toJson = some journal := by
  have hget (name : String) (value : Json)
      (hname : journal.toJson.get name = some value) := hname
  have hcompaction := field_of_get (hget "compaction_id" _ rfl) Json.asStr
  have hengine := fieldOr_of_get (hget "engine_id" _ rfl)
    defaultEngineId Json.asStr
  have hprovenance := fieldOr_of_get (hget "engine_provenance" _ rfl)
    none (Json.optional Json.asStr)
  have hroute := fieldOr_of_get (hget "route_id" _ rfl) "" Json.asStr
  have hmodel := fieldOr_of_get (hget "upstream_model" _ rfl) ""
    Json.asStr
  have hbefore := fieldOr_of_get (hget "tokens_before" _ rfl) 0
    Json.readU64
  have hafter := fieldOr_of_get (hget "tokens_after" _ rfl) 0 Json.readU64
  have helapsed := fieldOr_of_get (hget "elapsed_ms" _ rfl) 0 Json.readU64
  have hresponse := field_of_get (hget "response_id" _ rfl) Json.asStr
  have hgeneration := field_of_get (hget "generation" _ rfl) Json.readU32
  have hcanonical := field_of_get (hget "canonical_items" _ rfl)
    Json.asArr
  have hsource := fieldOr_of_get (hget "source_items" _ rfl) [] Json.asArr
  have hversion := fieldOr_of_get (hget "schema_version" _ rfl)
    defaultJournalSchemaVersion Json.readU32
  have hhash := fieldOr_of_get (hget "source_hash" _ rfl) "" Json.asStr
  have hcheckpoint := fieldOr_of_get (hget "checkpoint_hash" _ rfl) ""
    Json.asStr
  have hcreated := field_of_get (hget "created_at" _ rfl) Json.readI64
  rw [optional_ofOption] at hprovenance
  rw [readU64_nat] at hbefore hafter helapsed
  rw [readU32_nat] at hgeneration hversion
  rw [readI64_int64] at hcreated
  rw [CompactionJournal.fromJson, hcompaction, hengine, Json.optionalField,
    hprovenance, hroute, hmodel, hbefore, hafter, helapsed, hresponse,
    hgeneration, hcanonical, hsource, hversion, hhash, hcheckpoint, hcreated]
  rfl

/-- The exchanges under their response ids. -/
abbrev Entries := KeyedTable HistoryEntry.responseId

/-- The journals of each response, oldest first. -/
abbrev Journals := KeyedTable (Prod.fst : String × List CompactionJournal → String)

/-- The conversation of each response. -/
abbrev ConversationKeys := KeyedTable (Prod.fst : String × String → String)

structure FileHistoryStore where
  entries : Entries := KeyedTable.empty
  journals : Journals := KeyedTable.empty
  conversationKeys : ConversationKeys := KeyedTable.empty

/-- How many exchanges a walk has not come by. -/
def unseen (entries : Entries) (seen : List String) : Nat :=
  (entries.rows.filter fun row => row.responseId ∉ seen).length

variable {entries : Entries} {seen : List String} {id : String}

theorem unseen_lt {entry : HistoryEntry} (hfresh : id ∉ seen)
    (hfind : entries.find? id = some entry) :
    unseen entries (id :: seen) < unseen entries seen :=
  KeyedTable.remaining_lt hfresh hfind

/-- The exchanges behind `current`, newest first.  An id seen before ends the
walk, as does an unknown one. -/
def walkFrom (entries : Entries) (seen : List String) :
    Option String → List HistoryEntry
  | none => []
  | some id =>
    if hseen : id ∈ seen then []
    else
      match hfind : entries.find? id with
      | none => []
      | some entry =>
        have := unseen_lt hseen hfind
        entry :: walkFrom entries (id :: seen) entry.previousResponseId
termination_by unseen entries seen

theorem walkFrom_of_unknown (hnone : entries.find? id = none) :
    walkFrom entries seen (some id) = [] := by
  rw [walkFrom]
  split
  · rfl
  · split
    · rfl
    · rename_i entry hfind
      rw [hnone] at hfind
      cases hfind

theorem walkFrom_of_find (hfresh : id ∉ seen) {entry : HistoryEntry}
    (hfind : entries.find? id = some entry) :
    walkFrom entries seen (some id) =
      entry :: walkFrom entries (id :: seen) entry.previousResponseId := by
  rw [walkFrom, dif_neg hfresh]
  split
  · rename_i hnone
    rw [hfind] at hnone
    cases hnone
  · rename_i other hother
    rw [hfind] at hother
    obtain rfl := Option.some.inj hother
    rfl

variable (entries : Entries) (keys : ConversationKeys)

/-- The chain that ends at `head`, oldest first. -/
def walkChain (head : String) : List HistoryEntry :=
  (walkFrom entries [] (some head)).reverse

inductive ConversationLeafLookup where
  | missing
  | unique (head : String)
  | ambiguous (leaves : List String)

/-- The exchanges of a conversation, of one route if one is given. -/
def matching (conversationKey : String) (routeId : Option String) :
    List HistoryEntry :=
  entries.rows.filter fun entry =>
    (keys.find? entry.responseId).map Prod.snd = some conversationKey &&
      routeId.all fun route => entry.routeId = route

/-- Those that no other of them continues. -/
def leaves (matching : List HistoryEntry) : List String :=
  (matching.filter fun entry =>
    entry.responseId ∉ matching.filterMap HistoryEntry.previousResponseId).map
      HistoryEntry.responseId

def conversationLeafLookup (conversationKey : String)
    (routeId : Option String) : ConversationLeafLookup :=
  let matching := matching entries keys conversationKey routeId
  if matching.isEmpty then .missing
  else
    match (leaves matching).mergeSort with
    | [] => .missing
    | [head] => .unique head
    | leaves => .ambiguous leaves

def chainForConversationLeaf (conversationKey : String)
    (routeId : Option String) : Except String (List HistoryEntry) :=
  match conversationLeafLookup entries keys conversationKey routeId with
  | .missing => .ok []
  | .unique head => .ok (walkChain entries head)
  | .ambiguous leaves =>
    .error ("ambiguous conversation branch: multiple leaf heads " ++
      String.intercalate "," leaves)

namespace FileHistoryStore

variable (store : FileHistoryStore) (responseId : String)

def getChain (head : String) : List HistoryEntry :=
  walkChain store.entries head

def responseConversationKey : Option String :=
  (store.conversationKeys.find? responseId).map Prod.snd

def latestChainForConversation (conversationKey : String)
    (routeId : Option String) : Except String (List HistoryEntry) :=
  chainForConversationLeaf store.entries store.conversationKeys
    conversationKey routeId

/-- The newest journal of a response. -/
def journalRecord : Option CompactionJournal :=
  (store.journals.find? responseId).bind fun row => row.2.getLast?

/-- The first journal with the compaction id, in the order in which the map
iterates. -/
def journalRecordForCompaction (compactionId : String) :
    Option CompactionJournal :=
  (store.journals.rows.flatMap Prod.snd).find? fun journal =>
    journal.compactionId = compactionId

def compactionIdsForResponse : List String :=
  ((store.journals.find? responseId).map fun row =>
    row.2.map CompactionJournal.compactionId).getD []

def journalCanonicalItems : Option (List Json) :=
  (store.journalRecord responseId).map CompactionJournal.canonicalItems

/-- A replay and where its canonical front comes from. -/
structure CompactedReplayProvenance where
  items : List Json
  canonicalPrefixLen : Nat
  parentCompactionId : Option String
deriving DecidableEq

/-- A replay of canonical items and what came after them. -/
def replayOf (items after : List Json) (parent : Option String) :
    CompactedReplayProvenance :=
  ⟨items ++ after, items.length, parent⟩

/-- The newest journal along a chain, walked from its newest exchange, with
the exchanges recorded after it; without one, all of the exchanges. -/
def replayAlong (store : FileHistoryStore) :
    List HistoryEntry → List Json → CompactedReplayProvenance ⊕ List Json
  | [], after => .inr after
  | entry :: older, after =>
    match store.journalCanonicalItems entry.responseId with
    | some items =>
      .inl (replayOf items after
        (store.compactionIdsForResponse entry.responseId).getLast?)
    | none =>
      replayAlong store older (entry.inputItems ++ entry.outputItems ++
        after)

def compactedReplayWithProvenance (head : String) :
    Option CompactedReplayProvenance :=
  let chain := store.getChain head
  match replayAlong store chain.reverse [] with
  | .inl replay => some replay
  | .inr after =>
    let rootId := (chain.head?.bind HistoryEntry.previousResponseId).getD head
    match store.journalRecordForCompaction rootId with
    | some journal =>
      some (replayOf journal.canonicalItems after
        (some journal.compactionId))
    | none =>
      (store.journalCanonicalItems rootId).map fun items =>
        replayOf items after
          (store.compactionIdsForResponse rootId).getLast?

/-- The compaction the next one continues: that of the newest journal along
the chain. -/
def compactedReplayParent (head : String) : Option String :=
  let chain := store.getChain head
  match chain.reverse.findSome? fun entry =>
      (store.compactionIdsForResponse entry.responseId).getLast? with
  | some id => some id
  | none =>
    let rootId := (chain.head?.bind HistoryEntry.previousResponseId).getD head
    if (store.journalRecordForCompaction rootId).isSome then some rootId
    else (store.compactionIdsForResponse rootId).getLast?

end FileHistoryStore

/-- Normalize an `input` value into items. -/
def inputValueItems : Json → List Json
  | .arr items => items
  | .obj fields => [.obj fields]
  | .str text =>
    [.obj [("type", .str "message"), ("role", .str "user"),
      ("content", .arr [.obj [("type", .str "input_text"),
        ("text", .str text)]])]]
  | _ => []

def requestInputItems (request : Json) : List Json :=
  ((request.get "input").map inputValueItems).getD []

/-- An id that is a string and not blank. -/
def namedId (value : Json) (field : String) : Option String :=
  ((value.get field).bind Json.asStr).filter fun id => !isBlank id

def entryFromExchange (request response : Json) (routeId : String)
    (continuationRealm : Option String) (createdAt : Int64) :
    Option HistoryEntry :=
  (namedId response "id").map fun responseId =>
    { responseId
      previousResponseId := namedId request "previous_response_id"
      routeId, continuationRealm
      inputItems := requestInputItems request
      outputItems := ((response.get "output").bind Json.asArr).getD []
      createdAt }

/-- The conversation a request names, or else that of the response before. -/
def inheritConversationKey (crates : Crates) (request : Json)
    (previousResponseId : Option String) (existing : ConversationKeys) :
    Option String :=
  let fallback :=
    (conversationKeyFromRequest crates request).or
      (previousResponseId.bind fun id => (existing.find? id).map Prod.snd)
  let flat :=
    match parseCompatibilityProjection request with
    | ⟨some sessionId, some threadId⟩ =>
      codexConversationKey { sessionId, threadId, trust := .fragment }
    | _ => fallback
  match parseCanonicalClientMetadata crates request with
  | .ok (some identity) => (codexConversationKey identity).or flat
  | _ => flat

def hashItems (crates : Crates) (items : List Json) : String :=
  sha256Hex crates (crates.toStr (.arr items))

def engineId : String := "codex_local_v0_150"

def engineProvenance : String :=
  "openai-codex@rust-v0.150.0-alpha.8+fcbdb578"

def localCompactionRecordSchemaV1 : UInt32 := 1

/-- Append a journal to those of its response. -/
def pushJournal (journals : Journals) (journal : CompactionJournal) :
    Journals :=
  journals.put (journal.responseId,
    ((journals.find? journal.responseId).map Prod.snd).getD [] ++ [journal])

/-- What a call meets outside the store: the clock, and how the write to the
file ends. -/
structure Moment where
  now : Int64
  persisted : Except String Unit

namespace FileHistoryStore

variable (crates : Crates) (store : FileHistoryStore)

variable (moment : Moment) (request response : Json)

/-- The maps have changed when the write fails. -/
def recordExchangeWithContext (routeId : String)
    (conversationKey continuationRealm : Option String) :
    FileHistoryStore × Except String Bool :=
  match entryFromExchange request response routeId continuationRealm
      moment.now with
  | none => (store, .ok false)
  | some entry =>
    let inherited := inheritConversationKey crates request
      entry.previousResponseId store.conversationKeys
    let key := (conversationKey.filter fun key => !isBlank key).or inherited
    ({ store with
        entries := store.entries.put entry
        conversationKeys :=
          match key with
          | some key => store.conversationKeys.put (entry.responseId, key)
          | none => store.conversationKeys },
      moment.persisted.map fun _ => true)

def recordExchangeWithConversationKey (routeId : String)
    (conversationKey : Option String) : FileHistoryStore × Except String Bool :=
  recordExchangeWithContext crates store moment request response routeId
    conversationKey none

def recordExchange (routeId : String) : FileHistoryStore × Except String Bool :=
  recordExchangeWithConversationKey crates store moment request response
    routeId none

def recordCompactionRecord (record : CompactionJournalRecord) :
    FileHistoryStore × Except String Unit :=
  ({ store with
      journals := pushJournal store.journals
        (CompactionJournal.fromRecord record moment.now) },
    moment.persisted)

/-- The record of a compaction that was made here. -/
def localRecord (responseId compactionId : String) (generation : UInt32)
    (canonicalItems : List Json) : CompactionJournalRecord where
  responseId := responseId
  compactionId := compactionId
  generation := generation
  engineId := engineId
  engineProvenance := some engineProvenance
  routeId := ""
  upstreamModel := ""
  tokensBefore := 0
  tokensAfter := 0
  elapsedMs := 0
  schemaVersion := localCompactionRecordSchemaV1
  sourceItems := canonicalItems
  canonicalItems := canonicalItems
  sourceHash := hashItems crates canonicalItems
  checkpointHash := hashItems crates canonicalItems
  providerOwned := false

def recordCompaction (responseId compactionId : String) (generation : UInt32)
    (canonicalItems : List Json) : FileHistoryStore × Except String Unit :=
  store.recordCompactionRecord moment
    (localRecord crates responseId compactionId generation canonicalItems)

/-- A journal line. -/
def wrapJournal (journal : CompactionJournal) : Json :=
  .obj [("kind", .str "compaction"), ("journal", journal.toJson)]

/-- The line of a conversation key. -/
def wrapKey (row : String × String) : Json :=
  .obj [("kind", .str "conversation_key"), ("response_id", .str row.1),
    ("conversation_key", .str row.2)]

/-- The values written to the file, in the order of the maps. -/
def records : List Json :=
  store.entries.rows.map HistoryEntry.toJson ++
    (store.journals.rows.flatMap Prod.snd).map wrapJournal ++
    store.conversationKeys.rows.map wrapKey

/-- What `persist_locked` writes. -/
def contents : List Char :=
  (store.records.map fun value => (crates.toStr value).toList).flatMap
    (· ++ ['\n'])

/-- A line `open` does not accept.  The parser's own message is left out. -/
inductive LineError where
  | parse (line : Nat)
  | journal (line : Nat)
  | unrecognized (line : Nat)

/-- One value of the file.  Whatever reads as an exchange is one; the other
kinds are marked. -/
def loadValue (number : Nat) (value : Json) :
    Except LineError FileHistoryStore :=
  match HistoryEntry.fromJson value with
  | some entry => .ok { store with entries := store.entries.put entry }
  | none =>
    if (value.get "kind").bind Json.asStr = some "compaction" then
      match CompactionJournal.fromJson ((value.get "journal").getD .null) with
      | some journal =>
        .ok { store with journals := pushJournal store.journals journal }
      | none => .error (.journal number)
    else if (value.get "kind").bind Json.asStr = some "conversation_key" then
      let responseId := ((value.get "response_id").bind Json.asStr).getD ""
      let key := ((value.get "conversation_key").bind Json.asStr).getD ""
      if responseId ≠ "" ∧ key ≠ "" then
        .ok { store with
          conversationKeys := store.conversationKeys.put (responseId, key) }
      else .ok store
    else .error (.unrecognized number)

/-- One line of the file. -/
def loadLine (number : Nat) (line : List Char) :
    Except LineError FileHistoryStore :=
  if Text.isBlank line then .ok store
  else
    match crates.fromStr (String.ofList line) with
    | none => .error (.parse number)
    | some value => loadValue store number value

def loadLines (crates : Crates) (store : FileHistoryStore) (number : Nat) :
    List (List Char) → Except LineError FileHistoryStore
  | [] => .ok store
  | line :: lines =>
    match loadLine crates store number line with
    | .ok next => loadLines crates next (number + 1) lines
    | .error error => .error error

/-- `FileHistoryStore::open`; a file that is missing holds nothing. -/
def openFile (file : Option (List Char)) : Except LineError FileHistoryStore :=
  loadLines crates {} 1 (Text.lines (file.getD []))

end FileHistoryStore

/-- The calls that change a store. -/
inductive HistoryCall where
  | recordExchange (request response : Json) (routeId : String)
  | recordExchangeWithConversationKey (request response : Json)
      (routeId : String) (conversationKey : Option String)
  | recordExchangeWithContext (request response : Json) (routeId : String)
      (conversationKey continuationRealm : Option String)
  | recordCompaction (responseId compactionId : String) (generation : UInt32)
      (canonicalItems : List Json)
  | recordCompactionRecord (record : CompactionJournalRecord)

/-- The store behind a call, whatever the call answers. -/
def FileHistoryStore.apply (crates : Crates) (store : FileHistoryStore)
    (moment : Moment) : HistoryCall → FileHistoryStore
  | .recordExchange request response routeId =>
    (recordExchange crates store moment request response routeId).1
  | .recordExchangeWithConversationKey request response routeId key =>
    (recordExchangeWithConversationKey crates store moment request response
      routeId key).1
  | .recordExchangeWithContext request response routeId key realm =>
    (recordExchangeWithContext crates store moment request response routeId
      key realm).1
  | .recordCompaction responseId compactionId generation items =>
    (recordCompaction crates store moment responseId compactionId generation
      items).1
  | .recordCompactionRecord record =>
    (recordCompactionRecord store moment record).1

/-- The same rows in every map, iterated in another order. -/
structure FileHistoryStore.Reordered (left right : FileHistoryStore) :
    Prop where
  entries : left.entries.Reordered right.entries
  journals : left.journals.Reordered right.journals
  conversationKeys : left.conversationKeys.Reordered right.conversationKeys

end Vellum.Proxy

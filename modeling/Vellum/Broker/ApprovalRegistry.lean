/-
The registry of pending server-initiated requests.  A row is found by its
local token; the upstream's own request id is unique within an epoch.  Both are
fields of the registry, together with the fact that the id handed back to the
upstream is the one that was registered.
-/
import Vellum.Library.KeyedTable
import Vellum.Broker.Protocol

namespace Vellum.Broker

/-- A row of `pending_server_requests`. -/
structure ApprovalRow where
  localToken : String
  upstreamEpoch : Nat
  upstreamRequestId : String
  upstreamRequestIdJson : Option Json
  threadId : Option String
  turnId : Option String
  itemId : Option String
  method : String
  state : ApprovalState
  request : Json
  response : Option Json
  createdAt : Nat

structure StoredApproval where
  approval : PendingApproval
  upstreamEpoch : Nat
  upstreamRequestId : JsonRpcId
deriving DecidableEq

/-- The text column of a request id. -/
def requestIdText : JsonRpcId → String
  | .number value => toString value
  | .string value => value

/-- `text.parse::<i64>()`: an optional sign and at least one digit, in
range. -/
def parseI64 (text : String) : Option Int :=
  let parsed (negative : Bool) (digits : List Char) : Option Int :=
    if digits.isEmpty || !digits.all Char.isDigit then none
    else
      let magnitude : Int :=
        digits.foldl (fun acc c => 10 * acc + (c.toNat - 48 : Nat)) 0
      let value := if negative then -magnitude else magnitude
      if -(2 ^ 63) ≤ value ∧ value < 2 ^ 63 then some value else none
  match text.toList with
  | '-' :: digits => parsed true digits
  | '+' :: digits => parsed false digits
  | digits => parsed false digits

/-- The request id `get` reads from a row: its JSON form where there is one,
so that number and string ids are told apart. -/
def ApprovalRow.requestId (row : ApprovalRow) : JsonRpcId :=
  match row.upstreamRequestIdJson with
  | some value =>
    (JsonRpcId.fromValue value).getD (.string row.upstreamRequestId)
  | none =>
    match parseI64 row.upstreamRequestId with
    | some value => .number value
    | none => .string row.upstreamRequestId

/-- `state IN ('pending', 'presented')`. -/
def ApprovalRow.isOpen (row : ApprovalRow) : Bool :=
  row.state = .pending || row.state = .presented

/-- Write the state, and the response when there is one. -/
def ApprovalRow.write (state : ApprovalState) (response : Option Json)
    (row : ApprovalRow) : ApprovalRow :=
  { row with state := state, response := response.or row.response }

@[simp]
theorem ApprovalRow.write_localToken (state : ApprovalState)
    (response : Option Json) (row : ApprovalRow) :
    (row.write state response).localToken = row.localToken := rfl

/-- What names the request at the upstream. -/
def ApprovalRow.upstreamKey (row : ApprovalRow) : Nat × String :=
  (row.upstreamEpoch, row.upstreamRequestId)

structure ApprovalRegistry where
  table : KeyedTable ApprovalRow.localToken
  unique : (table.rows.map ApprovalRow.upstreamKey).Nodup
  decoded : ∀ row ∈ table.rows,
    requestIdText row.requestId = row.upstreamRequestId

namespace ApprovalRegistry

def empty : ApprovalRegistry :=
  ⟨.empty, List.nodup_nil, fun _ hrow => absurd hrow List.not_mem_nil⟩

def find? (registry : ApprovalRegistry) (token : String) :
    Option ApprovalRow :=
  registry.table.find? token

variable (registry : ApprovalRegistry) (token : String) {row : ApprovalRow}

theorem eq_of_requestId {other : ApprovalRow} (hrow : row ∈ registry.table.rows)
    (hother : other ∈ registry.table.rows)
    (hepoch : row.upstreamEpoch = other.upstreamEpoch)
    (hid : row.requestId = other.requestId) : row = other := by
  apply List.inj_on_of_nodup_map registry.unique hrow hother
  rw [ApprovalRow.upstreamKey, ApprovalRow.upstreamKey, hepoch,
    ← registry.decoded row hrow, ← registry.decoded other hother, hid]

/-- The row `register` inserts. -/
def newRow (token : String) (upstreamEpoch : Nat) (requestId : JsonRpcId)
    (method : String) (request : Json) (threadId : Option String)
    (createdAt : Nat) : ApprovalRow where
  localToken := token
  upstreamEpoch := upstreamEpoch
  upstreamRequestId := requestIdText requestId
  upstreamRequestIdJson := some requestId.toValue
  threadId := threadId
  turnId := none
  itemId := none
  method := method
  state := .pending
  request := request
  response := none
  createdAt := createdAt

theorem newRow_decoded (upstreamEpoch : Nat) (requestId : JsonRpcId)
    (method : String) (request : Json) (threadId : Option String)
    (createdAt : Nat) :
    requestIdText (newRow token upstreamEpoch requestId method request threadId
        createdAt).requestId = requestIdText requestId := by
  cases requestId with
  | string value => rfl
  | number value =>
    simp only [newRow, ApprovalRow.requestId, JsonRpcId.toValue,
      JsonRpcId.fromValue, Json.asI64]
    split <;> rfl

/-- `register`: an `INSERT` that fails when the token is taken or the request
id is already registered in the epoch. -/
def register (registry : ApprovalRegistry) (row : ApprovalRow)
    (hdecoded : requestIdText row.requestId = row.upstreamRequestId) :
    Except StoreError ApprovalRegistry :=
  if htoken : row.localToken ∈ registry.table.rows.map ApprovalRow.localToken then
    .error ⟨"sqlite error: UNIQUE constraint failed: " ++
      "pending_server_requests.local_token"⟩
  else if hkey : row.upstreamKey ∈
      registry.table.rows.map ApprovalRow.upstreamKey then
    .error ⟨"sqlite error: UNIQUE constraint failed: " ++
      "pending_server_requests.upstream_epoch, " ++
      "pending_server_requests.upstream_request_id"⟩
  else
    .ok {
      table := ⟨registry.table.rows ++ [row], by
        rw [List.map_append, List.nodup_append]
        refine ⟨registry.table.keys_nodup, List.nodup_singleton _, ?_⟩
        intro token hmem other hother heq
        subst heq
        exact htoken (List.mem_singleton.mp hother ▸ hmem)⟩
      unique := by
        rw [List.map_append, List.nodup_append]
        refine ⟨registry.unique, List.nodup_singleton _, ?_⟩
        intro upstreamKey hmem other hother heq
        subst heq
        exact hkey (List.mem_singleton.mp hother ▸ hmem)
      decoded := by
        intro other hother
        rcases List.mem_append.mp hother with hold | hnew
        · exact registry.decoded other hold
        · rw [List.mem_singleton.mp hnew]
          exact hdecoded }

/-- `UPDATE pending_server_requests SET state, response ... WHERE`. -/
def update (registry : ApprovalRegistry) (p : ApprovalRow → Bool)
    (state : ApprovalState) (response : Option Json) : ApprovalRegistry where
  table := registry.table.modify p (ApprovalRow.write state response)
    (ApprovalRow.write_localToken state response)
  unique := by
    have hkeys : (registry.table.modify p (ApprovalRow.write state response)
        (ApprovalRow.write_localToken state response)).rows.map
          ApprovalRow.upstreamKey =
        registry.table.rows.map ApprovalRow.upstreamKey := by
      rw [KeyedTable.modify, List.map_map]
      apply List.map_congr_left
      intro row _
      by_cases hp : p row <;> simp [hp, ApprovalRow.upstreamKey,
        ApprovalRow.write]
    rw [hkeys]
    exact registry.unique
  decoded := by
    intro row hrow
    obtain ⟨old, hold, rfl⟩ :=
      (KeyedTable.mem_modify_iff _ _ _ _ _).mp hrow
    by_cases hp : p old
    · rw [if_pos hp]
      exact registry.decoded old hold
    · rw [if_neg hp]
      exact registry.decoded old hold

def markPresented (registry : ApprovalRegistry) (token : String) :
    ApprovalRegistry :=
  registry.update (fun row => row.localToken = token && row.isOpen) .presented
    none

/-- The state a decision is stored as. -/
def decidedState : ApprovalDecision → ApprovalState
  | .accept => .accepted
  | .decline => .declined

/-- `resolve` looks at the token only. -/
def resolve (registry : ApprovalRegistry) (token : String)
    (decision : ApprovalDecision) (response : Json) : ApprovalRegistry :=
  registry.update (fun row => row.localToken = token) (decidedState decision)
    (some response)

def orphanEpoch (registry : ApprovalRegistry) (epoch : Nat) :
    ApprovalRegistry :=
  registry.update (fun row => row.upstreamEpoch = epoch && row.isOpen)
    .orphaned none

def get (registry : ApprovalRegistry) (token : String) :
    Option StoredApproval :=
  (registry.find? token).map fun row =>
    { approval :=
        { approvalToken := row.localToken
          threadId := row.threadId
          turnId := row.turnId
          itemId := row.itemId
          method := row.method
          state := row.state
          createdAt := row.createdAt
          request := row.request }
      upstreamEpoch := row.upstreamEpoch
      upstreamRequestId := row.requestId }

theorem find?_update (p : ApprovalRow → Bool) (state : ApprovalState)
    (response : Option Json) (token : String) :
    (registry.update p state response).find? token =
      (registry.find? token).map fun row =>
        if p row then row.write state response else row :=
  registry.table.find?_modify p (ApprovalRow.write state response)
    (ApprovalRow.write_localToken state response) token

theorem find?_register {registry next : ApprovalRegistry}
    {hdecoded : requestIdText row.requestId = row.upstreamRequestId}
    (hregister : registry.register row hdecoded = .ok next) {token : String}
    {old : ApprovalRow} (hold : registry.find? token = some old) :
    next.find? token = some old := by
  unfold register at hregister
  split at hregister
  · cases hregister
  · split at hregister
    · cases hregister
    · rw [Except.ok.injEq] at hregister
      subst hregister
      obtain ⟨hmem, hkey⟩ := (registry.table.find?_eq_some_iff _ _).mp hold
      exact (KeyedTable.find?_eq_some_iff _ _ _).mpr
        ⟨List.mem_append_left _ hmem, hkey⟩

/-- Every row is still there with its request, and a closed one is
unchanged. -/
def Grows (old new : ApprovalRegistry) : Prop :=
  ∀ token row, old.find? token = some row →
    ∃ later, new.find? token = some later ∧
      later.upstreamEpoch = row.upstreamEpoch ∧
      later.requestId = row.requestId ∧ (¬ row.isOpen → later = row)

theorem Grows.refl : registry.Grows registry :=
  fun _ row hrow => ⟨row, hrow, rfl, rfl, fun _ => rfl⟩

theorem Grows.trans {first second third : ApprovalRegistry}
    (hfirst : first.Grows second) (hsecond : second.Grows third) :
    first.Grows third := by
  intro token row hrow
  obtain ⟨mid, hmid, hepoch, hid, hclosed⟩ := hfirst token row hrow
  obtain ⟨later, hlater, hepoch', hid', hclosed'⟩ := hsecond token mid hmid
  refine ⟨later, hlater, hepoch'.trans hepoch, hid'.trans hid, ?_⟩
  intro hnot
  have hmidEq := hclosed hnot
  subst hmidEq
  exact hclosed' hnot

theorem grows_register {registry next : ApprovalRegistry}
    {hdecoded : requestIdText row.requestId = row.upstreamRequestId}
    (hregister : registry.register row hdecoded = .ok next) :
    registry.Grows next :=
  fun _ old hold => ⟨old, find?_register hregister hold, rfl, rfl, fun _ => rfl⟩

theorem grows_update (p : ApprovalRow → Bool) (state : ApprovalState)
    (response : Option Json)
    (hopen : ∀ token row, registry.find? token = some row → p row →
      row.isOpen) : registry.Grows (registry.update p state response) := by
  intro token row hrow
  by_cases hp : p row
  · refine ⟨row.write state response, ?_, rfl, rfl, ?_⟩
    · rw [find?_update, hrow, Option.map_some, if_pos hp]
    · exact fun hnot => absurd (hopen token row hrow hp) hnot
  · refine ⟨row, ?_, rfl, rfl, fun _ => rfl⟩
    rw [find?_update, hrow, Option.map_some, if_neg hp]

theorem grows_markPresented :
    registry.Grows (registry.markPresented token) := by
  apply grows_update
  intro _ row _ hp
  rw [Bool.and_eq_true] at hp
  exact hp.2

theorem grows_orphanEpoch (epoch : Nat) :
    registry.Grows (registry.orphanEpoch epoch) := by
  apply grows_update
  intro _ row _ hp
  rw [Bool.and_eq_true] at hp
  exact hp.2

theorem grows_resolve {token : String} (decision : ApprovalDecision)
    (response : Json) (hrow : registry.find? token = some row)
    (hopen : row.isOpen) :
    registry.Grows (registry.resolve token decision response) := by
  apply grows_update
  intro other found hfound hp
  have hkey : found.localToken = other := KeyedTable.key_of_find? hfound
  have htoken : other = token := hkey.symm.trans (of_decide_eq_true hp)
  subst htoken
  rw [hrow, Option.some.injEq] at hfound
  rw [← hfound]
  exact hopen

theorem find?_resolve_closed {token : String} (decision : ApprovalDecision)
    (response : Json)
    (hrow : (registry.resolve token decision response).find? token =
      some row) : ¬ row.isOpen := by
  rw [resolve, find?_update] at hrow
  obtain ⟨old, hold, rfl⟩ := Option.map_eq_some_iff.mp hrow
  have hkey : old.localToken = token := KeyedTable.key_of_find? hold
  rw [if_pos (decide_eq_true hkey)]
  cases decision <;> simp [ApprovalRow.isOpen, ApprovalRow.write, decidedState]

end ApprovalRegistry

end Vellum.Broker

/-
The request ids under which approvals are registered (`approval_registry.rs`).
An id is stored as JSON, which `get` reads, and as text without its type,
which is what has to be unique in an epoch.  A string id that spells a number
therefore takes the place of that number.
-/
import Vellum.Broker.ApprovalRegistry

namespace Vellum.Broker

open List

/-- A number id is an `i64`. -/
def JsonRpcId.InRange : JsonRpcId → Prop
  | .number value => -(2 ^ 63) ≤ value ∧ value < 2 ^ 63
  | .string _ => True

theorem JsonRpcId.fromValue_toValue {id : JsonRpcId} (hrange : id.InRange) :
    JsonRpcId.fromValue id.toValue = some id := by
  cases id with
  | string value => rfl
  | number value =>
    simp only [JsonRpcId.toValue, JsonRpcId.fromValue, Json.asI64]
    rw [if_pos (by simpa [JsonRpcId.InRange] using hrange)]
    rfl

/-- One id is the text of the other, which is a number. -/
def SpellsNumber (left right : JsonRpcId) : Prop :=
  ∃ value : Int, left = .string (toString value) ∧ right = .number value

theorem requestIdText_eq_iff (left right : JsonRpcId) :
    requestIdText left = requestIdText right ↔
      left = right ∨ SpellsNumber left right ∨ SpellsNumber right left := by
  constructor
  · intro heq
    cases left with
    | string text =>
      cases right with
      | string other => exact Or.inl (congrArg JsonRpcId.string heq)
      | number value =>
        exact Or.inr (Or.inl ⟨value, congrArg JsonRpcId.string heq, rfl⟩)
    | number value =>
      cases right with
      | string text =>
        have htext : text = toString value := heq.symm
        exact Or.inr (Or.inr ⟨value, congrArg JsonRpcId.string htext, rfl⟩)
      | number other =>
        have hvalue : value = other := Int.repr_injective heq
        exact Or.inl (congrArg JsonRpcId.number hvalue)
  · rintro (rfl | ⟨value, rfl, rfl⟩ | ⟨value, rfl, rfl⟩) <;> rfl

/-- One call of `register`: its arguments, with the token and the time that
the call makes up. -/
structure Registration where
  token : String
  requestId : JsonRpcId
  method : String
  request : Json
  threadId : Option String
  turnId : Option String
  itemId : Option String
  createdAt : Nat

/-- The row of a call. -/
def Registration.row (epoch : Nat) (call : Registration) : ApprovalRow :=
  { ApprovalRegistry.newRow call.token epoch call.requestId call.method
      call.request call.threadId call.createdAt with
    turnId := call.turnId
    itemId := call.itemId }

theorem Registration.row_decoded (epoch : Nat) (call : Registration) :
    requestIdText (call.row epoch).requestId =
      (call.row epoch).upstreamRequestId :=
  ApprovalRegistry.newRow_decoded call.token epoch call.requestId call.method
    call.request call.threadId call.createdAt

theorem Registration.row_requestId (epoch : Nat) {call : Registration}
    (hrange : call.requestId.InRange) :
    (call.row epoch).requestId = call.requestId := by
  change (JsonRpcId.fromValue call.requestId.toValue).getD _ = _
  rw [JsonRpcId.fromValue_toValue hrange]
  rfl

namespace ApprovalRegistry

/-- Register one call after the other in one epoch. -/
def registerAll (epoch : Nat) :
    ApprovalRegistry → List Registration → Except StoreError ApprovalRegistry
  | registry, [] => .ok registry
  | registry, call :: rest =>
    registry.register (call.row epoch) (call.row_decoded epoch) >>=
      fun next => registerAll epoch next rest

/-- Nothing of the registry is in the way of a row. -/
def Free (registry : ApprovalRegistry) (row : ApprovalRow) : Prop :=
  ∀ old ∈ registry.table.rows,
    old.localToken ≠ row.localToken ∧ old.upstreamKey ≠ row.upstreamKey

variable {registry : ApprovalRegistry} {row : ApprovalRow}

theorem register_eq_ok_iff
    {hdecoded : requestIdText row.requestId = row.upstreamRequestId} :
    (∃ next, registry.register row hdecoded = .ok next) ↔
      registry.Free row := by
  constructor
  · rintro ⟨next, hnext⟩ old hold
    rw [register] at hnext
    split at hnext
    · cases hnext
    · rename_i htoken
      split at hnext
      · cases hnext
      · rename_i hkey
        constructor
        · exact fun heq => htoken (mem_map.mpr ⟨old, hold, heq⟩)
        · exact fun heq => hkey (mem_map.mpr ⟨old, hold, heq⟩)
  · intro hfree
    have htoken : row.localToken ∉
        registry.table.rows.map ApprovalRow.localToken := by
      intro hmem
      obtain ⟨old, hold, heq⟩ := mem_map.mp hmem
      exact (hfree old hold).1 heq
    have hkey : row.upstreamKey ∉
        registry.table.rows.map ApprovalRow.upstreamKey := by
      intro hmem
      obtain ⟨old, hold, heq⟩ := mem_map.mp hmem
      exact (hfree old hold).2 heq
    rw [register, dif_neg htoken, dif_neg hkey]
    exact ⟨_, rfl⟩

theorem rows_of_register {next : ApprovalRegistry}
    {hdecoded : requestIdText row.requestId = row.upstreamRequestId}
    (hregister : registry.register row hdecoded = .ok next) :
    next.table.rows = registry.table.rows ++ [row] := by
  rw [register] at hregister
  split at hregister
  · cases hregister
  · split at hregister
    · cases hregister
    · rw [Except.ok.injEq] at hregister
      rw [← hregister]

theorem rows_of_registerAll {epoch : Nat} {next : ApprovalRegistry}
    {calls : List Registration}
    (hcalls : registry.registerAll epoch calls = .ok next) :
    next.table.rows =
      registry.table.rows ++ calls.map (Registration.row epoch) := by
  induction calls generalizing registry with
  | nil =>
    rw [registerAll, Except.ok.injEq] at hcalls
    rw [← hcalls, map_nil, append_nil]
  | cons call rest ih =>
    rw [registerAll] at hcalls
    cases hfirst : registry.register (call.row epoch)
        (call.row_decoded epoch) with
    | error error =>
      rw [hfirst] at hcalls
      cases hcalls
    | ok mid =>
      rw [hfirst] at hcalls
      rw [ih hcalls, rows_of_register hfirst, append_assoc]
      rfl

/-- Two rows that can stand in one registry. -/
def Apart (left right : ApprovalRow) : Prop :=
  left.localToken ≠ right.localToken ∧ left.upstreamKey ≠ right.upstreamKey

/-- A run of calls goes through exactly if every row is free where it comes
and the rows are pairwise apart. -/
theorem registerAll_eq_ok_iff (epoch : Nat) (registry : ApprovalRegistry)
    (calls : List Registration) :
    (∃ next, registry.registerAll epoch calls = .ok next) ↔
      (∀ call ∈ calls, registry.Free (call.row epoch)) ∧
        (calls.map (Registration.row epoch)).Pairwise Apart := by
  induction calls generalizing registry with
  | nil => simp [registerAll]
  | cons call rest ih =>
    constructor
    · rintro ⟨next, hnext⟩
      rw [registerAll] at hnext
      cases hfirst : registry.register (call.row epoch)
          (call.row_decoded epoch) with
      | error error =>
        rw [hfirst] at hnext
        cases hnext
      | ok mid =>
        rw [hfirst] at hnext
        obtain ⟨hfree, hapart⟩ := (ih mid).mp ⟨next, hnext⟩
        have hrows := rows_of_register hfirst
        have hhead := register_eq_ok_iff.mp ⟨mid, hfirst⟩
        constructor
        · intro other hother
          rcases mem_cons.mp hother with rfl | hrest
          · exact hhead
          · intro old hold
            apply hfree other hrest
            rw [hrows]
            exact mem_append_left _ hold
        · rw [map_cons, pairwise_cons]
          refine ⟨?_, hapart⟩
          intro row hrow
          obtain ⟨other, hother, rfl⟩ := mem_map.mp hrow
          apply hfree other hother
          rw [hrows]
          exact mem_append_right _ mem_cons_self
    · rintro ⟨hfree, hapart⟩
      rw [map_cons, pairwise_cons] at hapart
      have hhead : ∃ next, registry.register (call.row epoch)
          (call.row_decoded epoch) = .ok next :=
        register_eq_ok_iff.mpr (hfree call mem_cons_self)
      obtain ⟨mid, hmid⟩ := hhead
      rw [registerAll, hmid]
      apply (ih mid).mpr
      refine ⟨?_, hapart.2⟩
      intro other hother old hold
      rw [rows_of_register hmid] at hold
      rcases mem_append.mp hold with hbefore | hlast
      · exact hfree other (mem_cons_of_mem _ hother) old hbefore
      · rw [mem_singleton.mp hlast]
        exact hapart.1 _ (mem_map_of_mem hother)

theorem get_of_mem (hrow : row ∈ registry.table.rows) :
    (registry.get row.localToken).map StoredApproval.upstreamRequestId =
      some row.requestId := by
  have hfind := (registry.table.find?_eq_some_iff row.localToken row).mpr
    ⟨hrow, rfl⟩
  rw [get, find?, hfind]
  rfl

end ApprovalRegistry

open ApprovalRegistry in
/-- A list of calls that the ids alone can make fail: every token is new, and
nothing is registered in the epoch yet. -/
structure FirstInEpoch (epoch : Nat) (registry : ApprovalRegistry)
    (calls : List Registration) : Prop where
  tokens : (calls.map Registration.token).Nodup
  unused : ∀ call ∈ calls, ∀ old ∈ registry.table.rows,
    old.localToken ≠ call.token
  empty : ∀ old ∈ registry.table.rows, old.upstreamEpoch ≠ epoch
  distinct : (calls.map Registration.requestId).Nodup
  inRange : ∀ call ∈ calls, call.requestId.InRange

variable {calls : List Registration}

theorem FirstInEpoch.free {epoch : Nat} {registry : ApprovalRegistry}
    (hfirst : FirstInEpoch epoch registry calls) :
    ∀ call ∈ calls, registry.Free (call.row epoch) := by
  intro call hcall old hold
  refine ⟨hfirst.unused call hcall old hold, ?_⟩
  intro hkey
  exact hfirst.empty old hold (congrArg Prod.fst hkey)

/-- The texts of the ids, which have to be unique. -/
def requestIdTexts (calls : List Registration) : List String :=
  calls.map fun call => requestIdText call.requestId

theorem FirstInEpoch.apart_iff {epoch : Nat} {registry : ApprovalRegistry}
    (hfirst : FirstInEpoch epoch registry calls) :
    (calls.map (Registration.row epoch)).Pairwise ApprovalRegistry.Apart ↔
      (requestIdTexts calls).Nodup := by
  have htokens := pairwise_map.mp hfirst.tokens
  rw [pairwise_map, requestIdTexts, List.Nodup, pairwise_map]
  constructor
  · refine List.Pairwise.imp ?_
    intro left right hapart heq
    exact hapart.2 (congrArg (epoch, ·) heq)
  · intro htexts
    refine (List.Pairwise.and htokens htexts).imp ?_
    intro left right hboth
    refine ⟨hboth.1, ?_⟩
    intro hkey
    exact hboth.2 (congrArg Prod.snd hkey)

/-- Among different ids, only a number and its spelling have one text. -/
theorem nodup_requestIdTexts_iff
    (hdistinct : (calls.map Registration.requestId).Nodup) :
    (requestIdTexts calls).Nodup ↔
      ∀ left ∈ calls, ∀ right ∈ calls,
        ¬ SpellsNumber left.requestId right.requestId := by
  constructor
  · intro htexts left hleft right hright hspells
    have htext : requestIdText left.requestId =
        requestIdText right.requestId :=
      (requestIdText_eq_iff _ _).mpr (Or.inr (Or.inl hspells))
    have hsame := inj_on_of_nodup_map htexts hleft hright htext
    obtain ⟨value, hstring, hnumber⟩ := hspells
    rw [hsame, hnumber] at hstring
    cases hstring
  · intro hnone
    refine List.Nodup.map_on ?_ (List.Nodup.of_map _ hdistinct)
    intro left hleft right hright htext
    rcases (requestIdText_eq_iff _ _).mp htext with hsame | hspells | hspells
    · exact inj_on_of_nodup_map hdistinct hleft hright hsame
    · exact absurd hspells (hnone left hleft right hright)
    · exact absurd hspells (hnone right hright left hleft)

open ApprovalRegistry in
/-- Every approval of an epoch is registered and gives its own id back,
exactly if no string id spells a number id of the epoch. -/
theorem approvals_keep_their_ids {epoch : Nat} {registry : ApprovalRegistry}
    {calls : List Registration} (hfirst : FirstInEpoch epoch registry calls) :
    (∃ next, registry.registerAll epoch calls = .ok next ∧
        ∀ call ∈ calls,
          (next.get call.token).map StoredApproval.upstreamRequestId =
            some call.requestId) ↔
      ∀ left ∈ calls, ∀ right ∈ calls,
        ¬ SpellsNumber left.requestId right.requestId := by
  rw [← nodup_requestIdTexts_iff hfirst.distinct, ← hfirst.apart_iff]
  constructor
  · rintro ⟨next, hnext, -⟩
    exact ((registerAll_eq_ok_iff epoch registry calls).mp ⟨next, hnext⟩).2
  · intro hapart
    obtain ⟨next, hnext⟩ := (registerAll_eq_ok_iff epoch registry calls).mpr
      ⟨hfirst.free, hapart⟩
    refine ⟨next, hnext, ?_⟩
    intro call hcall
    have hmem : call.row epoch ∈ next.table.rows := by
      rw [rows_of_registerAll hnext]
      exact mem_append_right _ (mem_map_of_mem hcall)
    have hget := ApprovalRegistry.get_of_mem hmem
    rw [Registration.row_requestId epoch (hfirst.inRange call hcall)] at hget
    exact hget

/-- A request for an approval under an id. -/
def approvalCall (token : String) (requestId : JsonRpcId) : Registration where
  token := token
  requestId := requestId
  method := "item/commandExecution/requestApproval"
  request := .obj []
  threadId := some "thread"
  turnId := none
  itemId := none
  createdAt := 0

/-- Two different ids, each under a token of its own. -/
theorem firstInEpoch_pair {first second : JsonRpcId} (hne : first ≠ second)
    (hfirst : first.InRange) (hsecond : second.InRange) :
    FirstInEpoch 3 ApprovalRegistry.empty
      [approvalCall "approval_1" first, approvalCall "approval_2" second] where
  tokens := by simp [approvalCall]
  unused := by
    intro _ _ _ hold
    exact absurd hold not_mem_nil
  empty := by
    intro _ hold
    exact absurd hold not_mem_nil
  distinct := by simpa [approvalCall] using hne
  inRange := by
    intro call hcall
    rcases mem_cons.mp hcall with rfl | hcall
    · exact hfirst
    · rw [mem_singleton.mp hcall]
      exact hsecond

/-- A number and a string of an epoch that are kept apart. -/
def numberAndName : List Registration :=
  [approvalCall "approval_1" (.number 7),
    approvalCall "approval_2" (.string "seven")]

theorem approvals_keep_their_ids_named :
    (∃ next, ApprovalRegistry.empty.registerAll 3 numberAndName = .ok next ∧
        ∀ call ∈ numberAndName,
          (next.get call.token).map StoredApproval.upstreamRequestId =
            some call.requestId) ↔
      ∀ left ∈ numberAndName, ∀ right ∈ numberAndName,
        ¬ SpellsNumber left.requestId right.requestId :=
  approvals_keep_their_ids (firstInEpoch_pair JsonRpcId.noConfusion
    ⟨by decide, by decide⟩ True.intro)

/-- The number 7 and the string "7" are different ids, and the second of them
is refused. -/
def numberAndSpelling : List Registration :=
  [approvalCall "approval_1" (.number 7),
    approvalCall "approval_2" (.string "7")]

theorem spelled_number_is_refused :
    FirstInEpoch 3 ApprovalRegistry.empty numberAndSpelling ∧
      ¬ ∃ next,
        ApprovalRegistry.empty.registerAll 3 numberAndSpelling = .ok next := by
  constructor
  · exact firstInEpoch_pair JsonRpcId.noConfusion ⟨by decide, by decide⟩
      True.intro
  · rintro ⟨next, hnext⟩
    have hnone : (ApprovalRegistry.empty.registerAll 3
        numberAndSpelling).toOption.isNone := by decide
    rw [hnext] at hnone
    cases hnone

end Vellum.Broker

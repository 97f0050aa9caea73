/-
A history store whose writes fail.  A call changes the maps before it writes
the file, and a write that fails does not take the change back.  The maps stay
with the file only where the call would write what stands there already.
-/
import Vellum.Proxy.HistoryReopen

namespace Vellum.Proxy

open Option KeyedTable

namespace FileHistoryStore

/-- The conversation an exchange is recorded under. -/
def exchangeKey (crates : Crates) (store : FileHistoryStore) (request : Json)
    (previousResponseId conversationKey : Option String) : Option String :=
  (conversationKey.filter fun key => !isBlank key).or
    (inheritConversationKey crates request previousResponseId
      store.conversationKeys)

/-- The exchange stands in the store already, under the same key. -/
def Repeats (crates : Crates) (store : FileHistoryStore) (now : Int64)
    (request response : Json) (routeId : String)
    (conversationKey continuationRealm : Option String) : Prop :=
  ∀ entry, entryFromExchange request response routeId continuationRealm now =
      some entry →
    store.entries.find? entry.responseId = some entry ∧
      ∀ key, exchangeKey crates store request entry.previousResponseId
          conversationKey = some key →
        store.conversationKeys.find? entry.responseId =
          some (entry.responseId, key)

section

variable {crates : Crates} {store : FileHistoryStore} {moment : Moment}
  {request response : Json} {routeId : String}
  {conversationKey continuationRealm : Option String}

theorem recordExchange_of_entry {entry : HistoryEntry}
    (hentry : entryFromExchange request response routeId continuationRealm
      moment.now = some entry) :
    recordExchangeWithContext crates store moment request response routeId
        conversationKey continuationRealm =
      ({ store with
          entries := store.entries.put entry
          conversationKeys :=
            match exchangeKey crates store request entry.previousResponseId
              conversationKey with
            | some key => store.conversationKeys.put (entry.responseId, key)
            | none => store.conversationKeys },
        moment.persisted.map fun _ => true) := by
  rw [recordExchangeWithContext, hentry]
  rfl

theorem recordExchange_of_none
    (hentry : entryFromExchange request response routeId continuationRealm
      moment.now = none) :
    recordExchangeWithContext crates store moment request response routeId
        conversationKey continuationRealm = (store, .ok false) := by
  rw [recordExchangeWithContext, hentry]

/-- An exchange that stands there already leaves the maps as they are. -/
theorem Repeats.unchanged
    (hrepeats : Repeats crates store moment.now request response routeId
      conversationKey continuationRealm) :
    (recordExchangeWithContext crates store moment request response routeId
      conversationKey continuationRealm).1 = store := by
  cases hentry : entryFromExchange request response routeId continuationRealm
      moment.now with
  | none => rw [recordExchange_of_none hentry]
  | some entry =>
    obtain ⟨hfind, hkeys⟩ := hrepeats entry hentry
    rw [recordExchange_of_entry hentry]
    simp only [put_of_find? hfind]
    split
    · rename_i key hkey
      rw [put_of_find? (hkeys key hkey)]
    · rfl

theorem getLast?_getChain (store : FileHistoryStore) (head : String) :
    (store.getChain head).getLast? = store.entries.find? head := by
  rw [getChain, walkChain, List.getLast?_reverse]
  cases hfind : store.entries.find? head with
  | none => rw [walkFrom_of_unknown hfind, List.head?_nil]
  | some entry =>
    rw [walkFrom_of_find (List.not_mem_nil) hfind, List.head?_cons]

theorem SameAnswers.refl (store : FileHistoryStore) :
    SameAnswers store store :=
  ⟨fun _ => rfl, fun _ => rfl, fun _ _ => rfl, fun _ => rfl, fun _ => rfl,
    fun _ => rfl⟩

theorem repeats_of_sameAnswers
    (hsame : SameAnswers store (recordExchangeWithContext crates store moment
      request response routeId conversationKey continuationRealm).1) :
    Repeats crates store moment.now request response routeId conversationKey
      continuationRealm := by
  intro entry hentry
  rw [recordExchange_of_entry hentry] at hsame
  constructor
  · rw [← getLast?_getChain, hsame.getChain, getLast?_getChain]
    exact find?_put_self store.entries entry
  · intro key hkey
    have hanswer := hsame.responseConversationKey entry.responseId
    simp only [responseConversationKey, hkey] at hanswer
    rw [find?_put, if_pos rfl, map_some] at hanswer
    obtain ⟨row, hrow, hsecond⟩ := map_eq_some_iff.mp hanswer
    have hfirst := key_of_find? hrow
    rw [hrow]
    exact congrArg some (Prod.ext hfirst hsecond)

theorem not_sameAnswers_journal (store : FileHistoryStore) (moment : Moment)
    (record : CompactionJournalRecord) :
    ¬ SameAnswers store (store.recordCompactionRecord moment record).1 := by
  intro hsame
  have hids := hsame.compactionIdsForResponse record.responseId
  have hfind : (pushJournal store.journals
      (CompactionJournal.fromRecord record moment.now)).find?
        record.responseId = some (record.responseId,
      ((store.journals.find? record.responseId).map Prod.snd).getD [] ++
        [CompactionJournal.fromRecord record moment.now]) :=
    find?_put_self _ _
  simp only [recordCompactionRecord, compactionIdsForResponse, hfind,
    map_some, getD_some] at hids
  have hlength := congrArg List.length hids
  cases hown : store.journals.find? record.responseId with
  | none => simp [hown] at hlength
  | some row => simp [hown] at hlength

/-- The store and its file. -/
structure Saved where
  store : FileHistoryStore
  file : Option (List Char)

/-- The store is what its file holds. -/
def Saved.Agrees (crates : Crates) (saved : Saved) : Prop :=
  ∃ loaded, openFile crates saved.file = .ok loaded ∧
    loaded.Reordered saved.store

/-- Whether a call comes to its write: an exchange without a usable response
id is passed over. -/
def persists (now : Int64) : HistoryCall → Bool
  | .recordExchange request response routeId =>
    (entryFromExchange request response routeId none now).isSome
  | .recordExchangeWithConversationKey request response routeId _ =>
    (entryFromExchange request response routeId none now).isSome
  | .recordExchangeWithContext request response routeId _ realm =>
    (entryFromExchange request response routeId realm now).isSome
  | .recordCompaction _ _ _ _ | .recordCompactionRecord _ => true

/-- A call on the store, with what becomes of the file: a write that fails
leaves it. -/
def Saved.turn (crates : Crates) (saved : Saved) (action : HistoryTurn) :
    Option Saved :=
  (FileHistoryStore.turn crates saved.store action).map fun next =>
    { store := next
      file :=
        if persists action.moment.now action.call &&
            action.moment.persisted.isOk then
          some (next.contents crates)
        else saved.file }

/-- The call would write what stands in the store already. -/
def RepeatsCall (crates : Crates) (store : FileHistoryStore) (now : Int64) :
    HistoryCall → Prop
  | .recordExchange request response routeId =>
    Repeats crates store now request response routeId none none
  | .recordExchangeWithConversationKey request response routeId key =>
    Repeats crates store now request response routeId key none
  | .recordExchangeWithContext request response routeId key realm =>
    Repeats crates store now request response routeId key realm
  | .recordCompaction _ _ _ _ | .recordCompactionRecord _ => False

theorem RepeatsCall.unchanged {call : HistoryCall}
    (hrepeats : RepeatsCall crates store moment.now call) :
    store.apply crates moment call = store := by
  cases call with
  | recordExchange => exact Repeats.unchanged hrepeats
  | recordExchangeWithConversationKey => exact Repeats.unchanged hrepeats
  | recordExchangeWithContext => exact Repeats.unchanged hrepeats
  | recordCompaction => exact hrepeats.elim
  | recordCompactionRecord => exact hrepeats.elim

/-- An exchange that is passed over repeats nothing new. -/
theorem repeatsCall_of_not_persists {now : Int64} {call : HistoryCall}
    (hpersists : persists now call = false) :
    RepeatsCall crates store now call := by
  have hnone {request response : Json} {routeId : String}
      {key realm : Option String}
      (hpersists : (entryFromExchange request response routeId realm
        now).isSome = false) :
      Repeats crates store now request response routeId key realm := by
    intro entry hentry
    rw [hentry] at hpersists
    cases hpersists
  cases call with
  | recordExchange => exact hnone hpersists
  | recordExchangeWithConversationKey => exact hnone hpersists
  | recordExchangeWithContext => exact hnone hpersists
  | recordCompaction => cases hpersists
  | recordCompactionRecord => cases hpersists

/-- The records behind a call can be written, and if the write fails the call
has changed nothing. -/
structure Holds (crates : Crates) (saved : Saved) (action : HistoryTurn) :
    Prop where
  writes : ∀ value ∈ action.order.records, WritesLine crates value
  kept : action.moment.persisted.isOk = true ∨
    RepeatsCall crates saved.store action.moment.now action.call

theorem Reordered.trans {first second third : FileHistoryStore}
    (hfirst : first.Reordered second) (hsecond : second.Reordered third) :
    first.Reordered third :=
  ⟨List.Perm.trans hfirst.entries hsecond.entries,
    List.Perm.trans hfirst.journals hsecond.journals,
    List.Perm.trans hfirst.conversationKeys hsecond.conversationKeys⟩

theorem Reordered.refl (store : FileHistoryStore) : store.Reordered store :=
  ⟨List.Perm.refl _, List.Perm.refl _, List.Perm.refl _⟩

/-- One call: the store still is what its file holds. -/
theorem Saved.Agrees.turn (hdigest : ∀ text, crates.sha256 text ≠ [])
    {saved next : Saved} (hagrees : saved.Agrees crates) {action : HistoryTurn}
    (hholds : Holds crates saved action)
    (hturn : saved.turn crates action = some next) : next.Agrees crates := by
  obtain ⟨loaded, hopen, horder⟩ := hagrees
  obtain ⟨store, hstore, rfl⟩ := map_eq_some_iff.mp hturn
  have hreordered := reordered_of_turn hstore
  by_cases hwritten : (persists action.moment.now action.call &&
      action.moment.persisted.isOk) = true
  · have hformed := (((Formed.of_openFile hopen).reordered horder).apply hdigest
      action.moment action.call).reordered hreordered
    have horderStore : action.order = store := by
      rw [FileHistoryStore.turn] at hstore
      split at hstore
      · exact some.inj hstore
      · cases hstore
    refine ⟨store, ?_, Reordered.refl store⟩
    rw [if_pos hwritten]
    exact hformed.openFile_contents (horderStore ▸ hholds.writes)
  · have hrepeats : RepeatsCall crates saved.store action.moment.now
        action.call := by
      rcases hholds.kept with hok | hrepeats
      · rw [hok, Bool.and_true, Bool.not_eq_true] at hwritten
        exact repeatsCall_of_not_persists hwritten
      · exact hrepeats
    rw [hrepeats.unchanged] at hreordered
    refine ⟨loaded, ?_, horder.trans hreordered⟩
    rw [if_neg hwritten]
    exact hopen

end

/-- A call whose write fails leaves the answers of the store as they were
exactly when it is an exchange that stands there already; a failed journal is
always seen.  Where every failed write is of that kind, the store stays what
its file holds. -/
theorem failed_write_unchanged_iff (crates : Crates) :
    (∀ (store : FileHistoryStore) (moment : Moment) (request response : Json)
        (routeId : String) (conversationKey continuationRealm : Option String)
        (error : String),
      (recordExchangeWithContext crates store moment request response routeId
        conversationKey continuationRealm).2 = .error error →
      (SameAnswers store (recordExchangeWithContext crates store moment request
          response routeId conversationKey continuationRealm).1 ↔
        Repeats crates store moment.now request response routeId
          conversationKey continuationRealm)) ∧
    (∀ (store : FileHistoryStore) (moment : Moment)
        (record : CompactionJournalRecord) (error : String),
      (store.recordCompactionRecord moment record).2 = .error error →
        ¬ SameAnswers store (store.recordCompactionRecord moment record).1) ∧
    ((∀ text, crates.sha256 text ≠ []) →
      ∀ (start saved : Saved) (actions : List HistoryTurn),
        start.Agrees crates →
        GuardedRun (Saved.turn crates) (Holds crates) start actions saved →
          saved.Agrees crates) := by
  refine ⟨?_, ?_, ?_⟩
  · intro store moment request response routeId key realm error _
    constructor
    · exact repeats_of_sameAnswers
    · intro hrepeats
      rw [hrepeats.unchanged]
      exact SameAnswers.refl store
  · intro store moment record error _
    exact not_sameAnswers_journal store moment record
  · intro hdigest start saved actions hstart run
    apply run.invariant hstart
    intro before action after hbefore hholds hturn
    exact hbefore.turn hdigest hholds hturn

namespace FullDisk

/-- Nothing is parsed, written or hashed here. -/
def crates : Crates where
  fromStr _ := none
  toStr _ := ""
  sha256 _ := List.replicate 32 0

def moment : Moment where
  now := 0
  persisted := .error "write history temp: no space left on device"

def response : Json := .obj [("id", .str "resp_1")]

def entry : HistoryEntry where
  responseId := "resp_1"
  previousResponseId := none
  routeId := "route"
  continuationRealm := none
  inputItems := []
  outputItems := []
  createdAt := 0

theorem entry_of_response : entryFromExchange (.obj []) response "route" none
    moment.now = some entry := by
  decide

/-- The exchange is in the chains although it was not written. -/
theorem unwritten_exchange_seen :
    (recordExchangeWithContext crates {} moment (.obj []) response "route" none
        none).2 = .error "write history temp: no space left on device" ∧
      ¬ SameAnswers {} (recordExchangeWithContext crates {} moment (.obj [])
        response "route" none none).1 := by
  constructor
  · rw [recordExchange_of_entry entry_of_response]
    rfl
  · intro hsame
    have hrepeats := repeats_of_sameAnswers hsame entry entry_of_response
    cases hrepeats.1

def recorded : FileHistoryStore where
  entries := KeyedTable.empty.put entry

/-- An exchange that is there already is seen as before. -/
theorem repeated_exchange_unseen :
    SameAnswers recorded (recordExchangeWithContext crates recorded moment
      (.obj []) response "route" none none).1 := by
  have hfailed : (recordExchangeWithContext crates recorded moment (.obj [])
      response "route" none none).2 =
        .error "write history temp: no space left on device" := by
    rw [recordExchange_of_entry entry_of_response]
    rfl
  refine ((failed_write_unchanged_iff crates).1 recorded moment (.obj [])
    response "route" none none _ hfailed).mpr ?_
  intro other hother
  rw [entry_of_response] at hother
  obtain rfl := some.inj hother
  refine ⟨find?_put_self _ entry, ?_⟩
  intro key hkey
  cases hkey

end FullDisk

end FileHistoryStore

end Vellum.Proxy

/-
A history store that is reopened.  The file gives the three maps back row by
row; what may differ is the order in which they iterate.  Every answer is the
same in any order, but for the journal found by its compaction id, which is
the first one the map comes by.
-/
import Vellum.Proxy.HistoryStore

namespace Vellum.Proxy

open List Option KeyedTable

variable {left right : Entries}

/-- The walk sees the exchanges through lookups only. -/
theorem walkFrom_congr (hfind : ∀ id, left.find? id = right.find? id)
    (seen : List String) (current : Option String) :
    walkFrom left seen current = walkFrom right seen current := by
  induction seen, current using walkFrom.induct left with
  | case1 seen => rw [walkFrom, walkFrom]
  | case2 seen id hseen =>
    rw [walkFrom, walkFrom, dif_pos hseen, dif_pos hseen]
  | case3 seen id hseen hnone =>
    rw [walkFrom_of_unknown hnone,
      walkFrom_of_unknown ((hfind id).symm.trans hnone)]
  | case4 seen id hseen entry hentry hless ih =>
    rw [walkFrom_of_find hseen hentry,
      walkFrom_of_find hseen ((hfind id).symm.trans hentry), ih]

theorem walkChain_congr (hfind : ∀ id, left.find? id = right.find? id)
    (head : String) : walkChain left head = walkChain right head := by
  rw [walkChain, walkFrom_congr hfind, walkChain]

/-- The exchanges of a conversation do not depend on the order of the map. -/
theorem matching_perm (horder : left.Reordered right)
    {leftKeys rightKeys : ConversationKeys}
    (hkeys : ∀ id, leftKeys.find? id = rightKeys.find? id)
    (conversationKey : String) (routeId : Option String) :
    (matching left leftKeys conversationKey routeId).Perm
      (matching right rightKeys conversationKey routeId) := by
  simp only [matching, hkeys]
  exact List.Perm.filter _ horder

theorem leaves_perm {left right : List HistoryEntry}
    (hperm : left.Perm right) : (leaves left).Perm (leaves right) := by
  have hreferenced : ∀ id,
      id ∈ left.filterMap HistoryEntry.previousResponseId ↔
        id ∈ right.filterMap HistoryEntry.previousResponseId :=
    fun id => (hperm.filterMap _).mem_iff
  simp only [leaves, hreferenced]
  exact (hperm.filter _).map _

theorem mergeSort_eq_of_perm {left right : List String}
    (hperm : left.Perm right) : left.mergeSort = right.mergeSort := by
  have hsorted (names : List String) :
      names.mergeSort.Pairwise (· ≤ ·) := pairwise_mergeSort' (· ≤ ·) names
  exact (((mergeSort_perm left _).trans hperm).trans
    (mergeSort_perm right _).symm).eq_of_pairwise'
      (hsorted left) (hsorted right)

theorem conversationLeafLookup_congr (horder : left.Reordered right)
    {leftKeys rightKeys : ConversationKeys}
    (hkeys : ∀ id, leftKeys.find? id = rightKeys.find? id)
    (conversationKey : String) (routeId : Option String) :
    conversationLeafLookup left leftKeys conversationKey routeId =
      conversationLeafLookup right rightKeys conversationKey routeId := by
  have hperm := matching_perm horder hkeys conversationKey routeId
  simp only [conversationLeafLookup,
    mergeSort_eq_of_perm (leaves_perm hperm), hperm.isEmpty_eq]

namespace FileHistoryStore

/-- The window a response's journals give to a compaction id. -/
def window (compactionId : String) (row : String × List CompactionJournal) :
    Option (List Json) :=
  (row.2.find? fun journal => journal.compactionId = compactionId).map
    CompactionJournal.canonicalItems

/-- No compaction id has two windows. -/
def Clear (store : FileHistoryStore) : Prop :=
  ∀ compactionId, ∀ left ∈ store.journals.rows,
    ∀ right ∈ store.journals.rows, ∀ first second,
      window compactionId left = some first →
        window compactionId right = some second → first = second

section

variable {left : FileHistoryStore} {journals : Journals}
  {store right : FileHistoryStore} {crates : Crates} {compactionId : String}
  {journal : CompactionJournal} {value : Json}

theorem compactionId_of_journalRecord
    (hfind : store.journalRecordForCompaction compactionId = some journal) :
    journal.compactionId = compactionId := by
  simpa using find?_some hfind

/-- The journal found for a compaction id comes from some response. -/
theorem window_of_journalRecord
    (hfind : store.journalRecordForCompaction compactionId = some journal) :
    ∃ row ∈ store.journals.rows,
      window compactionId row = some journal.canonicalItems := by
  rw [journalRecordForCompaction, find?_flatMap] at hfind
  obtain ⟨row, hrow, hjournal⟩ := exists_of_findSome?_eq_some hfind
  refine ⟨row, hrow, ?_⟩
  rw [window, hjournal]
  rfl

theorem window_of_journalRecord_none
    (hfind : store.journalRecordForCompaction compactionId = none)
    {row : String × List CompactionJournal} (hrow : row ∈ store.journals.rows) :
    window compactionId row = none := by
  rw [journalRecordForCompaction, find?_flatMap,
    findSome?_eq_none_iff] at hfind
  rw [window, hfind row hrow]
  rfl

/-- In a clear store the window found for a compaction id is the same in any
order. -/
theorem Clear.journalRecord_window (hclear : left.Clear)
    (horder : left.journals.Reordered right.journals) (compactionId : String) :
    (left.journalRecordForCompaction compactionId).map
        CompactionJournal.canonicalItems =
      (right.journalRecordForCompaction compactionId).map
        CompactionJournal.canonicalItems := by
  have hmem : ∀ row, row ∈ left.journals.rows ↔ row ∈ right.journals.rows :=
    fun row => List.Perm.mem_iff horder
  cases hleft : left.journalRecordForCompaction compactionId with
  | none =>
    cases hright : right.journalRecordForCompaction compactionId with
    | none => rfl
    | some journal =>
      obtain ⟨row, hrow, hwindow⟩ := window_of_journalRecord hright
      rw [window_of_journalRecord_none hleft ((hmem row).mpr hrow)]
        at hwindow
      cases hwindow
  | some first =>
    obtain ⟨row, hrow, hwindow⟩ := window_of_journalRecord hleft
    cases hright : right.journalRecordForCompaction compactionId with
    | none =>
      rw [window_of_journalRecord_none hright ((hmem row).mp hrow)]
        at hwindow
      cases hwindow
    | some second =>
      obtain ⟨other, hother, hsecond⟩ := window_of_journalRecord hright
      exact congrArg some (hclear compactionId row hrow other
        ((hmem other).mpr hother) _ _ hwindow hsecond)

/-- The two stores answer alike. -/
structure SameAnswers (left right : FileHistoryStore) : Prop where
  getChain : ∀ head, left.getChain head = right.getChain head
  responseConversationKey : ∀ responseId,
    left.responseConversationKey responseId =
      right.responseConversationKey responseId
  latestChainForConversation : ∀ conversationKey routeId,
    left.latestChainForConversation conversationKey routeId =
      right.latestChainForConversation conversationKey routeId
  compactionIdsForResponse : ∀ responseId,
    left.compactionIdsForResponse responseId =
      right.compactionIdsForResponse responseId
  journalRecord : ∀ responseId,
    left.journalRecord responseId = right.journalRecord responseId
  compactedReplayWithProvenance : ∀ head,
    left.compactedReplayWithProvenance head =
      right.compactedReplayWithProvenance head

section

variable {left right : FileHistoryStore} (horder : left.Reordered right)

include horder

theorem Reordered.getChain_eq (head : String) :
    left.getChain head = right.getChain head :=
  walkChain_congr horder.entries.find?_eq head

theorem Reordered.journalRecord_eq (responseId : String) :
    left.journalRecord responseId = right.journalRecord responseId := by
  rw [journalRecord, horder.journals.find?_eq, journalRecord]

theorem Reordered.compactionIds_eq (responseId : String) :
    left.compactionIdsForResponse responseId =
      right.compactionIdsForResponse responseId := by
  rw [compactionIdsForResponse, horder.journals.find?_eq,
    compactionIdsForResponse]

theorem Reordered.latestChain_eq (conversationKey : String)
    (routeId : Option String) :
    left.latestChainForConversation conversationKey routeId =
      right.latestChainForConversation conversationKey routeId := by
  rw [latestChainForConversation, latestChainForConversation,
    chainForConversationLeaf, chainForConversationLeaf,
    conversationLeafLookup_congr horder.entries
      horder.conversationKeys.find?_eq]
  split
  · rfl
  · rw [walkChain_congr horder.entries.find?_eq]
  · rfl

theorem Reordered.replayAlong_eq (entries : List HistoryEntry)
    (after : List Json) :
    left.replayAlong entries after = right.replayAlong entries after := by
  induction entries generalizing after with
  | nil => rfl
  | cons entry older ih =>
    have hitems : left.journalCanonicalItems entry.responseId =
        right.journalCanonicalItems entry.responseId := by
      rw [journalCanonicalItems, horder.journalRecord_eq,
        journalCanonicalItems]
    rw [replayAlong, replayAlong, hitems]
    split
    · rw [horder.compactionIds_eq]
    · exact ih _

/-- What the replay falls back to when no exchange of the chain has been
compacted. -/
theorem Reordered.replay_eq (hclear : left.Clear) (head : String) :
    left.compactedReplayWithProvenance head =
      right.compactedReplayWithProvenance head := by
  simp only [compactedReplayWithProvenance]
  rw [horder.getChain_eq, horder.replayAlong_eq]
  split
  · rfl
  · rename_i after _
    generalize ((right.getChain head).head?.bind
      HistoryEntry.previousResponseId).getD head = rootId
    have hwindow := hclear.journalRecord_window horder.journals rootId
    cases hleft : left.journalRecordForCompaction rootId with
    | none =>
      cases hright : right.journalRecordForCompaction rootId with
      | none =>
        rw [journalCanonicalItems, horder.journalRecord_eq,
          horder.compactionIds_eq, journalCanonicalItems]
      | some journal =>
        rw [hleft, hright] at hwindow
        cases hwindow
    | some first =>
      cases hright : right.journalRecordForCompaction rootId with
      | none =>
        rw [hleft, hright] at hwindow
        cases hwindow
      | some second =>
        rw [hleft, hright] at hwindow
        simp only
        rw [some.inj hwindow,
          compactionId_of_journalRecord hleft,
          compactionId_of_journalRecord hright]

theorem Reordered.sameAnswers (hclear : left.Clear) :
    SameAnswers left right where
  getChain := horder.getChain_eq
  responseConversationKey := by
    intro responseId
    rw [responseConversationKey, horder.conversationKeys.find?_eq,
      responseConversationKey]
  latestChainForConversation := horder.latestChain_eq
  compactionIdsForResponse := horder.compactionIds_eq
  journalRecord := horder.journalRecord_eq
  compactedReplayWithProvenance := horder.replay_eq hclear

end

/-- The rows the calls of a store leave behind: journals under the response
they name, and keys that are not empty. -/
structure Formed (store : FileHistoryStore) : Prop where
  journaled : ∀ row ∈ store.journals.rows, row.2 ≠ []
  named : ∀ row ∈ store.journals.rows, ∀ journal ∈ row.2,
    journal.responseId = row.1
  keyed : ∀ row ∈ store.conversationKeys.rows, row.1 ≠ "" ∧ row.2 ≠ ""

/-- How `serde_json` writes an object: as a text it reads back, on one line
and closed by a brace. -/
structure WritesLine (crates : Crates) (value : Json) : Prop where
  parses : crates.fromStr (crates.toStr value) = some value
  line : '\n' ∉ (crates.toStr value).toList
  closed : (crates.toStr value).toList.getLast? = some '\x7d'

theorem WritesLine.not_blank (hwrites : WritesLine crates value) :
    Text.isBlank (crates.toStr value).toList = false := by
  have hmem : '\x7d' ∈ (crates.toStr value).toList :=
    mem_of_getLast? hwrites.closed
  rw [Text.isBlank, List.all_eq_false]
  exact ⟨_, hmem, by decide⟩

theorem WritesLine.loadLine_eq (hwrites : WritesLine crates value)
    (store : FileHistoryStore) (number : Nat) :
    loadLine crates store number (crates.toStr value).toList =
      loadValue store number value := by
  rw [loadLine, hwrites.not_blank, if_neg Bool.false_ne_true,
    String.ofList_toList, hwrites.parses]

/-- The lines are told apart: an exchange is read as one, and neither a
journal nor a key reads as an exchange. -/
theorem loadValue_entry (store : FileHistoryStore) (number : Nat)
    (entry : HistoryEntry) :
    loadValue store number entry.toJson =
      .ok { store with entries := store.entries.put entry } := by
  rw [loadValue, HistoryEntry.fromJson_toJson]

theorem loadValue_journal (store : FileHistoryStore) (number : Nat)
    (journal : CompactionJournal) :
    loadValue store number (wrapJournal journal) =
      .ok { store with journals := pushJournal store.journals journal } := by
  have hentry : HistoryEntry.fromJson (wrapJournal journal) = none := rfl
  have hkind : ((wrapJournal journal).get "kind").bind Json.asStr =
      some "compaction" := rfl
  have hjournal : (wrapJournal journal).get "journal" =
      some journal.toJson := rfl
  rw [loadValue, hentry]
  simp only
  rw [if_pos hkind, hjournal, getD_some,
    CompactionJournal.fromJson_toJson]

theorem loadValue_key (store : FileHistoryStore) (number : Nat)
    {row : String × String} (hrow : row.1 ≠ "" ∧ row.2 ≠ "") :
    loadValue store number (wrapKey row) =
      .ok { store with
        conversationKeys := store.conversationKeys.put row } := by
  have hentry : HistoryEntry.fromJson (wrapKey row) = none := rfl
  have hkind : ((wrapKey row).get "kind").bind Json.asStr =
      some "conversation_key" := rfl
  have hresponse : (wrapKey row).get "response_id" = some (.str row.1) := rfl
  have hkey : (wrapKey row).get "conversation_key" = some (.str row.2) := rfl
  rw [loadValue, hentry]
  simp only [hresponse, hkey, bind_some, Json.asStr, getD_some]
  rw [hkind, if_neg (by decide), if_pos rfl, if_pos hrow]

theorem loadLines_append (crates : Crates) {middle : FileHistoryStore}
    {number : Nat} {front : List (List Char)}
    (hfront : loadLines crates store number front = .ok middle)
    (back : List (List Char)) :
    loadLines crates store number (front ++ back) =
      loadLines crates middle (number + front.length) back := by
  induction front generalizing store number with
  | nil =>
    obtain rfl := Except.ok.inj hfront
    rfl
  | cons line front ih =>
    rw [loadLines] at hfront
    rw [cons_append, loadLines]
    cases hline : loadLine crates store number line with
    | error =>
      rw [hline] at hfront
      cases hfront
    | ok next =>
      rw [hline] at hfront
      simp only
      rw [ih hfront, length_cons, Nat.add_assoc, Nat.add_comm 1]

theorem loadLines_map {α : Type} {encode : α → Json}
    {add : FileHistoryStore → α → FileHistoryStore} {rows : List α}
    (hwrites : ∀ row ∈ rows, WritesLine crates (encode row))
    (hadd : ∀ row ∈ rows, ∀ store number,
      loadValue store number (encode row) = .ok (add store row))
    (store : FileHistoryStore) (number : Nat) :
    loadLines crates store number
        (rows.map fun row => (crates.toStr (encode row)).toList) =
      .ok (rows.foldl add store) := by
  induction rows generalizing store number with
  | nil => rfl
  | cons row rows ih =>
    rw [map_cons, loadLines,
      (hwrites row mem_cons_self).loadLine_eq,
      hadd row mem_cons_self, foldl_cons]
    exact ih (fun other hother => hwrites other (mem_cons_of_mem row hother))
      (fun other hother => hadd other (mem_cons_of_mem row hother)) _ _

theorem rows_foldl_pushJournal {responseId : String}
    (hfresh : responseId ∉ journals.rows.map Prod.fst)
    {list : List CompactionJournal} (hlist : list ≠ [])
    (hnamed : ∀ journal ∈ list, journal.responseId = responseId) :
    (list.foldl pushJournal journals).rows =
      journals.rows ++ [(responseId, list)] := by
  induction list using reverseRecOn with
  | nil => exact absurd rfl hlist
  | append_singleton list journal ih =>
    have hlast : journal.responseId = responseId :=
      hnamed journal (mem_append_right _ mem_cons_self)
    rw [foldl_append, foldl_cons, foldl_nil, pushJournal,
      hlast]
    by_cases hempty : list = []
    · have hnone : journals.find? responseId = none := by
        rw [find?_eq_none_iff]
        intro row hrow hkey
        exact hfresh (hkey ▸ List.mem_map_of_mem hrow)
      rw [hempty, foldl_nil, hnone, rows_put_of_fresh hfresh]
      rfl
    · have hrows := ih hempty
        fun other hother => hnamed other (mem_append_left _ hother)
      have hfound : (list.foldl pushJournal journals).find? responseId =
          some (responseId, list) := by
        rw [find?_eq_some_iff, hrows]
        exact ⟨mem_append_right _ mem_cons_self, rfl⟩
      rw [hfound]
      exact rows_put_of_last hrows rfl

/-- The journals of all responses, written response by response. -/
theorem rows_foldl_journals {rows : List (String × List CompactionJournal)}
    (hnodup : ((journals.rows ++ rows).map Prod.fst).Nodup)
    (hjournaled : ∀ row ∈ rows, row.2 ≠ [])
    (hnamed : ∀ row ∈ rows, ∀ journal ∈ row.2, journal.responseId = row.1) :
    ((rows.flatMap Prod.snd).foldl pushJournal journals).rows =
      journals.rows ++ rows := by
  induction rows generalizing journals with
  | nil => rw [flatMap_nil, foldl_nil, append_nil]
  | cons row rows ih =>
    have hfresh : row.1 ∉ journals.rows.map Prod.fst := by
      rw [map_append, nodup_append] at hnodup
      intro hmem
      exact hnodup.2.2 _ hmem _ (List.mem_map_of_mem mem_cons_self) rfl
    have hfirst := rows_foldl_pushJournal hfresh
      (hjournaled row mem_cons_self) (hnamed row mem_cons_self)
    have hrows : journals.rows ++ row :: rows =
        (row.2.foldl pushJournal journals).rows ++ rows := by
      rw [hfirst, append_assoc, singleton_append]
    rw [hrows] at hnodup ⊢
    rw [flatMap_cons, foldl_append]
    exact ih hnodup
      (fun other hother => hjournaled other (mem_cons_of_mem row hother))
      (fun other hother => hnamed other (mem_cons_of_mem row hother))

theorem foldl_entries (rows : List HistoryEntry) (store : FileHistoryStore) :
    rows.foldl (fun store entry =>
        { store with entries := store.entries.put entry }) store =
      { store with entries := rows.foldl KeyedTable.put store.entries } := by
  induction rows generalizing store with
  | nil => rfl
  | cons entry rows ih => exact ih _

theorem foldl_journals (list : List CompactionJournal)
    (store : FileHistoryStore) :
    list.foldl (fun store journal =>
        { store with journals := pushJournal store.journals journal }) store =
      { store with journals := list.foldl pushJournal store.journals } := by
  induction list generalizing store with
  | nil => rfl
  | cons journal list ih => exact ih _

theorem foldl_keys (rows : List (String × String)) (store : FileHistoryStore) :
    rows.foldl (fun store row =>
        { store with
          conversationKeys := store.conversationKeys.put row }) store =
      { store with
        conversationKeys :=
          rows.foldl KeyedTable.put store.conversationKeys } := by
  induction rows generalizing store with
  | nil => rfl
  | cons row rows ih => exact ih _

/-- What a store writes, it reads back. -/
theorem Formed.openFile_contents (hformed : store.Formed)
    (hwrites : ∀ value ∈ store.records, WritesLine crates value) :
    openFile crates (some (store.contents crates)) = .ok store := by
  have hlines : Text.lines (store.contents crates) =
      store.records.map fun value => (crates.toStr value).toList := by
    apply Text.lines_flatMap
    intro text htext
    obtain ⟨value, hvalue, rfl⟩ := List.mem_map.mp htext
    refine ⟨(hwrites value hvalue).line, ?_⟩
    rw [(hwrites value hvalue).closed]
    decide
  have hentries : store.entries.rows.foldl KeyedTable.put
      (KeyedTable.empty : Entries) = store.entries :=
    eq_of_rows (rows_foldl_put store.entries.keys_nodup)
  have hjournals : (store.journals.rows.flatMap Prod.snd).foldl pushJournal
      KeyedTable.empty = store.journals :=
    eq_of_rows (rows_foldl_journals store.journals.keys_nodup
      hformed.journaled hformed.named)
  have hkeys : store.conversationKeys.rows.foldl KeyedTable.put
      (KeyedTable.empty : ConversationKeys) = store.conversationKeys :=
    eq_of_rows
      (rows_foldl_put store.conversationKeys.keys_nodup)
  simp only [records, mem_append, or_imp, forall_and,
    List.forall_mem_map] at hwrites
  obtain ⟨⟨hentryLines, hjournalLines⟩, hkeyLines⟩ := hwrites
  have hfirst := loadLines_map hentryLines
    (fun row _ store number => loadValue_entry store number row) {} 1
  rw [foldl_entries, hentries] at hfirst
  have hsecond := fun number => loadLines_map hjournalLines
    (fun row _ store number => loadValue_journal store number row)
    { entries := store.entries } number
  simp only [foldl_journals, hjournals] at hsecond
  have hthird := fun number => loadLines_map hkeyLines
    (fun row hrow store number =>
      loadValue_key store number (hformed.keyed row hrow))
    { entries := store.entries, journals := store.journals } number
  simp only [foldl_keys, hkeys] at hthird
  rw [openFile, getD_some, hlines, records, map_append,
    map_append, List.map_map, List.map_map, List.map_map,
    append_assoc]
  refine (loadLines_append crates hfirst _).trans ?_
  refine (loadLines_append crates (hsecond _) _).trans ?_
  exact hthird _

theorem Formed.empty : Formed {} := by
  constructor
  · intro row hrow
    cases hrow
  · intro row hrow
    cases hrow
  · intro row hrow
    cases hrow

section

variable (hformed : store.Formed)
include hformed

theorem Formed.put_entry (entry : HistoryEntry) :
    Formed { store with entries := store.entries.put entry } :=
  ⟨hformed.journaled, hformed.named, hformed.keyed⟩

theorem Formed.put_key (row : String × String)
    (hrow : row.1 ≠ "" ∧ row.2 ≠ "") :
    Formed { store with
      conversationKeys := store.conversationKeys.put row } := by
  refine ⟨hformed.journaled, hformed.named, ?_⟩
  intro other hother
  rcases (mem_put_iff _ _ _).mp hother with rfl | ⟨hold, -⟩
  · exact hrow
  · exact hformed.keyed other hold

theorem Formed.journals_of_find (responseId : String) :
    ∀ journal ∈ ((store.journals.find? responseId).map Prod.snd).getD [],
      journal.responseId = responseId := by
  intro journal hjournal
  cases hfind : store.journals.find? responseId with
  | none =>
    rw [hfind] at hjournal
    cases hjournal
  | some row =>
    rw [hfind] at hjournal
    obtain ⟨hrow, hkey⟩ :=
      (store.journals.find?_eq_some_iff responseId row).mp hfind
    rw [← hkey]
    exact hformed.named row hrow journal hjournal

theorem Formed.push_journal (journal : CompactionJournal) :
    Formed { store with journals := pushJournal store.journals journal } := by
  refine ⟨?_, ?_, hformed.keyed⟩
  · intro row hrow
    rcases (mem_put_iff _ _ _).mp hrow with rfl | ⟨hold, -⟩
    · exact append_ne_nil_of_right_ne_nil _ (cons_ne_nil _ _)
    · exact hformed.journaled row hold
  · intro row hrow other hother
    rcases (mem_put_iff _ _ _).mp hrow with rfl | ⟨hold, -⟩
    · rcases mem_append.mp hother with hother | hother
      · exact hformed.journals_of_find journal.responseId other hother
      · rw [mem_singleton.mp hother]
    · exact hformed.named row hold other hother

theorem Formed.loadValue {next : FileHistoryStore} {number : Nat}
    (hload : loadValue store number value = .ok next) : next.Formed := by
  rw [FileHistoryStore.loadValue] at hload
  split at hload
  · obtain rfl := Except.ok.inj hload
    exact hformed.put_entry _
  · split at hload
    · split at hload
      · obtain rfl := Except.ok.inj hload
        exact hformed.push_journal _
      · cases hload
    · split at hload
      · simp only at hload
        split at hload
        · rename_i hrow
          obtain rfl := Except.ok.inj hload
          exact hformed.put_key _ hrow
        · obtain rfl := Except.ok.inj hload
          exact hformed
      · cases hload

theorem Formed.loadLines {next : FileHistoryStore} {number : Nat}
    {lines : List (List Char)}
    (hload : loadLines crates store number lines = .ok next) : next.Formed := by
  induction lines generalizing store number with
  | nil =>
    obtain rfl := Except.ok.inj hload
    exact hformed
  | cons line lines ih =>
    rw [FileHistoryStore.loadLines] at hload
    cases hline : loadLine crates store number line with
    | error =>
      rw [hline] at hload
      cases hload
    | ok middle =>
      rw [hline] at hload
      refine ih ?_ hload
      rw [loadLine] at hline
      split at hline
      · obtain rfl := Except.ok.inj hline
        exact hformed
      · split at hline
        · cases hline
        · exact hformed.loadValue hline

end

theorem Formed.of_openFile {file : Option (List Char)}
    (hopen : openFile crates file = .ok store) : store.Formed :=
  Formed.empty.loadLines hopen

/-- A conversation key that was made of a request is not empty. -/
theorem Formed.inherit_ne (hformed : store.Formed)
    (hdigest : ∀ text, crates.sha256 text ≠ []) {request : Json}
    {previous : Option String} {key : String}
    (hkey : inheritConversationKey crates request previous
      store.conversationKeys = some key) : key ≠ "" := by
  have hcodex {identity : CodexTurnIdentity} {key : String}
      (hkey : codexConversationKey identity = some key) : key ≠ "" := by
    rw [codexConversationKey] at hkey
    split at hkey
    · cases hkey
    · split at hkey
      · rw [← some.inj hkey, ← String.toList_inj.ne]
        simp
      · cases hkey
  have hfallback {key : String}
      (hkey : (conversationKeyFromRequest crates request).or
        (previous.bind fun id => (store.conversationKeys.find? id).map
          Prod.snd) = some key) : key ≠ "" := by
    rcases or_eq_some_iff.mp hkey with hkey | ⟨-, hkey⟩
    · obtain ⟨raw, -, rfl⟩ := map_eq_some_iff.mp hkey
      rw [sha256Hex, ← String.toList_inj.ne, String.toList_ofList]
      cases hbytes : crates.sha256 (trim raw) with
      | nil => exact absurd hbytes (hdigest _)
      | cons byte rest => simp [hexByte]
    · obtain ⟨id, -, hfind⟩ := bind_eq_some_iff.mp hkey
      obtain ⟨row, hrow, rfl⟩ := map_eq_some_iff.mp hfind
      exact (hformed.keyed row
        ((store.conversationKeys.find?_eq_some_iff id row).mp hrow).1).2
  rw [inheritConversationKey] at hkey
  split at hkey
  · rcases or_eq_some_iff.mp hkey with hkey | ⟨-, hkey⟩
    · exact hcodex hkey
    · split at hkey
      · exact hcodex hkey
      · exact hfallback hkey
  · split at hkey
    · exact hcodex hkey
    · exact hfallback hkey

theorem ne_empty_of_filter {named : Option String} {text : String}
    (hnamed : (named.filter fun text => !isBlank text) = some text) :
    text ≠ "" := by
  have hvisible := (filter_eq_some_iff.mp hnamed).2
  rintro rfl
  cases hvisible

theorem Formed.recordExchange (hformed : store.Formed)
    (hdigest : ∀ text, crates.sha256 text ≠ []) (moment : Moment)
    (request response : Json) (routeId : String)
    (conversationKey realm : Option String) :
    (recordExchangeWithContext crates store moment request response routeId
      conversationKey realm).1.Formed := by
  rw [recordExchangeWithContext]
  split
  · exact hformed
  · rename_i entry hentry
    have hid : entry.responseId ≠ "" := by
      obtain ⟨responseId, hnamed, rfl⟩ := map_eq_some_iff.mp hentry
      exact ne_empty_of_filter hnamed
    have hput := hformed.put_entry entry
    simp only
    split
    · rename_i key hkey
      refine hput.put_key (entry.responseId, key) ⟨hid, ?_⟩
      rcases or_eq_some_iff.mp hkey with hkey | ⟨-, hkey⟩
      · exact ne_empty_of_filter hkey
      · exact hformed.inherit_ne hdigest hkey
    · exact hput

theorem Formed.apply (hformed : store.Formed)
    (hdigest : ∀ text, crates.sha256 text ≠ []) (moment : Moment)
    (call : HistoryCall) : (store.apply crates moment call).Formed := by
  cases call with
  | recordExchange =>
    exact hformed.recordExchange hdigest moment _ _ _ none none
  | recordExchangeWithConversationKey =>
    exact hformed.recordExchange hdigest moment _ _ _ _ none
  | recordExchangeWithContext =>
    exact hformed.recordExchange hdigest moment _ _ _ _ _
  | recordCompaction => exact hformed.push_journal _
  | recordCompactionRecord => exact hformed.push_journal _

theorem Formed.reordered (hformed : left.Formed)
    (horder : left.Reordered right) : right.Formed := by
  constructor
  · intro row hrow
    exact hformed.journaled row (horder.journals.mem_iff.mpr hrow)
  · intro row hrow
    exact hformed.named row (horder.journals.mem_iff.mpr hrow)
  · intro row hrow
    exact hformed.keyed row (horder.conversationKeys.mem_iff.mpr hrow)

/-- The record a call journals. -/
def journaledRecord (crates : Crates) :
    HistoryCall → Option CompactionJournalRecord
  | .recordCompaction responseId compactionId generation items =>
    some (localRecord crates responseId compactionId generation items)
  | .recordCompactionRecord record => some record
  | _ => none

/-- A call gives its compaction id no second window: the response has journaled
the id already, or every other that has gives it the same items. -/
def KeepsClear (crates : Crates) (store : FileHistoryStore)
    (call : HistoryCall) : Prop :=
  ∀ record, journaledRecord crates call = some record →
    (∃ row ∈ store.journals.rows, row.1 = record.responseId ∧
      (window record.compactionId row).isSome) ∨
    ∀ row ∈ store.journals.rows, ∀ items,
      window record.compactionId row = some items →
        items = record.canonicalItems

theorem window_pushed (compactionId responseId : String)
    (list : List CompactionJournal) (journal : CompactionJournal) :
    window compactionId (responseId, list ++ [journal]) =
      (window compactionId (responseId, list)).or
        (if journal.compactionId = compactionId then
          some journal.canonicalItems else none) := by
  simp only [window, find?_append, find?_cons, find?_nil]
  cases list.find? fun journal => journal.compactionId = compactionId with
  | some first => rfl
  | none =>
    by_cases hid : journal.compactionId = compactionId
    · simp [hid]
    · simp [hid]

/-- A window behind a push was there before, or is that of the journal, which
is then the first of its response. -/
theorem window_pushJournal {row : String × List CompactionJournal}
    (hrow : row ∈ (pushJournal journals journal).rows) {items : List Json}
    (hwindow : window compactionId row = some items) :
    (∃ old ∈ journals.rows, window compactionId old = some items) ∨
    (compactionId = journal.compactionId ∧ items = journal.canonicalItems ∧
      ∀ old ∈ journals.rows, old.1 = journal.responseId →
        window compactionId old = none) := by
  rcases (mem_put_iff _ _ _).mp hrow with rfl | ⟨hold, -⟩
  · rw [window_pushed] at hwindow
    cases hfind : journals.find? journal.responseId with
    | none =>
      rw [hfind] at hwindow
      have hown := (journals.find?_eq_none_iff _).mp hfind
      by_cases hid : journal.compactionId = compactionId
      · simp only [window, map_none, getD_none,
          find?_nil, none_or, hid, if_true] at hwindow
        exact Or.inr ⟨hid.symm, (some.inj hwindow).symm,
          fun old hold hkey => absurd hkey (hown old hold)⟩
      · simp [window, hid] at hwindow
    | some own =>
      obtain ⟨hown, hkey⟩ := (journals.find?_eq_some_iff _ own).mp hfind
      have hlist : window compactionId (journal.responseId,
          ((journals.find? journal.responseId).map Prod.snd).getD []) =
          window compactionId own := by
        rw [hfind]
        rfl
      rw [hlist] at hwindow
      cases hold : window compactionId own with
      | some first =>
        rw [hold, some_or] at hwindow
        exact Or.inl ⟨own, hown, hold.trans hwindow⟩
      | none =>
        rw [hold, none_or] at hwindow
        split at hwindow
        · rename_i hid
          refine Or.inr ⟨hid.symm, (some.inj hwindow).symm, ?_⟩
          intro other hother hname
          rw [journals.eq_of_mem hother hown (hname.trans hkey.symm)]
          exact hold
        · cases hwindow
  · exact Or.inl ⟨row, hold, hwindow⟩

theorem Clear.push_journal (hclear : store.Clear)
    (hkeeps : (∃ row ∈ store.journals.rows, row.1 = journal.responseId ∧
        (window journal.compactionId row).isSome) ∨
      ∀ row ∈ store.journals.rows, ∀ items,
        window journal.compactionId row = some items →
          items = journal.canonicalItems) :
    Clear { store with journals := pushJournal store.journals journal } := by
  -- an old window of the journal's id, where the journal opens a new one
  have hsame {compactionId : String} {items : List Json}
      (hid : compactionId = journal.compactionId)
      (hown : ∀ old ∈ store.journals.rows, old.1 = journal.responseId →
        window compactionId old = none)
      (hitems : ∃ old ∈ store.journals.rows,
        window compactionId old = some items) :
      items = journal.canonicalItems := by
    subst hid
    obtain ⟨old, hold, hwindow⟩ := hitems
    rcases hkeeps with ⟨row, hrow, hname, hsome⟩ | hsame
    · rw [hown row hrow hname] at hsome
      cases hsome
    · exact hsame old hold items hwindow
  intro compactionId left hleft right hright first second hfirst hsecond
  rcases window_pushJournal hleft hfirst with
    hold | ⟨hid, hitems, hown⟩
  · rcases window_pushJournal hright hsecond with
      hother | ⟨hid, hitems, hown⟩
    · obtain ⟨old, hmem, hwindow⟩ := hold
      obtain ⟨other, hotherMem, hotherWindow⟩ := hother
      exact hclear compactionId old hmem other hotherMem _ _ hwindow
        hotherWindow
    · rw [hitems]
      exact hsame hid hown hold
  · rcases window_pushJournal hright hsecond with
      hother | ⟨-, hothers, -⟩
    · rw [hitems, hsame hid hown hother]
    · rw [hitems, hothers]

theorem Clear.recordExchange (hclear : store.Clear) (crates : Crates)
    (moment : Moment) (request response : Json) (routeId : String)
    (conversationKey realm : Option String) :
    (recordExchangeWithContext crates store moment request response routeId
      conversationKey realm).1.Clear := by
  rw [recordExchangeWithContext]
  split <;> exact hclear

theorem Clear.apply (hclear : store.Clear) (moment : Moment)
    {call : HistoryCall} (hkeeps : KeepsClear crates store call) :
    (store.apply crates moment call).Clear := by
  cases call with
  | recordExchange =>
    exact hclear.recordExchange crates moment _ _ _ none none
  | recordExchangeWithConversationKey =>
    exact hclear.recordExchange crates moment _ _ _ _ none
  | recordExchangeWithContext =>
    exact hclear.recordExchange crates moment _ _ _ _ _
  | recordCompaction => exact hclear.push_journal (hkeeps _ rfl)
  | recordCompactionRecord => exact hclear.push_journal (hkeeps _ rfl)

theorem Clear.reordered (hclear : left.Clear) (horder : left.Reordered right) :
    right.Clear := by
  intro compactionId row hrow other hother
  exact hclear compactionId row (horder.journals.mem_iff.mpr hrow) other
    (horder.journals.mem_iff.mpr hother)

end

end FileHistoryStore

/-- A call, what it meets outside, and the maps as they iterate behind it. -/
structure HistoryTurn where
  call : HistoryCall
  moment : Moment
  order : FileHistoryStore

namespace FileHistoryStore

instance (left right : FileHistoryStore) :
    Decidable (left.Reordered right) :=
  decidable_of_iff (left.entries.rows.Perm right.entries.rows ∧
      left.journals.rows.Perm right.journals.rows ∧
      left.conversationKeys.rows.Perm right.conversationKeys.rows)
    ⟨fun h => ⟨h.1, h.2.1, h.2.2⟩,
      fun h => ⟨h.entries, h.journals, h.conversationKeys⟩⟩

/-- A call may leave the rows of the maps in any order. -/
def turn (crates : Crates) (store : FileHistoryStore) (turn : HistoryTurn) :
    Option FileHistoryStore :=
  if (store.apply crates turn.moment turn.call).Reordered turn.order then
    some turn.order
  else none

theorem reordered_of_turn {crates : Crates} {store next : FileHistoryStore}
    {action : HistoryTurn} (hturn : turn crates store action = some next) :
    (store.apply crates action.moment action.call).Reordered next := by
  rw [turn] at hturn
  split at hturn
  · rename_i horder
    rw [← some.inj hturn]
    exact horder
  · cases hturn

/-- A store whose calls give no compaction id a second window answers as it
did after it has been written and reopened, in whatever order the maps then
iterate. -/
theorem reopened_answers_alike {crates : Crates}
    (hdigest : ∀ text, crates.sha256 text ≠ [])
    {file : Option (List Char)} {start store : FileHistoryStore}
    (hopen : openFile crates file = .ok start) (hstart : start.Clear)
    {actions : List HistoryTurn}
    (run : GuardedRun (turn crates)
      (fun store action => KeepsClear crates store action.call) start actions
      store)
    (hwrites : ∀ value ∈ store.records, WritesLine crates value) :
    ∃ loaded, openFile crates (some (store.contents crates)) = .ok loaded ∧
      ∀ reopened, loaded.Reordered reopened → SameAnswers store reopened := by
  have hkept : store.Formed ∧ store.Clear := by
    apply run.invariant ⟨Formed.of_openFile hopen, hstart⟩
    rintro store action next ⟨hformed, hclear⟩ hkeeps hturn
    have horder := reordered_of_turn hturn
    exact ⟨(hformed.apply hdigest action.moment action.call).reordered horder,
      (hclear.apply action.moment hkeeps).reordered horder⟩
  refine ⟨store, hkept.1.openFile_contents hwrites, ?_⟩
  intro reopened horder
  exact horder.sameAnswers hkept.2

namespace SharedId

/-- A compaction under one id, with a window of its own for each response. -/
def record (responseId item : String) : CompactionJournalRecord where
  responseId := responseId
  compactionId := "cmp_1"
  generation := 1
  engineId := engineId
  engineProvenance := none
  routeId := ""
  upstreamModel := ""
  tokensBefore := 0
  tokensAfter := 0
  elapsedMs := 0
  schemaVersion := localCompactionRecordSchemaV1
  sourceItems := []
  canonicalItems := [.str item]
  sourceHash := ""
  checkpointHash := ""
  providerOwned := false

def journal (responseId item : String) : CompactionJournal :=
  CompactionJournal.fromRecord (record responseId item) 0

/-- The line of such a journal. -/
def chars (responseId item : String) : List Char :=
  ["\x7b\"kind\":\"compaction\",\"journal\":\x7b",
    "\"compaction_id\":\"cmp_1\",\"engine_id\":",
    "\"codex_local_v0_150\",\"engine_provenance\":null,",
    "\"route_id\":\"\",\"upstream_model\":\"\",",
    "\"tokens_before\":0,\"tokens_after\":0,\"elapsed_ms\":0,",
    "\"response_id\":\"", responseId, "\",\"generation\":1,",
    "\"canonical_items\":[\"", item, "\"],\"source_items\":[],",
    "\"schema_version\":1,\"source_hash\":\"\",",
    "\"checkpoint_hash\":\"\",\"created_at\":0\x7d\x7d"].flatMap
      String.toList

/-- JSON on the two lines. -/
def lines : List (Json × List Char) :=
  [(wrapJournal (journal "resp_1" "first"), chars "resp_1" "first"),
    (wrapJournal (journal "resp_2" "second"), chars "resp_2" "second")]

def crates : Crates where
  fromStr text :=
    (lines.find? fun line => line.2 = text.toList).map Prod.fst
  toStr value := String.ofList ((lines.lookup value).getD [])
  sha256 _ := List.replicate 32 0

def rows : List (String × List CompactionJournal) :=
  [("resp_1", [journal "resp_1" "first"]),
    ("resp_2", [journal "resp_2" "second"])]

/-- The store behind the first call. -/
def one : FileHistoryStore where
  journals := ⟨rows.take 1, by decide⟩

/-- The store behind both calls. -/
def both : FileHistoryStore where
  journals := ⟨rows, by decide⟩

/-- Both journals, iterated the other way round. -/
def turned : FileHistoryStore where
  journals := ⟨rows.reverse, by decide⟩

def moment : Moment where
  now := 0
  persisted := .ok ()

def actions : List HistoryTurn :=
  [⟨.recordCompactionRecord (record "resp_1" "first"), moment, one⟩,
    ⟨.recordCompactionRecord (record "resp_2" "second"), moment, both⟩]

theorem writes_lines : ∀ value ∈ both.records, WritesLine crates value := by
  have hall : ∀ value ∈ both.records,
      (lines.find? fun line =>
          line.2 = (lines.lookup value).getD []).map Prod.fst = some value ∧
        '\n' ∉ (lines.lookup value).getD [] ∧
          ((lines.lookup value).getD []).getLast? = some '\x7d' := by
    decide +kernel
  intro value hvalue
  obtain ⟨hparses, hline, hclosed⟩ := hall value hvalue
  constructor
  · simp only [crates, String.toList_ofList]
    exact hparses
  · simp only [crates, String.toList_ofList]
    exact hline
  · simp only [crates, String.toList_ofList]
    exact hclosed

theorem turn_one : turn crates {} ⟨.recordCompactionRecord
    (record "resp_1" "first"), moment, one⟩ = some one := by
  have horder : (apply crates {} moment
      (.recordCompactionRecord (record "resp_1" "first"))).Reordered one := by
    decide
  rw [turn, if_pos horder]

theorem turn_both : turn crates one ⟨.recordCompactionRecord
    (record "resp_2" "second"), moment, both⟩ = some both := by
  have horder : (apply crates one moment
      (.recordCompactionRecord (record "resp_2" "second"))).Reordered both := by
    decide
  rw [turn, if_pos horder]

theorem replay_of_root {store : FileHistoryStore}
    (hentries : store.entries.rows = []) :
    store.compactedReplayWithProvenance "cmp_1" =
      match store.journalRecordForCompaction "cmp_1" with
      | some journal =>
        some (replayOf journal.canonicalItems [] (some journal.compactionId))
      | none =>
        (store.journalCanonicalItems "cmp_1").map fun items =>
          replayOf items []
            (store.compactionIdsForResponse "cmp_1").getLast? := by
  have hnone : store.entries.find? "cmp_1" = none := by
    rw [KeyedTable.find?, hentries]
    rfl
  have hchain : store.getChain "cmp_1" = [] := by
    rw [getChain, walkChain, walkFrom_of_unknown hnone]
    rfl
  simp only [compactedReplayWithProvenance, hchain]
  rfl

/-- The replay of the shared id is the window the map comes by first. -/
theorem replay_depends_on_order :
    runActions (turn crates) {} actions = some both ∧
      openFile crates (some (both.contents crates)) = .ok both ∧
      both.Reordered turned ∧
      both.compactedReplayWithProvenance "cmp_1" ≠
        turned.compactedReplayWithProvenance "cmp_1" := by
  have hformed : both.Formed := ⟨by decide, by decide, by decide⟩
  refine ⟨?_, hformed.openFile_contents writes_lines, by decide, ?_⟩
  · simp only [actions, runActions, turn_one, turn_both, bind_some]
  · rw [replay_of_root rfl, replay_of_root rfl]
    decide

/-- With one journal the reopened store answers as before. -/
theorem one_journal_reopens :
    ∃ loaded, openFile crates (some (one.contents crates)) = .ok loaded ∧
      ∀ reopened, loaded.Reordered reopened → SameAnswers one reopened := by
  have hdigest : ∀ text, crates.sha256 text ≠ [] := by
    intro text
    exact cons_ne_nil _ _
  have hclear : Clear {} := by
    intro compactionId row hrow
    cases hrow
  have hkeeps : KeepsClear crates {}
      (.recordCompactionRecord (record "resp_1" "first")) := by
    intro record hrecord
    right
    intro row hrow
    cases hrow
  have hwrites : ∀ value ∈ one.records, WritesLine crates value := by
    intro value hvalue
    apply writes_lines
    rw [mem_singleton.mp hvalue]
    exact mem_cons_self
  exact reopened_answers_alike hdigest (rfl : openFile crates none = .ok {})
    hclear (GuardedRun.snoc GuardedRun.nil hkeeps turn_one) hwrites

end SharedId

end FileHistoryStore

end Vellum.Proxy

/-
The chain of a response and its replay.  The walk over the links ends on any
graph of links, and gives a path without repetitions.  The replay and the
parent of the next compaction are looked up by two walks of their own; they
name the same compaction.
-/
import Vellum.Proxy.HistoryReopen

namespace Vellum.Proxy

open List Option

/-- What a walk from `current` gives, newest first. -/
structure Walked (entries : Entries) (seen : List String)
    (current : Option String) (walk : List HistoryEntry) : Prop where
  stored : ∀ entry ∈ walk, entries.find? entry.responseId = some entry
  fresh : ∀ entry ∈ walk, entry.responseId ∉ seen
  nodup : (walk.map HistoryEntry.responseId).Nodup
  linked : walk.IsChain fun newer older =>
    newer.previousResponseId = some older.responseId
  starts : ∀ entry ∈ walk.head?, current = some entry.responseId
  stops : ∀ id, (walk.getLast?.elim current
      HistoryEntry.previousResponseId) = some id →
    id ∈ seen ∨ id ∈ walk.map HistoryEntry.responseId ∨
      entries.find? id = none

theorem Walked.nil {entries : Entries} {seen : List String}
    {current : Option String}
    (hstops : ∀ id, current = some id →
      id ∈ seen ∨ entries.find? id = none) :
    Walked entries seen current [] where
  stored := by rintro _ ⟨⟩
  fresh := by rintro _ ⟨⟩
  nodup := nodup_nil
  linked := isChain_nil
  starts := by rintro _ ⟨⟩
  stops := by
    intro id hid
    rcases hstops id hid with hseen | hnone
    · exact Or.inl hseen
    · exact Or.inr (Or.inr hnone)

theorem Walked.cons {entries : Entries} {seen : List String} {id : String}
    {entry : HistoryEntry} {walk : List HistoryEntry} (hfresh : id ∉ seen)
    (hfind : entries.find? id = some entry)
    (hwalk : Walked entries (id :: seen) entry.previousResponseId walk) :
    Walked entries seen (some id) (entry :: walk) := by
  have hid : entry.responseId = id := KeyedTable.key_of_find? hfind
  constructor
  · intro other hother
    rcases mem_cons.mp hother with rfl | hother
    · rw [hid]
      exact hfind
    · exact hwalk.stored other hother
  · intro other hother
    rcases mem_cons.mp hother with rfl | hother
    · rw [hid]
      exact hfresh
    · intro hseen
      exact hwalk.fresh other hother (mem_cons_of_mem id hseen)
  · rw [map_cons, nodup_cons]
    refine ⟨?_, hwalk.nodup⟩
    intro hmem
    obtain ⟨other, hother, hname⟩ := List.mem_map.mp hmem
    apply hwalk.fresh other hother
    rw [hname, hid]
    exact mem_cons_self
  · exact hwalk.linked.cons hwalk.starts
  · intro other hother
    obtain rfl := some.inj hother
    rw [hid]
  · intro other hother
    rw [getLast?_cons] at hother
    have hrest : other ∈ id :: seen ∨
        other ∈ walk.map HistoryEntry.responseId ∨
          entries.find? other = none := by
      apply hwalk.stops
      cases hlast : walk.getLast? with
      | none =>
        rw [hlast] at hother
        exact hother
      | some last =>
        rw [hlast] at hother
        exact hother
    rw [map_cons, hid]
    rcases hrest with hseen | hmem | hnone
    · rcases mem_cons.mp hseen with rfl | hseen
      · exact Or.inr (Or.inl mem_cons_self)
      · exact Or.inl hseen
    · exact Or.inr (Or.inl (mem_cons_of_mem id hmem))
    · exact Or.inr (Or.inr hnone)

theorem walked_walkFrom (entries : Entries) (seen : List String)
    (current : Option String) :
    Walked entries seen current (walkFrom entries seen current) := by
  induction seen, current using walkFrom.induct entries with
  | case1 seen =>
    rw [walkFrom]
    apply Walked.nil
    intro id hid
    cases hid
  | case2 seen id hseen =>
    rw [walkFrom, dif_pos hseen]
    apply Walked.nil
    rintro other hother
    obtain rfl := some.inj hother
    exact Or.inl hseen
  | case3 seen id hseen hnone =>
    rw [walkFrom_of_unknown hnone]
    apply Walked.nil
    rintro other hother
    obtain rfl := some.inj hother
    exact Or.inr hnone
  | case4 seen id hseen entry hentry hless ih =>
    rw [walkFrom_of_find hseen hentry]
    exact Walked.cons hseen hentry ih

/-- A path of stored exchanges, oldest first, that ends at `head` and cannot
be continued without a repetition. -/
structure IsPath (store : FileHistoryStore) (head : String)
    (chain : List HistoryEntry) : Prop where
  stored : ∀ entry ∈ chain, store.entries.find? entry.responseId = some entry
  nodup : (chain.map HistoryEntry.responseId).Nodup
  linked : chain.IsChain fun older newer =>
    newer.previousResponseId = some older.responseId
  ends : ∀ entry, chain.getLast? = some entry → entry.responseId = head
  empty : chain = [] ↔ store.entries.find? head = none
  whole : ∀ first id, chain.head? = some first →
    first.previousResponseId = some id →
      id ∈ chain.map HistoryEntry.responseId ∨ store.entries.find? id = none

namespace FileHistoryStore

theorem isPath_getChain (store : FileHistoryStore) (head : String) :
    IsPath store head (store.getChain head) := by
  have hwalk := walked_walkFrom store.entries [] (some head)
  rw [getChain, walkChain]
  generalize hresult : walkFrom store.entries [] (some head) = walk at hwalk
  constructor
  · intro entry hentry
    exact hwalk.stored entry (mem_reverse.mp hentry)
  · rw [map_reverse, nodup_reverse]
    exact hwalk.nodup
  · rw [isChain_reverse]
    exact hwalk.linked
  · intro entry hentry
    rw [getLast?_reverse] at hentry
    exact (some.inj (hwalk.starts entry hentry)).symm
  · rw [reverse_eq_nil_iff]
    constructor
    · rintro rfl
      rcases hwalk.stops head rfl with hseen | hmem | hnone
      · cases hseen
      · cases hmem
      · exact hnone
    · intro hnone
      rw [← hresult, walkFrom_of_unknown hnone]
  · intro first id hfirst hprevious
    rw [head?_reverse] at hfirst
    rw [map_reverse, mem_reverse]
    have hstops := hwalk.stops id (by rw [hfirst]; exact hprevious)
    rcases hstops with hseen | hkept
    · cases hseen
    · exact hkept

/-- What an exchange adds to a replay. -/
def exchangeItems (entry : HistoryEntry) : List Json :=
  entry.inputItems ++ entry.outputItems

section

variable (store : FileHistoryStore) (head : String)

/-- The newest journal of a response under a compaction id. -/
def newestJournal (responseId compactionId : String) :
    Option CompactionJournal :=
  (store.journals.find? responseId).bind fun row =>
    row.2.reverse.find? fun journal => journal.compactionId = compactionId

/-- The exchanges of a chain after a response, all of them if it has none of
that id. -/
def exchangesAfter (responseId : String) (chain : List HistoryEntry) :
    List HistoryEntry :=
  (chain.reverse.takeWhile fun entry => entry.responseId ≠ responseId).reverse

/-- What the lookups fall back on when no exchange of the chain is journaled:
the id the chain stops at. -/
def rootId : String :=
  ((store.getChain head).head?.bind HistoryEntry.previousResponseId).getD head

/-- No exchange of the chain has a journal. -/
def Unjournaled : Prop :=
  ∀ entry ∈ store.getChain head, store.journalRecord entry.responseId = none

/-- A replay continues a compaction: its front is the newest journal of a
response under that id, and the rest the exchanges of the chain after it. -/
structure Continues (store : FileHistoryStore) (head compactionId : String)
    (replay : CompactedReplayProvenance) : Prop where
  named : replay.parentCompactionId = some compactionId
  parent : store.compactedReplayParent head = some compactionId
  journaled : ∃ responseId journal,
    store.newestJournal responseId compactionId = some journal ∧
    replay.items.take replay.canonicalPrefixLen = journal.canonicalItems ∧
    replay.items.drop replay.canonicalPrefixLen =
      (exchangesAfter responseId (store.getChain head)).flatMap exchangeItems

/-- A journal has the canonical items of the newest one of a response under
its id. -/
def Backed (journal : CompactionJournal) : Prop :=
  ∃ responseId newest,
    store.newestJournal responseId journal.compactionId = some newest ∧
      newest.canonicalItems = journal.canonicalItems

/-- If the root is looked up as a compaction, the first journal under that id
has not been overtaken. -/
def RootSettled : Prop :=
  store.Unjournaled head →
    ∀ first, store.journalRecordForCompaction (store.rootId head) = some first →
      store.Backed first

end

/-- The chain is a path, and the two lookups agree on the compaction that the
replay continues. -/
structure Replays (store : FileHistoryStore) (head : String) : Prop where
  path : IsPath store head (store.getChain head)
  together : (store.compactedReplayWithProvenance head).isSome =
    (store.compactedReplayParent head).isSome
  continues : ∀ replay,
    store.compactedReplayWithProvenance head = some replay →
      ∃ compactionId, Continues store head compactionId replay

theorem getLast?_compactionIdsForResponse (store : FileHistoryStore)
    (responseId : String) :
    (store.compactionIdsForResponse responseId).getLast? =
      (store.journalRecord responseId).map CompactionJournal.compactionId := by
  rw [compactionIdsForResponse, journalRecord]
  cases store.journals.find? responseId with
  | none => rfl
  | some row => simp [getLast?_map]

section

variable {store : FileHistoryStore} {journal : CompactionJournal}

theorem newestJournal_of_journalRecord {responseId : String}
    (hrecord : store.journalRecord responseId = some journal) :
    store.newestJournal responseId journal.compactionId = some journal := by
  rw [journalRecord] at hrecord
  rw [newestJournal]
  cases hrow : store.journals.find? responseId with
  | none => rw [hrow] at hrecord; cases hrecord
  | some row =>
    rw [hrow, bind_some] at hrecord
    rw [bind_some]
    obtain ⟨front, hfront⟩ := getLast?_eq_some_iff.mp hrecord
    rw [hfront, reverse_append]
    simp

theorem journalRecord_of_newestJournal {responseId compactionId : String}
    (hnewest : store.newestJournal responseId compactionId = some journal) :
    store.journalRecord responseId ≠ none := by
  rw [newestJournal] at hnewest
  rw [journalRecord]
  cases hrow : store.journals.find? responseId with
  | none => rw [hrow] at hnewest; cases hnewest
  | some row =>
    rw [hrow, bind_some] at hnewest
    rw [bind_some]
    intro hnone
    rw [getLast?_eq_none_iff.mp hnone] at hnewest
    cases hnewest

theorem replayAlong_of_unjournaled {walk : List HistoryEntry}
    {after : List Json}
    (hnone : ∀ entry ∈ walk, store.journalRecord entry.responseId = none) :
    replayAlong store walk after =
      .inr (walk.reverse.flatMap exchangeItems ++ after) := by
  induction walk generalizing after with
  | nil => rfl
  | cons entry older ih =>
    have hentry := hnone entry mem_cons_self
    have holder := fun other hother =>
      hnone other (mem_cons_of_mem entry hother)
    rw [replayAlong, journalCanonicalItems, hentry]
    simp only [map_none]
    rw [ih holder, reverse_cons, flatMap_append]
    simp [exchangeItems]

theorem replayAlong_of_journaled {newer older : List HistoryEntry}
    {entry : HistoryEntry} {after : List Json}
    (hnewer : ∀ other ∈ newer, store.journalRecord other.responseId = none)
    (hentry : store.journalRecord entry.responseId = some journal) :
    replayAlong store (newer ++ entry :: older) after =
      .inl (replayOf journal.canonicalItems
        (newer.reverse.flatMap exchangeItems ++ after)
        (some journal.compactionId)) := by
  induction newer generalizing after with
  | nil =>
    rw [nil_append, replayAlong, journalCanonicalItems, hentry,
      getLast?_compactionIdsForResponse, hentry]
    rfl
  | cons other newer ih =>
    have hother := hnewer other mem_cons_self
    have hrest := fun another hanother =>
      hnewer another (mem_cons_of_mem other hanother)
    rw [cons_append, replayAlong, journalCanonicalItems, hother]
    simp only [map_none]
    rw [ih hrest, reverse_cons, flatMap_append]
    simp [exchangeItems]

/-- The newest journaled exchange of a chain, with the exchanges after it. -/
theorem unjournaled_or_journaled (store : FileHistoryStore) (head : String) :
    store.Unjournaled head ∨
      ∃ newer entry older journal,
        (store.getChain head).reverse = newer ++ entry :: older ∧
        (∀ other ∈ newer, store.journalRecord other.responseId = none) ∧
        store.journalRecord entry.responseId = some journal := by
  cases hfind : (store.getChain head).reverse.find? fun entry =>
      (store.journalRecord entry.responseId).isSome with
  | none =>
    left
    intro entry hentry
    rw [find?_eq_none] at hfind
    have hnot := hfind entry (mem_reverse.mpr hentry)
    rwa [Bool.not_eq_true, isSome_eq_false_iff,
      isNone_iff_eq_none] at hnot
  | some entry =>
    right
    obtain ⟨hsome, newer, older, hchain, hnewer⟩ :=
      find?_eq_some_iff_append.mp hfind
    obtain ⟨journal, hjournal⟩ := isSome_iff_exists.mp hsome
    refine ⟨newer, entry, older, journal, hchain, ?_, hjournal⟩
    intro other hother
    have hnot := hnewer other hother
    rwa [Bool.not_eq_true', isSome_eq_false_iff,
      isNone_iff_eq_none] at hnot

theorem findSome?_compactionIds_of_unjournaled {walk : List HistoryEntry}
    (hnone : ∀ entry ∈ walk, store.journalRecord entry.responseId = none) :
    (walk.findSome? fun entry =>
      (store.compactionIdsForResponse entry.responseId).getLast?) = none := by
  rw [findSome?_eq_none_iff]
  intro entry hentry
  rw [getLast?_compactionIdsForResponse, hnone entry hentry]
  rfl

end

section Journaled

variable {store : FileHistoryStore} {head : String}
  {newer older : List HistoryEntry} {entry : HistoryEntry}
  {journal : CompactionJournal}

theorem exchangesAfter_of_split
    (hchain : (store.getChain head).reverse = newer ++ entry :: older) :
    exchangesAfter entry.responseId (store.getChain head) = newer.reverse := by
  have hnodup := (isPath_getChain store head).nodup
  rw [← nodup_reverse, ← map_reverse, hchain, map_append,
    map_cons, nodup_append] at hnodup
  have hnewer : ∀ other ∈ newer,
      decide (other.responseId ≠ entry.responseId) = true := by
    intro other hother
    apply decide_eq_true
    exact hnodup.2.2 _ (List.mem_map_of_mem hother) _ mem_cons_self
  rw [exchangesAfter, hchain, takeWhile_append_of_pos hnewer,
    takeWhile_cons_of_neg (by simp), append_nil]

variable (hchain : (store.getChain head).reverse = newer ++ entry :: older)
  (hnewer : ∀ other ∈ newer, store.journalRecord other.responseId = none)
  (hentry : store.journalRecord entry.responseId = some journal)

include hchain hnewer hentry

theorem compactedReplay_of_journaled :
    store.compactedReplayWithProvenance head =
      some (replayOf journal.canonicalItems
        (newer.reverse.flatMap exchangeItems) (some journal.compactionId)) := by
  rw [compactedReplayWithProvenance, hchain,
    replayAlong_of_journaled hnewer hentry, append_nil]

theorem compactedReplayParent_of_journaled :
    store.compactedReplayParent head = some journal.compactionId := by
  rw [compactedReplayParent, hchain, findSome?_append,
    findSome?_compactionIds_of_unjournaled hnewer, none_or,
    findSome?_cons, getLast?_compactionIdsForResponse, hentry]
  rfl

theorem continues_of_journaled :
    Continues store head journal.compactionId
      (replayOf journal.canonicalItems
        (newer.reverse.flatMap exchangeItems) (some journal.compactionId)) where
  named := rfl
  parent := compactedReplayParent_of_journaled hchain hnewer hentry
  journaled := by
    refine ⟨entry.responseId, journal,
      newestJournal_of_journalRecord hentry, ?_, ?_⟩
    · exact take_left
    · rw [exchangesAfter_of_split hchain]
      exact drop_left

end Journaled

section Unjournaled

variable {store : FileHistoryStore} {head : String}
  (hnone : store.Unjournaled head)

include hnone

theorem compactedReplay_of_unjournaled :
    store.compactedReplayWithProvenance head =
      ((store.journalRecordForCompaction (store.rootId head)).or
        (store.journalRecord (store.rootId head))).map fun journal =>
          replayOf journal.canonicalItems
            ((store.getChain head).flatMap exchangeItems)
            (some journal.compactionId) := by
  have hwalk : ∀ entry ∈ (store.getChain head).reverse,
      store.journalRecord entry.responseId = none := by
    intro entry hentry
    exact hnone entry (mem_reverse.mp hentry)
  rw [compactedReplayWithProvenance, replayAlong_of_unjournaled hwalk,
    reverse_reverse, append_nil, rootId]
  simp only [journalCanonicalItems, getLast?_compactionIdsForResponse]
  generalize ((store.getChain head).head?.bind
    HistoryEntry.previousResponseId).getD head = root
  cases store.journalRecordForCompaction root with
  | some journal => rfl
  | none =>
    cases store.journalRecord root with
    | some journal => rfl
    | none => rfl

theorem compactedReplayParent_of_unjournaled :
    store.compactedReplayParent head =
      ((store.journalRecordForCompaction (store.rootId head)).or
        (store.journalRecord (store.rootId head))).map
          CompactionJournal.compactionId := by
  have hwalk : ∀ entry ∈ (store.getChain head).reverse,
      store.journalRecord entry.responseId = none := by
    intro entry hentry
    exact hnone entry (mem_reverse.mp hentry)
  rw [compactedReplayParent, findSome?_compactionIds_of_unjournaled hwalk,
    rootId]
  simp only [getLast?_compactionIdsForResponse]
  generalize ((store.getChain head).head?.bind
    HistoryEntry.previousResponseId).getD head = root
  cases hfirst : store.journalRecordForCompaction root with
  | some journal =>
    have hid := find?_some hfirst
    simp only [decide_eq_true_eq] at hid
    simp [hid]
  | none => simp

/-- A response outside the chain has all of the chain after it. -/
theorem exchangesAfter_of_newestJournal {responseId compactionId : String}
    {journal : CompactionJournal}
    (hnewest : store.newestJournal responseId compactionId = some journal) :
    exchangesAfter responseId (store.getChain head) = store.getChain head := by
  have hother : ∀ entry ∈ (store.getChain head).reverse,
      decide (entry.responseId ≠ responseId) = true := by
    intro entry hentry
    apply decide_eq_true
    rintro rfl
    exact journalRecord_of_newestJournal hnewest
      (hnone entry (mem_reverse.mp hentry))
  rw [exchangesAfter, takeWhile_eq_self_iff.mpr hother,
    reverse_reverse]

theorem continues_iff_backed (journal : CompactionJournal)
    (hparent : store.compactedReplayParent head = some journal.compactionId) :
    Continues store head journal.compactionId
        (replayOf journal.canonicalItems
          ((store.getChain head).flatMap exchangeItems)
          (some journal.compactionId)) ↔
      store.Backed journal := by
  constructor
  · intro hcontinues
    obtain ⟨responseId, newest, hnewest, hitems, _⟩ := hcontinues.journaled
    refine ⟨responseId, newest, hnewest, ?_⟩
    rw [← hitems]
    exact take_left
  · rintro ⟨responseId, newest, hnewest, hitems⟩
    refine ⟨rfl, hparent, responseId, newest, hnewest, ?_, ?_⟩
    · rw [hitems]
      exact take_left
    · rw [exchangesAfter_of_newestJournal hnone hnewest]
      exact drop_left

end Unjournaled

/-- The chain is a path on any graph of links, and the lookups agree; the front
of the replay is the newest journal unless the root is a compaction that one
response journaled again. -/
theorem replays_iff_rootSettled (store : FileHistoryStore) (head : String) :
    store.Replays head ↔ store.RootSettled head := by
  have hpath := isPath_getChain store head
  rcases unjournaled_or_journaled store head with
    hnone | ⟨newer, entry, older, journal, hchain, hnewer, hentry⟩
  · have hreplay := compactedReplay_of_unjournaled hnone
    have hparent := compactedReplayParent_of_unjournaled hnone
    constructor
    · intro hreplays _ first hfirst
      rw [hfirst, some_or, map_some] at hreplay hparent
      obtain ⟨compactionId, hcontinues⟩ := hreplays.continues _ hreplay
      obtain rfl := some.inj hcontinues.named
      exact (continues_iff_backed hnone first hparent).mp hcontinues
    · intro hsettled
      refine ⟨hpath, ?_, ?_⟩
      · rw [hreplay, hparent, isSome_map, isSome_map]
      · intro replay hsome
        cases hfirst : store.journalRecordForCompaction (store.rootId head) with
        | some first =>
          rw [hfirst, some_or, map_some] at hreplay hparent
          rw [hreplay] at hsome
          obtain rfl := some.inj hsome
          exact ⟨first.compactionId,
            (continues_iff_backed hnone first hparent).mpr
              (hsettled hnone first hfirst)⟩
        | none =>
          rw [hfirst, none_or] at hreplay hparent
          rw [hreplay] at hsome
          obtain ⟨journal, hjournal, rfl⟩ := map_eq_some_iff.mp hsome
          rw [hjournal, map_some] at hparent
          exact ⟨journal.compactionId,
            (continues_iff_backed hnone journal hparent).mpr
              ⟨store.rootId head, journal,
                newestJournal_of_journalRecord hjournal, rfl⟩⟩
  · constructor
    · intro _ hnone
      have hmem : entry ∈ (store.getChain head).reverse := by
        rw [hchain]
        exact mem_append_right newer mem_cons_self
      rw [hnone entry (mem_reverse.mp hmem)] at hentry
      cases hentry
    · intro _
      have hreplay := compactedReplay_of_journaled hchain hnewer hentry
      refine ⟨hpath, ?_, ?_⟩
      · rw [hreplay, compactedReplayParent_of_journaled hchain hnewer hentry]
        rfl
      · intro replay hsome
        rw [hreplay] at hsome
        obtain rfl := some.inj hsome
        exact ⟨journal.compactionId,
          continues_of_journaled hchain hnewer hentry⟩

namespace JournaledTwice

def moment : Moment := ⟨0, .ok ()⟩

/-- One response journals one compaction twice, the second time with another
window. -/
def store : FileHistoryStore :=
  (((({} : FileHistoryStore).recordCompactionRecord moment
    (SharedId.record "resp_1" "first")).1).recordCompactionRecord moment
      (SharedId.record "resp_1" "second")).1

theorem newestJournal_eq {responseId : String} {newest : CompactionJournal}
    (hnewest : store.newestJournal responseId "cmp_1" = some newest) :
    newest = SharedId.journal "resp_1" "second" := by
  obtain ⟨row, hrow, hfind⟩ := bind_eq_some_iff.mp hnewest
  have hmem := ((store.journals.find?_eq_some_iff responseId row).mp hrow).1
  have hrows : store.journals.rows =
      [("resp_1", [SharedId.journal "resp_1" "first",
        SharedId.journal "resp_1" "second"])] := rfl
  rw [hrows, mem_singleton] at hmem
  rw [hmem] at hfind
  exact (some.inj hfind).symm

theorem oldest_journal_replayed :
    (store.compactedReplayWithProvenance "cmp_1").map
        CompactedReplayProvenance.items = some [.str "first"] ∧
      ¬ store.Replays "cmp_1" := by
  have hchain : store.getChain "cmp_1" = [] :=
    (isPath_getChain store "cmp_1").empty.mpr rfl
  have hnone : store.Unjournaled "cmp_1" := by
    intro entry hentry
    rw [hchain] at hentry
    cases hentry
  have hroot : store.rootId "cmp_1" = "cmp_1" := by
    rw [rootId, hchain]
    rfl
  have hfirst : store.journalRecordForCompaction "cmp_1" =
      some (SharedId.journal "resp_1" "first") := rfl
  have hreplay := compactedReplay_of_unjournaled hnone
  have hparent := compactedReplayParent_of_unjournaled hnone
  rw [hroot, hfirst, some_or, map_some] at hreplay hparent
  constructor
  · rw [hreplay, hchain]
    rfl
  · intro hreplays
    obtain ⟨compactionId, hcontinues⟩ := hreplays.continues _ hreplay
    obtain rfl := some.inj hcontinues.named
    obtain ⟨responseId, newest, hnewest, hitems⟩ :=
      (continues_iff_backed hnone _ hparent).mp hcontinues
    rw [newestJournal_eq hnewest] at hitems
    have hstr := Json.str.inj (List.cons.inj hitems).1
    exact absurd hstr (by decide)

end JournaledTwice

end FileHistoryStore

end Vellum.Proxy

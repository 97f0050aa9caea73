/-
The latest chain of a conversation on one route (`history.rs`).  The exchanges
are restricted to the route before the lookup asks which of them another one
continues, so an exchange that a different route continued looks like a leaf.
On a conversation without branches the lookup then finds as many leaves as the
route has runs.
-/
import Vellum.Library.Runs
import Vellum.Proxy.HistoryReopen

namespace Vellum.Proxy

open List

/-- Exchanges that each continue the one before them, under distinct ids; the
first continues none of them. -/
structure LinearChain (chain : List HistoryEntry) : Prop where
  linked : chain.IsChain fun parent child =>
    child.previousResponseId = some parent.responseId
  ids : (chain.map HistoryEntry.responseId).Nodup
  start : ∀ first ∈ chain.head?, ∀ parent ∈ chain,
    first.previousResponseId ≠ some parent.responseId

/-- The exchange was made on the route. -/
def onRoute (routeId : String) (entry : HistoryEntry) : Bool :=
  entry.routeId = routeId

namespace LinearChain

variable {chain : List HistoryEntry}

variable {before after : List HistoryEntry} {entry : HistoryEntry}

/-- What continues an exchange stands right after it. -/
theorem next_of_continues (hlinear : LinearChain chain) {child : HistoryEntry}
    (hsplit : chain = before ++ entry :: after) (hchild : child ∈ chain)
    (hcontinues : child.previousResponseId = some entry.responseId) :
    after.head? = some child := by
  have hentry : entry ∈ chain := by
    rw [hsplit]
    exact mem_append_right _ mem_cons_self
  obtain ⟨front, back, hplace⟩ := append_of_mem hchild
  rcases eq_nil_or_concat front with rfl | ⟨rest, parent, rfl⟩
  · have hfirst : child ∈ chain.head? := by
      rw [hplace]
      exact Option.mem_def.mpr rfl
    exact absurd hcontinues (hlinear.start child hfirst entry hentry)
  · have hparent : chain = rest ++ parent :: child :: back := by
      rw [hplace, concat_eq_append, append_assoc]
      rfl
    have hlinked := hlinear.linked
    rw [hparent, isChain_append_cons_cons] at hlinked
    have hid := hlinked.2.1.symm.trans hcontinues
    have hsame : parent = entry := by
      refine inj_on_of_nodup_map hlinear.ids ?_ hentry
        (Option.some.inj hid)
      rw [hparent]
      exact mem_append_right _ mem_cons_self
    have hnodup : (before ++ entry :: after).Nodup :=
      hsplit ▸ List.Nodup.of_map _ hlinear.ids
    have hnot := (nodup_middle.mp hnodup).notMem
    rw [mem_append, not_or] at hnot
    rw [hsame, hsplit] at hparent
    have hboth :=
      (append_cons_inj_of_notMem hnot.1 hnot.2).mp hparent
    rw [hboth.2.2]
    rfl

theorem continues_of_next (hlinear : LinearChain chain) {child : HistoryEntry}
    (hsplit : chain = before ++ entry :: after)
    (hnext : after.head? = some child) :
    child ∈ chain ∧ child.previousResponseId = some entry.responseId := by
  obtain ⟨back, rfl⟩ := head?_eq_some_iff.mp hnext
  have hlinked := hlinear.linked
  rw [hsplit, isChain_append_cons_cons] at hlinked
  refine ⟨?_, hlinked.2.1⟩
  rw [hsplit]
  simp

theorem leaf_iff_end (hlinear : LinearChain chain) (routeId : String)
    (hsplit : chain = before ++ entry :: after) :
    entry.responseId ∉ (chain.filter (onRoute routeId)).filterMap
        HistoryEntry.previousResponseId ↔
      after.head?.any (onRoute routeId) = false := by
  rw [← Bool.not_eq_true, not_iff_not, mem_filterMap, Option.any_eq_true]
  constructor
  · rintro ⟨child, hchild, hcontinues⟩
    obtain ⟨hmem, hroute⟩ := mem_filter.mp hchild
    exact ⟨child, hlinear.next_of_continues hsplit hmem hcontinues, hroute⟩
  · rintro ⟨child, hnext, hroute⟩
    obtain ⟨hmem, hcontinues⟩ := hlinear.continues_of_next hsplit hnext
    exact ⟨child, mem_filter.mpr ⟨hmem, hroute⟩, hcontinues⟩

theorem leaves_eq_runEnds (hlinear : LinearChain chain) (routeId : String) :
    leaves (chain.filter (onRoute routeId)) =
      (runEnds (onRoute routeId) chain).map HistoryEntry.responseId := by
  rw [leaves, filter_filter]
  congr 1
  refine (runEnds_eq_filter ?_).symm
  intro before entry after hsplit
  have hleaf := hlinear.leaf_iff_end routeId hsplit
  rw [Bool.and_comm]
  congr 1
  cases hend : after.head?.any (onRoute routeId) with
  | false => exact decide_eq_true (hleaf.mpr hend)
  | true =>
    apply decide_eq_false
    intro hmem
    rw [hleaf.mp hmem] at hend
    cases hend

end LinearChain

/-- The exchanges of a conversation form one linear chain. -/
structure RecordedChain (store : FileHistoryStore) (conversationKey : String)
    (chain : List HistoryEntry) : Prop where
  linear : LinearChain chain
  exchanges :
    (matching store.entries store.conversationKeys conversationKey none).Perm
      chain

/-- The chain that ends at the newest exchange made on the route. -/
def newestChain (store : FileHistoryStore) (routeId : String)
    (chain : List HistoryEntry) : List HistoryEntry :=
  match (chain.filter (onRoute routeId)).getLast? with
  | none => []
  | some newest => store.getChain newest.responseId

namespace RecordedChain

variable {store : FileHistoryStore} {conversationKey : String}
  {chain : List HistoryEntry}

section

variable (hrecorded : RecordedChain store conversationKey chain)
include hrecorded

theorem matching_route (routeId : String) :
    (matching store.entries store.conversationKeys conversationKey
      (some routeId)).Perm (chain.filter (onRoute routeId)) := by
  have hroute : matching store.entries store.conversationKeys conversationKey
      (some routeId) =
      (matching store.entries store.conversationKeys conversationKey
        none).filter (onRoute routeId) := by
    rw [matching, matching, filter_filter]
    apply filter_congr
    intro entry _
    simp [onRoute, Bool.and_comm]
  rw [hroute]
  exact hrecorded.exchanges.filter _

theorem leaves_route (routeId : String) :
    (leaves (matching store.entries store.conversationKeys conversationKey
      (some routeId))).Perm
      ((runEnds (onRoute routeId) chain).map HistoryEntry.responseId) := by
  rw [← hrecorded.linear.leaves_eq_runEnds routeId]
  exact leaves_perm (hrecorded.matching_route routeId)

theorem matching_isEmpty (routeId : String) :
    (matching store.entries store.conversationKeys conversationKey
      (some routeId)).isEmpty = (runEnds (onRoute routeId) chain).isEmpty := by
  rw [(hrecorded.matching_route routeId).isEmpty_eq, Bool.eq_iff_iff,
    List.isEmpty_iff, List.isEmpty_iff, runEnds_eq_nil_iff,
    filter_eq_nil_iff]

theorem lookup_of_no_run {routeId : String}
    (hends : runEnds (onRoute routeId) chain = []) :
    conversationLeafLookup store.entries store.conversationKeys
      conversationKey (some routeId) = .missing := by
  rw [conversationLeafLookup, hrecorded.matching_isEmpty routeId, hends]
  rfl

theorem lookup_of_one_run {routeId : String} {newest : HistoryEntry}
    (hends : runEnds (onRoute routeId) chain = [newest]) :
    conversationLeafLookup store.entries store.conversationKeys
      conversationKey (some routeId) = .unique newest.responseId := by
  rw [conversationLeafLookup, hrecorded.matching_isEmpty routeId,
    mergeSort_eq_of_perm (hrecorded.leaves_route routeId), hends,
    map_singleton, mergeSort_singleton]
  rfl

/-- Every run of the route gives a leaf of its own. -/
theorem lookup_of_more_runs {routeId : String}
    (hlength : 1 < (runEnds (onRoute routeId) chain).length) :
    ∃ leaves, conversationLeafLookup store.entries store.conversationKeys
      conversationKey (some routeId) = .ambiguous leaves := by
  have hsome : (runEnds (onRoute routeId) chain).isEmpty = false := by
    rw [isEmpty_eq_false_iff]
    exact ne_nil_of_length_pos (by omega)
  have hsorted := (mergeSort_perm
    ((runEnds (onRoute routeId) chain).map HistoryEntry.responseId)
    fun left right => decide (left ≤ right)).length_eq
  rw [length_map] at hsorted
  rw [conversationLeafLookup, hrecorded.matching_isEmpty routeId, hsome,
    mergeSort_eq_of_perm (hrecorded.leaves_route routeId),
    if_neg Bool.false_ne_true]
  split
  · rename_i hnil
    rw [hnil, length_nil] at hsorted
    omega
  · rename_i hone
    rw [hone, length_singleton] at hsorted
    omega
  · exact ⟨_, rfl⟩

end

/-- The lookup finds the chain up to the newest exchange of the route exactly
if the exchanges of the route stand side by side. -/
theorem latestChain_eq_iff
    (hrecorded : RecordedChain store conversationKey chain)
    (routeId : String) :
    store.latestChainForConversation conversationKey (some routeId) =
        .ok (newestChain store routeId chain) ↔
      OneRun (onRoute routeId) chain := by
  rw [FileHistoryStore.latestChainForConversation, chainForConversationLeaf,
    newestChain, ← getLast?_runEnds, ← length_runEnds_le_one_iff]
  cases hends : runEnds (onRoute routeId) chain with
  | nil =>
    rw [hrecorded.lookup_of_no_run hends]
    exact iff_of_true rfl (Nat.zero_le 1)
  | cons first more =>
    cases more with
    | nil =>
      rw [hrecorded.lookup_of_one_run hends]
      exact iff_of_true rfl (Nat.le_refl 1)
    | cons second more =>
      have hlength : 1 < (runEnds (onRoute routeId) chain).length := by
        simp [hends]
      obtain ⟨leaves, hambiguous⟩ := hrecorded.lookup_of_more_runs hlength
      rw [hambiguous]
      refine iff_of_false ?_ (by simp)
      rintro ⟨⟩

end RecordedChain

/-- A turn of a conversation. -/
def turn (responseId : String) (previousResponseId : Option String)
    (routeId : String) : HistoryEntry where
  responseId := responseId
  previousResponseId := previousResponseId
  routeId := routeId
  continuationRealm := none
  inputItems := []
  outputItems := []
  createdAt := 0

/-- Three turns, each on a route of its own choice. -/
def threeTurns (first second third : String) : List HistoryEntry :=
  [turn "resp_1" none first, turn "resp_2" (some "resp_1") second,
    turn "resp_3" (some "resp_2") third]

def threeTurnStore (first second third : String) : FileHistoryStore where
  entries := ⟨threeTurns first second third, by simp [threeTurns, turn]⟩
  conversationKeys :=
    ⟨[("resp_1", "key"), ("resp_2", "key"), ("resp_3", "key")], by decide⟩

theorem recordedChain_threeTurns (first second third : String) :
    RecordedChain (threeTurnStore first second third) "key"
      (threeTurns first second third) where
  linear :=
    { linked := by simp [threeTurns, turn]
      ids := by simp [threeTurns, turn]
      start := by simp [threeTurns, turn] }
  exchanges := List.Perm.refl _

theorem latestChain_eq_iff_two_runs :
    (threeTurnStore "a" "a" "b").latestChainForConversation "key" (some "a") =
        .ok (newestChain (threeTurnStore "a" "a" "b") "a"
          (threeTurns "a" "a" "b")) ↔
      OneRun (onRoute "a") (threeTurns "a" "a" "b") :=
  (recordedChain_threeTurns "a" "a" "b").latestChain_eq_iff "a"

/-- The route of the first turn comes back after a turn on another route. -/
theorem returning_route_is_ambiguous :
    ¬ ∀ store conversationKey chain,
      RecordedChain store conversationKey chain → ∀ routeId,
        store.latestChainForConversation conversationKey (some routeId) =
          .ok (newestChain store routeId chain) := by
  intro hclaim
  have hrecorded := recordedChain_threeTurns "a" "b" "a"
  have hok := hclaim _ _ _ hrecorded "a"
  have hlength :
      1 < (runEnds (onRoute "a") (threeTurns "a" "b" "a")).length := by
    decide
  obtain ⟨leaves, hambiguous⟩ := hrecorded.lookup_of_more_runs hlength
  rw [FileHistoryStore.latestChainForConversation, chainForConversationLeaf,
    hambiguous] at hok
  cases hok

end Vellum.Proxy

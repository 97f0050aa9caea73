/-
The budget of a local compaction (`codex_local_v0_150.rs`).  A message that is
cut keeps almost as many bytes as are left of the budget, and the marker comes
on top of them; so the kept messages stay within the budget exactly if none of
them is cut.
-/
import Vellum.Proxy.CodexLocalCompact

namespace Vellum.Proxy

open List Utf8Slice

/-- What the loop of `split_string` leaves out: no more than a character at
either side of the middle that it skips. -/
structure ScannedTightly (beginningBytes tailStartTarget len : Nat)
    (done : List Char) (scan : SplitScan) : Prop where
  front : scan.prefixEnd ≤ beginningBytes
  frontFull : byteLen done = scan.prefixEnd ∧ scan.suffixStarted = false ∨
    beginningBytes < scan.prefixEnd + 4
  skipped : scan.suffixStarted = false → byteLen done = scan.prefixEnd ∨
    byteLen done < tailStartTarget + 4
  back : scan.suffixStarted = true → scan.suffixStart = scan.prefixEnd ∨
    scan.suffixStart < tailStartTarget + 4
  unstarted : scan.suffixStarted = false → scan.suffixStart = len
  past : scan.suffixStarted = true → beginningBytes < byteLen done

theorem scannedTightly_visit {beginningBytes tailStartTarget len : Nat}
    (done : List Char) (c : Char) (scan : SplitScan)
    (htight : ScannedTightly beginningBytes tailStartTarget len done scan) :
    ScannedTightly beginningBytes tailStartTarget len (done ++ [c])
      (scan.visit beginningBytes tailStartTarget (byteLen done, c)) := by
  have hgrow : byteLen (done ++ [c]) = byteLen done + c.utf8Size := by
    rw [byteLen_append, byteLen_singleton]
  have hsize := c.utf8Size_le_four
  have hpos := c.utf8Size_pos
  obtain ⟨hfront, hfull, hskipped, hback, hunstarted, hpast⟩ := htight
  rw [SplitScan.visit]
  dsimp only
  split
  · rename_i hfits
    -- the front still grows, so the end has not started
    have hnot : scan.suffixStarted = false := by
      rw [Bool.eq_false_iff]
      intro hstarted
      have := hpast hstarted
      omega
    exact ⟨hfits, .inl ⟨hgrow, hnot⟩, fun _ => .inl hgrow,
      fun hstarted => absurd hstarted (by simp [hnot]), hunstarted,
      fun hstarted => absurd hstarted (by simp [hnot])⟩
  · rename_i hover
    have hbelow : beginningBytes < scan.prefixEnd + 4 := by
      rcases hfull with ⟨hsame, -⟩ | hbelow
      · omega
      · exact hbelow
    split
    · split
      · rename_i hstarted
        exact ⟨hfront, .inr hbelow,
          fun hnot => absurd hstarted (by simp [hnot]), hback, hunstarted,
          fun _ => by omega⟩
      · rename_i hnot
        rw [Bool.not_eq_true] at hnot
        exact ⟨hfront, .inr hbelow, fun hno => absurd hno (by simp),
          fun _ => hskipped hnot, fun hno => absurd hno (by simp),
          fun _ => by omega⟩
    · rename_i htarget
      exact ⟨hfront, .inr hbelow, fun _ => .inr (by omega), hback, hunstarted,
        fun _ => by omega⟩

/-- The front and the end that are kept fill their budgets, up to a part of a
character each. -/
theorem splitString_tight {s left right : List Char}
    {beginningBytes endBytes removed : Nat}
    (hsplit : splitString s beginningBytes endBytes =
      some (removed, left, right))
    (hlarge : beginningBytes + endBytes < byteLen s) :
    beginningBytes ≤ byteLen left + 3 ∧ endBytes ≤ byteLen right + 3 := by
  have hne : s ≠ [] := by
    rintro rfl
    exact absurd hlarge (Nat.not_lt_zero _)
  rw [splitString, if_neg hne] at hsplit
  dsimp only at hsplit
  have htight : ScannedTightly beginningBytes (byteLen s - endBytes) (byteLen s)
      ([] ++ s) ((charIndices (byteLen []) s).foldl
        (SplitScan.visit beginningBytes (byteLen s - endBytes))
        ⟨0, 0, byteLen s, false⟩) := by
    apply foldl_charIndices scannedTightly_visit
    exact ⟨Nat.zero_le _, .inl ⟨rfl, rfl⟩, fun _ => .inl rfl,
      fun hstarted => absurd hstarted (by simp), fun _ => rfl,
      fun hstarted => absurd hstarted (by simp)⟩
  rw [nil_append, byteLen] at htight
  generalize hscan : (charIndices 0 s).foldl _ _ = scan at hsplit htight
  obtain ⟨front, hleft, hsplit⟩ := Option.bind_eq_some_iff.mp hsplit
  obtain ⟨back, hright, heq⟩ := Option.map_eq_some_iff.mp hsplit
  cases heq
  have hfrontLen := byteLen_of_sliceTo hleft
  have hbackLen := byteLen_of_sliceFrom hright
  obtain ⟨hfront, hfull, hskipped, hback, hunstarted, -⟩ := htight
  constructor
  · omega
  · cases hstarted : scan.suffixStarted with
    | true =>
      have hstart := hback hstarted
      split at hbackLen <;> omega
    | false =>
      have hstart := hunstarted hstarted
      have hend := hskipped hstarted
      split at hbackLen <;> omega

/-- The marker has more bytes than the parts of characters that are left out
around it. -/
theorem byteLen_truncationMarker (removed : Nat) :
    6 < byteLen (truncationMarker removed) := by
  have hwords : byteLen " tokens truncated…".toList = 20 := by decide
  rw [truncationMarker, byteLen, byteLen_append, hwords]
  omega

/-- A message that is cut takes more tokens than were left for it. -/
theorem lt_approxTokenCount_of_truncate {s text : String} {maxTokens : Nat}
    (hlarge : maxTokens < approxTokenCount s)
    (htruncate : truncateTextTokens s maxTokens = some text) :
    maxTokens < approxTokenCount text := by
  have hbytes := approxBytesForTokens_lt hlarge
  have hbudget : approxBytesForTokens maxTokens = 4 * maxTokens := by
    simp only [approxTokenCount, approxTokensFromByteCount, saturatingAdd,
      usizeMax, approxBytesPerToken] at hlarge
    simp only [approxBytesForTokens, saturatingMul, usizeMax,
      approxBytesPerToken]
    omega
  have hcount : ∀ other : String, 4 * maxTokens < byteLen other.toList →
      maxTokens < approxTokenCount other := by
    intro other hother
    simp only [approxTokenCount, approxTokensFromByteCount, saturatingAdd,
      usizeMax, approxBytesPerToken] at hlarge ⊢
    omega
  have hne : s.toList ≠ [] := by
    intro hempty
    rw [hempty, byteLen] at hbytes
    exact Nat.not_lt_zero _ hbytes
  apply hcount
  rw [truncateTextTokens, if_neg hne,
    if_neg fun hfits => Nat.not_le_of_lt hbytes hfits.2,
    truncateWithTokenEstimate, if_neg hne] at htruncate
  split at htruncate
  · rename_i hzero
    cases htruncate
    have hmarker := byteLen_truncationMarker
      (approxTokensFromByteCount (byteLen s.toList))
    rw [String.toList_ofList]
    omega
  · rw [if_neg (Nat.not_le_of_lt hbytes)] at htruncate
    obtain ⟨out, hout, rfl⟩ := Option.map_eq_some_iff.mp htruncate
    obtain ⟨⟨removed, left, right⟩, hsplit, rfl⟩ :=
      Option.map_eq_some_iff.mp hout
    have htight := splitString_tight hsplit (by omega)
    have hmarker := byteLen_truncationMarker (approxTokensFromByteCount
      (byteLen s.toList - approxBytesForTokens maxTokens))
    rw [String.toList_ofList, byteLen_append, byteLen_append]
    omega

/-- Every message that comes while something is left of the budget fits what
is left. -/
def NewestFit (messages : List String) (maxTokens : Nat) : Prop :=
  ∀ older message newer, messages = older ++ message :: newer →
    spentTokens newer < maxTokens →
    spentTokens newer + approxTokenCount message ≤ maxTokens

theorem spentTokens_cons (text : String) (texts : List String) :
    spentTokens (text :: texts) = approxTokenCount text + spentTokens texts :=
  rfl

theorem newestFit_append {messages : List String} {message : String}
    {maxTokens : Nat} (hfits : approxTokenCount message ≤ maxTokens) :
    NewestFit (messages ++ [message]) maxTokens ↔
      NewestFit messages (maxTokens - approxTokenCount message) := by
  have hspent : ∀ newer, spentTokens (newer ++ [message]) =
      spentTokens newer + approxTokenCount message := by
    intro newer
    simp [spentTokens]
  constructor
  · rintro hall older other newer rfl hleft
    have := hall older other (newer ++ [message]) (by simp)
      (by rw [hspent]; omega)
    rw [hspent] at this
    omega
  · intro hall older other newer heq hleft
    rcases eq_nil_or_concat' newer with rfl | ⟨newer, last, rfl⟩
    · obtain ⟨-, hlast⟩ := append_inj' heq rfl
      cases hlast
      rwa [spentTokens, map_nil, sum_nil, Nat.zero_add]
    · rw [← cons_append, ← append_assoc] at heq
      obtain ⟨hmessages, hlast⟩ := append_inj' heq rfl
      cases hlast
      rw [hspent] at hleft ⊢
      have := hall older other newer hmessages (by omega)
      omega

/-- The selection stays within the budget exactly if no message is cut. -/
theorem spentTokens_selectNewest (remaining : Nat)
    (newestFirst : List CompactedUserMessage) :
    ∃ selected, selectNewest remaining newestFirst = some selected ∧
      (spentTokens (selected.map CompactedUserMessage.message) ≤ remaining ↔
        NewestFit (newestFirst.map CompactedUserMessage.message).reverse
          remaining) := by
  induction newestFirst generalizing remaining with
  | nil =>
    refine ⟨[], rfl, iff_of_true (Nat.zero_le _) ?_⟩
    intro older message newer heq
    cases older <;> cases heq
  | cons message older ih =>
    rw [selectNewest, map_cons, reverse_cons]
    by_cases hzero : remaining = 0
    · rw [if_pos hzero]
      refine ⟨[], rfl, iff_of_true (Nat.zero_le _) ?_⟩
      intro _ _ newer _ hleft
      rw [hzero] at hleft
      exact absurd hleft (Nat.not_lt_zero _)
    · rw [if_neg hzero]
      by_cases hfits : approxTokenCount message.message ≤ remaining
      · obtain ⟨selected, hselected, hiff⟩ :=
          ih (remaining - approxTokenCount message.message)
        rw [if_pos hfits, newestFit_append hfits, ← hiff, hselected]
        refine ⟨message :: selected, rfl, ?_⟩
        rw [map_cons, spentTokens_cons]
        omega
      · obtain ⟨text, htext, -⟩ :=
          truncateTextTokens_spec (Nat.lt_of_not_le hfits)
        rw [if_neg hfits, htext]
        refine ⟨[⟨text⟩], rfl, iff_of_false ?_ ?_⟩
        · have := lt_approxTokenCount_of_truncate (Nat.lt_of_not_le hfits)
            htext
          rw [map_singleton, spentTokens_cons]
          exact Nat.not_le_of_lt (Nat.lt_add_right _ this)
        · intro hall
          have := hall _ message.message [] rfl (Nat.pos_of_ne_zero hzero)
          rw [spentTokens, map_nil, sum_nil] at this
          omega

/-- The kept user messages stay within the budget exactly if none is cut. -/
theorem compacted_within_budget_iff (messages : List CompactedUserMessage)
    (summary : String) (maxTokens : Nat) :
    ∃ texts : List String,
      buildCompactedHistoryWithLimit messages summary maxTokens =
        some (texts.map userItem ++ [summaryItem summary]) ∧
      ((texts.map approxTokenCount).sum ≤ maxTokens ↔
        NewestFit (messages.map CompactedUserMessage.message) maxTokens) := by
  rw [buildCompactedHistoryWithLimit]
  by_cases hpos : 0 < maxTokens
  · obtain ⟨selected, hselected, hiff⟩ :=
      spentTokens_selectNewest maxTokens messages.reverse
    rw [if_pos hpos, hselected]
    refine ⟨(selected.map CompactedUserMessage.message).reverse, ?_, ?_⟩
    · simp [map_reverse, Function.comp_def]
    · rw [map_reverse, reverse_reverse] at hiff
      rw [← hiff, map_reverse, sum_reverse, spentTokens]
  · rw [if_neg hpos]
    refine ⟨[], rfl, iff_of_true (Nat.zero_le _) ?_⟩
    intro _ _ newer _ hleft
    omega

/-- Five bytes are cut to one token, and the marker alone has more. -/
theorem cut_message_exceeds_budget :
    ¬ ∀ (messages : List CompactedUserMessage) (summary : String)
      (maxTokens : Nat) (texts : List String),
      buildCompactedHistoryWithLimit messages summary maxTokens =
        some (texts.map userItem ++ [summaryItem summary]) →
      (texts.map approxTokenCount).sum ≤ maxTokens := by
  intro hall
  have hbound := hall [⟨"abcde"⟩] "" 1 ["ab…1 tokens truncated…de"] (by decide)
  exact absurd hbound (by decide)

end Vellum.Proxy

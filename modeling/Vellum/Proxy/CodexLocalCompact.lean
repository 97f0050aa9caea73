/-
Local compaction of a conversation (`codex_local_v0_150.rs`).  The newest user
messages that fit a token budget are kept, the first that does not fit is cut
in its middle, and a summary is put last.  The replacement is the start of the
next conversation, so a summary must be told from the messages by its text, and
a message that was cut may be cut again.
-/
import Vellum.Library.Utf8Slice
import Vellum.Library.KeptSuffix
import Vellum.Proxy.ToolContext

namespace Vellum.Proxy

open List Option Utf8Slice

/-- The arithmetic of `usize` that saturates. -/
def usizeMax : Nat := 2 ^ 64 - 1

def saturatingAdd (left right : Nat) : Nat := min (left + right) usizeMax

def saturatingMul (left right : Nat) : Nat := min (left * right) usizeMax

/-! The classification of items (`compaction.rs`). -/

def officialSummaryPrefix : String :=
  "Another language model started to solve this problem and " ++
  "produced a summary of its thinking process. You also have " ++
  "access to the state of the tools that were used by that " ++
  "language model. Use this to build on the work that has " ++
  "already been done and avoid duplicating work. Here is the " ++
  "summary produced by the other language model, use the " ++
  "information in this summary to assist with your own analysis:"

inductive ItemRole where
  | system
  | user
  | assistant
  | tool
  | other
deriving DecidableEq

def classifyItem (item : Json) : ItemRole :=
  match (item.get "type").bind Json.asStr, (item.get "role").bind Json.asStr with
  | some "system", _ | _, some "system" => .system
  | some "developer", _ | _, some "developer" => .system
  | _, some "user" => .user
  | _, some "assistant" => .assistant
  | some "function_call", _ | some "local_shell_call", _ => .assistant
  | some "function_call_output", _ | some "local_shell_call_output", _ => .tool
  | _, _ => .other

def partText (part : Json) : Option String :=
  ((part.get "text").bind Json.asStr).or ((part.get "content").bind Json.asStr)

def itemText (item : Json) : Option String :=
  match item.get "content" with
  | some (.str text) => some text
  | some (.arr parts) => some (String.ofList
      (Text.joinLines ((parts.filterMap partText).map String.toList)))
  | _ => none

def isSummaryItem (item : Json) : Bool :=
  (item.get "role").bind Json.asStr = some "user" &&
    (itemText item).any fun text => startsWith text officialSummaryPrefix

/-! The budget. -/

def compactUserMessageMaxTokens : Nat := 20000

def approxBytesPerToken : Nat := 4

/-- Four bytes a token, rounded up. -/
def approxTokensFromByteCount (bytes : Nat) : Nat :=
  saturatingAdd bytes (approxBytesPerToken - 1) / approxBytesPerToken

def approxTokenCount (text : String) : Nat :=
  approxTokensFromByteCount (byteLen text.toList)

def approxBytesForTokens (tokens : Nat) : Nat :=
  saturatingMul tokens approxBytesPerToken

def splitBudget (budget : Nat) : Nat × Nat :=
  (budget / 2, budget - budget / 2)

/-- The loop variables of `split_string`. -/
structure SplitScan where
  removedChars : Nat
  prefixEnd : Nat
  suffixStart : Nat
  suffixStarted : Bool

def SplitScan.visit (beginningBytes tailStartTarget : Nat) (scan : SplitScan)
    (entry : Nat × Char) : SplitScan :=
  let charEnd := entry.1 + entry.2.utf8Size
  if charEnd ≤ beginningBytes then { scan with prefixEnd := charEnd }
  else if tailStartTarget ≤ entry.1 then
    if scan.suffixStarted then scan
    else { scan with suffixStart := entry.1, suffixStarted := true }
  else { scan with removedChars := saturatingAdd scan.removedChars 1 }

/-- `split_string`; `none` where a slice would panic. -/
def splitString (s : List Char) (beginningBytes endBytes : Nat) :
    Option (Nat × List Char × List Char) :=
  if s = [] then some (0, [], [])
  else
    let len := byteLen s
    let scan := (charIndices 0 s).foldl
      (SplitScan.visit beginningBytes (len - endBytes)) ⟨0, 0, len, false⟩
    let suffixStart :=
      if scan.suffixStart < scan.prefixEnd then scan.prefixEnd
      else scan.suffixStart
    (sliceTo scan.prefixEnd s).bind fun left =>
      (sliceFrom suffixStart s).map fun right =>
        (scan.removedChars, left, right)

/-- `format!("…{removed} tokens truncated…")`. -/
def truncationMarker (removed : Nat) : List Char :=
  '…' :: ((toString removed).toList ++ " tokens truncated…".toList)

def truncateWithTokenEstimate (s : List Char) (maxBytes : Nat) :
    Option (List Char) :=
  if s = [] then some []
  else if maxBytes = 0 then
    some (truncationMarker (approxTokensFromByteCount (byteLen s)))
  else if byteLen s ≤ maxBytes then some s
  else
    let (leftBudget, rightBudget) := splitBudget maxBytes
    (splitString s leftBudget rightBudget).map fun (_, left, right) =>
      left ++ truncationMarker
        (approxTokensFromByteCount (byteLen s - maxBytes)) ++ right

def truncateTextTokens (s : String) (maxTokens : Nat) : Option String :=
  if s.toList = [] then some ""
  else if 0 < maxTokens ∧ byteLen s.toList ≤ approxBytesForTokens maxTokens then
    some s
  else
    (truncateWithTokenEstimate s.toList (approxBytesForTokens maxTokens)).map
      String.ofList

/-- What the loop of `split_string` has made of the text it has read: a front
within the first budget, a middle it skips, and an end that starts at or behind
the target. -/
def Scanned (beginningBytes tailStartTarget len : Nat) (done : List Char)
    (scan : SplitScan) : Prop :=
  ∃ left middle right, done = left ++ middle ++ right ∧
    scan.prefixEnd = byteLen left ∧ byteLen left ≤ beginningBytes ∧
    (middle ++ right ≠ [] → beginningBytes < byteLen done) ∧
    (right = [] ∧ scan.suffixStarted = false ∧ scan.suffixStart = len ∨
      right ≠ [] ∧ scan.suffixStarted = true ∧
        scan.suffixStart = byteLen (left ++ middle) ∧
        tailStartTarget ≤ scan.suffixStart)

theorem scanned_visit {beginningBytes tailStartTarget len : Nat}
    (done : List Char) (c : Char) (scan : SplitScan)
    (hscanned : Scanned beginningBytes tailStartTarget len done scan) :
    Scanned beginningBytes tailStartTarget len (done ++ [c])
      (scan.visit beginningBytes tailStartTarget (byteLen done, c)) := by
  obtain ⟨left, middle, right, hdone, hprefix, hleft, hbehind, hright⟩ :=
    hscanned
  have hgrow : byteLen (done ++ [c]) = byteLen done + c.utf8Size := by
    rw [byteLen_append, byteLen_singleton]
  have hpos := c.utf8Size_pos
  unfold SplitScan.visit
  simp only
  split
  · -- the front is still growing, so nothing was skipped yet
    rename_i hfits
    have hempty : middle ++ right = [] := by
      by_contra hne
      have := hbehind hne
      omega
    obtain ⟨rfl, rfl⟩ := append_eq_nil_iff.mp hempty
    rw [append_nil, append_nil] at hdone
    subst hdone
    refine ⟨done ++ [c], [], [], by simp, hgrow.symm, hgrow ▸ hfits,
      fun hne => absurd rfl hne, Or.inl ⟨rfl, ?_⟩⟩
    exact (hright.resolve_right fun hstarted => hstarted.1 rfl).2
  · rename_i hover
    have hpast : beginningBytes < byteLen (done ++ [c]) := by omega
    split
    · rename_i htarget
      rcases hright with ⟨rfl, hnot, -⟩ | ⟨hne, hstarted, hstart, hbound⟩
      · rw [append_nil] at hdone
        subst hdone
        rw [if_neg (by simp [hnot])]
        exact ⟨left, middle, [c], rfl, hprefix, hleft, fun _ => hpast,
          Or.inr ⟨by simp, rfl, rfl, htarget⟩⟩
      · rw [if_pos hstarted]
        refine ⟨left, middle, right ++ [c], ?_, hprefix, hleft,
          fun _ => hpast, Or.inr ⟨by simp, hstarted, hstart, hbound⟩⟩
        rw [hdone, append_assoc]
    · rename_i htarget
      rcases hright with ⟨rfl, hnot, hlen⟩ | ⟨-, -, hstart, hbound⟩
      · rw [append_nil] at hdone
        subst hdone
        exact ⟨left, middle ++ [c], [], by simp, hprefix, hleft,
          fun _ => hpast, Or.inl ⟨rfl, hnot, hlen⟩⟩
      · -- once the end has started, every character is behind the target
        rw [hstart] at hbound
        rw [hdone, byteLen_append] at htarget
        omega

/-- The split slices on boundaries, and cuts the text in three: a front and an
end within their budgets and what is between them. -/
theorem splitString_spec (s : List Char) (beginningBytes endBytes : Nat) :
    ∃ removed left middle right,
      splitString s beginningBytes endBytes = some (removed, left, right) ∧
      s = left ++ middle ++ right ∧ byteLen left ≤ beginningBytes ∧
      byteLen right ≤ endBytes := by
  unfold splitString
  by_cases hempty : s = []
  · rw [if_pos hempty]
    exact ⟨0, [], [], [], rfl, hempty, Nat.zero_le _, Nat.zero_le _⟩
  · rw [if_neg hempty]
    simp only
    have hscanned : Scanned beginningBytes (byteLen s - endBytes) (byteLen s)
        ([] ++ s) ((charIndices (byteLen []) s).foldl
          (SplitScan.visit beginningBytes (byteLen s - endBytes))
          ⟨0, 0, byteLen s, false⟩) := by
      apply foldl_charIndices scanned_visit
      exact ⟨[], [], [], rfl, rfl, Nat.zero_le _, fun hne => absurd rfl hne,
        Or.inl ⟨rfl, rfl, rfl⟩⟩
    rw [nil_append] at hscanned
    obtain ⟨left, middle, right, hsplit, hprefix, hleft, -, hright⟩ := hscanned
    generalize hscan : (charIndices (byteLen []) s).foldl _ _ = scan at *
    have hlen : byteLen s = byteLen (left ++ middle) + byteLen right := by
      rw [hsplit, byteLen_append]
    have hstart : scan.suffixStart = byteLen (left ++ middle) ∧
        byteLen right ≤ endBytes := by
      rcases hright with ⟨rfl, -, hend⟩ | ⟨hne, -, hstart, hbound⟩
      · rw [byteLen, Nat.add_zero] at hlen
        exact ⟨hend.trans hlen, Nat.zero_le _⟩
      · exact ⟨hstart, by omega⟩
    have hscan' : (charIndices 0 s).foldl
        (SplitScan.visit beginningBytes (byteLen s - endBytes))
        ⟨0, 0, byteLen s, false⟩ = scan := hscan
    have hordered : ¬ scan.suffixStart < scan.prefixEnd := by
      rw [hstart.1, hprefix, byteLen_append]
      omega
    refine ⟨scan.removedChars, left, middle, right, ?_, hsplit, hleft,
      hstart.2⟩
    rw [hscan', if_neg hordered, hprefix, hstart.1]
    have hfront : sliceTo (byteLen left) s = some left := by
      rw [hsplit, append_assoc]
      exact sliceTo_append left _
    have hend : sliceFrom (byteLen (left ++ middle)) s = some right := by
      rw [hsplit]
      exact sliceFrom_append _ right
    rw [hfront, hend]
    rfl

/-! The replacement history. -/

/-- The vendored template; it ends in no line feed. -/
def summaryPrefix : String := officialSummaryPrefix

/-- `text.trim_end_matches('\n')`. -/
def trimEndNewlines (text : String) : String :=
  String.ofList (text.toList.reverse.dropWhile (· = '\n')).reverse

def isSummaryMessage (message : String) : Bool :=
  startsWith message (trimEndNewlines summaryPrefix ++ "\n")

structure CompactedUserMessage where
  message : String
deriving DecidableEq

def compactedUserMessage (item : Json) : Option CompactedUserMessage :=
  if classifyItem item ≠ .user then none
  else if isSummaryItem item then none
  else
    (itemText item).bind fun message =>
      if isSummaryMessage message then none else some ⟨message⟩

def collectUserMessages (items : List Json) : List CompactedUserMessage :=
  items.filterMap compactedUserMessage

def summaryText (lastAssistantMessage : String) : String :=
  trimEndNewlines summaryPrefix ++ "\n" ++ lastAssistantMessage

/-- The user message both a kept message and the summary are written as. -/
def userItem (text : String) : Json :=
  .obj [("type", .str "message"), ("role", .str "user"),
    ("content", .arr [.obj [("type", .str "input_text"), ("text", .str text)]])]

def summaryItem (summaryText : String) : Json := userItem summaryText

/-- The selection, newest first. -/
def selectNewest : Nat → List CompactedUserMessage →
    Option (List CompactedUserMessage)
  | _, [] => some []
  | remaining, message :: older =>
    if remaining = 0 then some []
    else
      let tokens := approxTokenCount message.message
      if tokens ≤ remaining then
        (selectNewest (remaining - tokens) older).map (message :: ·)
      else
        (truncateTextTokens message.message remaining).map ([⟨·⟩])

def buildCompactedHistoryWithLimit (userMessages : List CompactedUserMessage)
    (summaryText : String) (maxTokens : Nat) : Option (List Json) :=
  (if 0 < maxTokens then
    (selectNewest maxTokens userMessages.reverse).map List.reverse
  else some []).map fun selected =>
    selected.map (fun message => userItem message.message) ++
      [summaryItem summaryText]

def buildCompactedHistory (userMessages : List CompactedUserMessage)
    (summaryText : String) : Option (List Json) :=
  buildCompactedHistoryWithLimit userMessages summaryText
    compactUserMessageMaxTokens

def buildReplacementItems (source : List Json)
    (lastAssistantMessage : String) : Option (List Json) :=
  buildCompactedHistory (collectUserMessages source)
    (summaryText lastAssistantMessage)

/-! One compaction. -/

/-- The text is the original with its middle replaced by the marker; front and
end are whole characters and fit the budget. -/
def Truncates (budget : Nat) (original text : String) : Prop :=
  ∃ left middle right, original.toList = left ++ middle ++ right ∧
    text.toList = left ++ truncationMarker
      (approxTokensFromByteCount (byteLen original.toList - budget)) ++ right ∧
    byteLen left + byteLen right ≤ budget

theorem approxBytesForTokens_lt {s : String} {tokens : Nat}
    (hlarge : tokens < approxTokenCount s) :
    approxBytesForTokens tokens < byteLen s.toList := by
  simp only [approxTokenCount, approxTokensFromByteCount, saturatingAdd,
    approxBytesPerToken] at hlarge
  simp only [approxBytesForTokens, saturatingMul, approxBytesPerToken]
  omega

variable {text : String} (lastAssistantMessage : String) {texts : List String}
  {maxTokens : Nat}

theorem truncateTextTokens_spec {s : String}
    (hlarge : maxTokens < approxTokenCount s) :
    ∃ text, truncateTextTokens s maxTokens = some text ∧
      Truncates (approxBytesForTokens maxTokens) s text := by
  have hbytes := approxBytesForTokens_lt hlarge
  have hne : s.toList ≠ [] := by
    intro hempty
    rw [hempty, byteLen] at hbytes
    exact Nat.not_lt_zero _ hbytes
  unfold truncateTextTokens truncateWithTokenEstimate
  rw [if_neg hne, if_neg (fun hfits => Nat.not_le_of_lt hbytes hfits.2),
    if_neg hne]
  by_cases hzero : approxBytesForTokens maxTokens = 0
  · rw [if_pos hzero]
    refine ⟨_, rfl, [], s.toList, [], by simp, ?_, Nat.zero_le _⟩
    rw [String.toList_ofList, hzero, Nat.sub_zero, nil_append,
      append_nil]
  · rw [if_neg hzero, if_neg (Nat.not_le_of_lt hbytes)]
    obtain ⟨removed, left, middle, right, hsplit, hs, hleft, hright⟩ :=
      splitString_spec s.toList (approxBytesForTokens maxTokens / 2)
        (approxBytesForTokens maxTokens - approxBytesForTokens maxTokens / 2)
    simp only [splitBudget, hsplit]
    refine ⟨_, rfl, left, middle, right, hs, ?_, by omega⟩
    rw [String.toList_ofList]

/-- The tokens a list of texts takes from the budget. -/
def spentTokens (texts : List String) : Nat :=
  (texts.map approxTokenCount).sum

/-- The texts are the newest messages that fit, unchanged, until the budget is
spent or no message is left; a message that does not fit what is left comes
before them, truncated to it. -/
def Selected (messages : List String) (maxTokens : Nat) (texts : List String) :
    Prop :=
  ∃ dropped kept, messages = dropped ++ kept ∧ spentTokens kept ≤ maxTokens ∧
    ((texts = kept ∧ (dropped = [] ∨ spentTokens kept = maxTokens)) ∨
      ∃ front oldest text, dropped = front ++ [oldest] ∧
        maxTokens - spentTokens kept < approxTokenCount oldest ∧
        texts = text :: kept ∧
        Truncates (approxBytesForTokens (maxTokens - spentTokens kept)) oldest
          text)

/-- The real user messages of a history. -/
def userMessages (items : List Json) : List String :=
  (collectUserMessages items).map CompactedUserMessage.message

theorem selectNewest_spec (remaining : Nat)
    (newestFirst : List CompactedUserMessage) :
    ∃ selected, selectNewest remaining newestFirst = some selected ∧
      Selected (newestFirst.map CompactedUserMessage.message).reverse remaining
        (selected.map CompactedUserMessage.message).reverse := by
  induction newestFirst generalizing remaining with
  | nil =>
    exact ⟨[], rfl, [], [], rfl, Nat.zero_le _, Or.inl ⟨rfl, Or.inl rfl⟩⟩
  | cons message older ih =>
    rw [selectNewest]
    by_cases hzero : remaining = 0
    · rw [if_pos hzero]
      exact ⟨[], rfl, _, [], (append_nil _).symm, Nat.zero_le _,
        Or.inl ⟨rfl, Or.inr hzero.symm⟩⟩
    · rw [if_neg hzero]
      simp only [map_cons, reverse_cons]
      by_cases hfits : approxTokenCount message.message ≤ remaining
      · rw [if_pos hfits]
        obtain ⟨selected, hselected, dropped, kept, hsplit, hspent, htexts⟩ :=
          ih (remaining - approxTokenCount message.message)
        have hsum : spentTokens (kept ++ [message.message]) =
            spentTokens kept + approxTokenCount message.message := by
          simp [spentTokens]
        refine ⟨message :: selected, by rw [hselected]; rfl, dropped,
          kept ++ [message.message], ?_, by omega, ?_⟩
        · rw [hsplit, append_assoc]
        · simp only [map_cons, reverse_cons]
          rcases htexts with
            ⟨heq, hend⟩ | ⟨front, oldest, text, hold, hover, heq, hcut⟩
          · refine Or.inl ⟨by rw [heq], hend.imp_right fun hspent => ?_⟩
            omega
          · have hleft : remaining - approxTokenCount message.message -
                spentTokens kept =
              remaining - spentTokens (kept ++ [message.message]) := by
              omega
            rw [hleft] at hover hcut
            exact Or.inr
              ⟨front, oldest, text, hold, hover, by rw [heq]; rfl, hcut⟩
      · rw [if_neg hfits]
        obtain ⟨text, htext, hcut⟩ :=
          truncateTextTokens_spec (Nat.lt_of_not_le hfits)
        refine ⟨[⟨text⟩], by rw [htext]; rfl, _, [],
          (append_nil _).symm, Nat.zero_le _, Or.inr ?_⟩
        exact ⟨_, message.message, text, rfl, Nat.lt_of_not_le hfits, rfl,
          hcut⟩

theorem buildCompactedHistoryWithLimit_spec
    (messages : List CompactedUserMessage) (summary : String)
    (maxTokens : Nat) :
    ∃ texts, buildCompactedHistoryWithLimit messages summary maxTokens =
        some (texts.map userItem ++ [summaryItem summary]) ∧
      Selected (messages.map CompactedUserMessage.message) maxTokens texts := by
  unfold buildCompactedHistoryWithLimit
  by_cases hpos : 0 < maxTokens
  · rw [if_pos hpos]
    obtain ⟨selected, hselected, hspec⟩ :=
      selectNewest_spec maxTokens messages.reverse
    refine ⟨(selected.map CompactedUserMessage.message).reverse, ?_, ?_⟩
    · rw [hselected]
      simp [map_reverse, Function.comp_def]
    · rw [map_reverse, reverse_reverse] at hspec
      exact hspec
  · rw [if_neg hpos]
    exact ⟨[], rfl, _, [], (append_nil _).symm, Nat.zero_le _,
      Or.inl ⟨rfl, Or.inr (Nat.eq_zero_of_not_pos hpos).symm⟩⟩

/-! Telling summaries from messages. -/

theorem startsWith_iff {front : String} :
    startsWith text front = true ↔ front.toList <+: text.toList :=
  List.isPrefixOf_iff_prefix

theorem plain_summaryPrefix :
    ∀ c ∈ officialSummaryPrefix.toList, c ≠ '\n' ∧ c ≠ '…' := by
  unfold officialSummaryPrefix
  simp only [String.toList_append, forall_mem_append]
  refine ⟨⟨⟨⟨⟨⟨?_, ?_⟩, ?_⟩, ?_⟩, ?_⟩, ?_⟩, ?_⟩ <;>
    exact forall_mem_toList rfl (by decide)

theorem trimEndNewlines_summaryPrefix :
    trimEndNewlines summaryPrefix = officialSummaryPrefix := by
  have hkept : officialSummaryPrefix.toList.reverse.dropWhile (· = '\n') =
      officialSummaryPrefix.toList.reverse := by
    cases hlast : officialSummaryPrefix.toList.reverse with
    | nil => rfl
    | cons last rest =>
      have hmem : last ∈ officialSummaryPrefix.toList := by
        rw [← mem_reverse, hlast]
        exact mem_cons_self
      exact dropWhile_cons_of_neg
        (by simpa using (plain_summaryPrefix last hmem).1)
  rw [trimEndNewlines, summaryPrefix, hkept, reverse_reverse,
    String.ofList_toList]

theorem ellipsis_notMem_summaryPrefix :
    '…' ∉ officialSummaryPrefix.toList :=
  fun hmem => (plain_summaryPrefix _ hmem).2 rfl

/-- The prefix of a summary has no ellipsis, so cutting a message does not make
one. -/
theorem startsWith_of_truncates {budget : Nat} {original : String}
    (hcut : Truncates budget original text)
    (hsummary : startsWith text officialSummaryPrefix = true) :
    startsWith original officialSummaryPrefix = true := by
  rw [startsWith_iff] at hsummary ⊢
  obtain ⟨left, middle, right, horiginal, htext, -⟩ := hcut
  have hleft : officialSummaryPrefix.toList <+: left := by
    rw [htext, append_assoc] at hsummary
    rcases prefix_or_prefix_of_prefix hsummary
      (prefix_append left _) with hshort | ⟨tail, htail⟩
    · exact hshort
    · rw [← htail, prefix_append_right_inj] at hsummary
      cases tail with
      | nil => exact ⟨[], by rw [append_nil, ← htail, append_nil]⟩
      | cons c rest =>
        obtain ⟨hc, -⟩ := cons_prefix_cons.mp hsummary
        subst hc
        exact absurd (htail ▸ mem_append_right left mem_cons_self)
          ellipsis_notMem_summaryPrefix
  rw [horiginal, append_assoc]
  exact hleft.trans (prefix_append left _)

theorem role_of_classifyItem {item : Json}
    (hclass : classifyItem item = .user) :
    (item.get "role").bind Json.asStr = some "user" := by
  unfold classifyItem at hclass
  split at hclass <;> first | assumption | cases hclass

@[simp]
theorem itemText_userItem (text : String) :
    itemText (userItem text) = some text := by
  have hparts : (Json.obj [("type", .str "message"), ("role", .str "user"),
      ("content", .arr [.obj [("type", .str "input_text"),
        ("text", .str text)]])]).get "content" =
      some (.arr [.obj [("type", .str "input_text"), ("text", .str text)]]) :=
    rfl
  rw [userItem, itemText, hparts]
  simp [partText, Json.get, Json.asStr, Text.joinLines]

theorem isSummaryItem_userItem (text : String) :
    isSummaryItem (userItem text) = startsWith text officialSummaryPrefix := by
  rw [isSummaryItem, itemText_userItem, any_some]
  exact Bool.true_and _

theorem isSummaryItem_summaryItem :
    isSummaryItem (summaryItem (summaryText lastAssistantMessage)) = true := by
  rw [summaryItem, isSummaryItem_userItem, startsWith_iff, summaryText,
    trimEndNewlines_summaryPrefix, String.toList_append, String.toList_append,
    append_assoc]
  exact prefix_append _ _

/-- A collected message is not the text of a summary. -/
theorem not_startsWith_of_mem {items : List Json}
    (hmem : text ∈ userMessages items) :
    startsWith text officialSummaryPrefix = false := by
  obtain ⟨message, hmessage, rfl⟩ := List.mem_map.mp hmem
  obtain ⟨item, -, hitem⟩ := mem_filterMap.mp hmessage
  unfold compactedUserMessage at hitem
  split at hitem
  · cases hitem
  · rename_i huser
    split at hitem
    · cases hitem
    · rename_i hnot
      obtain ⟨text, htext, hkeep⟩ := bind_eq_some_iff.mp hitem
      split at hkeep
      · cases hkeep
      · rw [← some.inj hkeep]
        rw [isSummaryItem, role_of_classifyItem (not_not.mp huser), htext,
          any_some] at hnot
        simpa using hnot

theorem not_isSummaryMessage
    (hreal : startsWith text officialSummaryPrefix = false) :
    isSummaryMessage text = false := by
  rw [isSummaryMessage, trimEndNewlines_summaryPrefix, Bool.eq_false_iff]
  intro hsummary
  rw [startsWith_iff, String.toList_append] at hsummary
  rw [Bool.eq_false_iff] at hreal
  exact hreal (startsWith_iff.mpr ((prefix_append _ _).trans hsummary))

theorem compactedUserMessage_userItem
    (hreal : startsWith text officialSummaryPrefix = false) :
    compactedUserMessage (userItem text) = some ⟨text⟩ := by
  have hclass : classifyItem (userItem text) = .user := rfl
  rw [compactedUserMessage, if_neg (not_not.mpr hclass),
    isSummaryItem_userItem, hreal, if_neg Bool.false_ne_true,
    itemText_userItem, bind_some, not_isSummaryMessage hreal,
    if_neg Bool.false_ne_true]

theorem compactedUserMessage_summaryItem :
    compactedUserMessage (summaryItem (summaryText lastAssistantMessage)) =
      none := by
  rw [compactedUserMessage, isSummaryItem_summaryItem]
  split <;> rfl

/-- The history starts with what a compaction wrote, and its real messages are
read back. -/
theorem userMessages_replacement
    (hreal : ∀ text ∈ texts, startsWith text officialSummaryPrefix = false)
    (lastAssistantMessage : String) (more : List Json) :
    userMessages (texts.map userItem ++
        [summaryItem (summaryText lastAssistantMessage)] ++ more) =
      texts ++ userMessages more := by
  have htexts : (texts.map userItem).filterMap compactedUserMessage =
      texts.map CompactedUserMessage.mk := by
    rw [filterMap_map, ← filterMap_eq_map]
    apply filterMap_congr
    intro text htext
    rw [Function.comp_apply, Function.comp_apply,
      compactedUserMessage_userItem (hreal text htext)]
  have hsummary : [summaryItem (summaryText lastAssistantMessage)].filterMap
      compactedUserMessage = [] := by
    rw [filterMap_cons, compactedUserMessage_summaryItem]
    rfl
  rw [userMessages, collectUserMessages, filterMap_append,
    filterMap_append, htexts, hsummary, append_nil, map_append,
    List.map_map]
  simp [userMessages, collectUserMessages, Function.comp_def]

theorem Selected.not_summary {messages : List String}
    (hselected : Selected messages maxTokens texts)
    (hreal : ∀ text ∈ messages, startsWith text officialSummaryPrefix = false) :
    ∀ text ∈ texts, startsWith text officialSummaryPrefix = false := by
  obtain ⟨dropped, kept, rfl, -, htexts⟩ := hselected
  have hkept : ∀ text ∈ kept,
      startsWith text officialSummaryPrefix = false :=
    fun text hmem => hreal text (mem_append_right _ hmem)
  rcases htexts with ⟨rfl, -⟩ | ⟨front, oldest, text, rfl, -, rfl, hcut⟩
  · exact hkept
  · intro found hfound
    rcases mem_cons.mp hfound with rfl | hmem
    · have holdest := hreal oldest (by simp)
      rw [Bool.eq_false_iff] at holdest ⊢
      exact fun hsummary => holdest (startsWith_of_truncates hcut hsummary)
    · exact hkept found hmem

/-! Successive compactions. -/

/-- A text cut once or more, each time to some budget. -/
def Shortens : String → String → Prop :=
  Relation.TransGen fun original text => ∃ budget, Truncates budget original text

theorem Selected.keptSuffix {messages : List String}
    (hselected : Selected messages maxTokens texts) :
    KeptSuffix Shortens messages texts := by
  obtain ⟨dropped, kept, hsplit, -, htexts⟩ := hselected
  refine ⟨dropped, kept, hsplit, htexts.imp And.left ?_⟩
  rintro ⟨front, oldest, text, hdropped, -, heq, hcut⟩
  exact ⟨front, oldest, text, hdropped, heq, Relation.TransGen.single ⟨_, hcut⟩⟩

/-- What is added to the history before a compaction, the summarizer's answer
and the budget of the compaction. -/
structure Round where
  newItems : List Json
  lastAssistantMessage : String
  maxTokens : Nat

/-- `build_replacement_items` with the budget of the round. -/
def compact (history : List Json) (round : Round) : Option (List Json) :=
  buildCompactedHistoryWithLimit
    (collectUserMessages (history ++ round.newItems))
    (summaryText round.lastAssistantMessage) round.maxTokens

theorem compact_of_max (history : List Json) {round : Round}
    (hmax : round.maxTokens = compactUserMessageMaxTokens) :
    compact history round = buildReplacementItems (history ++ round.newItems)
      round.lastAssistantMessage := by
  rw [compact, hmax]
  rfl

def compactions (history : List Json) (rounds : List Round) :
    Option (List Json) :=
  rounds.foldlM compact history

/-- The replacement is the selected texts as user messages, none of which reads
as a summary, and one summary behind them. -/
structure Replaces (source : List Json) (round : Round)
    (replacement : List Json) (texts : List String) : Prop where
  items : replacement = texts.map userItem ++
    [summaryItem (summaryText round.lastAssistantMessage)]
  summary : replacement.filter isSummaryItem =
    [summaryItem (summaryText round.lastAssistantMessage)]
  selected : Selected (userMessages source) round.maxTokens texts

theorem compact_spec (history : List Json) (round : Round) :
    ∃ replacement texts, compact history round = some replacement ∧
      Replaces (history ++ round.newItems) round replacement texts ∧
      ∀ text ∈ texts, startsWith text officialSummaryPrefix = false := by
  obtain ⟨texts, hbuild, hselected⟩ := buildCompactedHistoryWithLimit_spec
    (collectUserMessages (history ++ round.newItems))
    (summaryText round.lastAssistantMessage) round.maxTokens
  have hreal := hselected.not_summary fun _ hmem => not_startsWith_of_mem hmem
  refine ⟨_, texts, hbuild, ⟨rfl, ?_, hselected⟩, hreal⟩
  rw [filter_append, filter_cons_of_pos
    (isSummaryItem_summaryItem round.lastAssistantMessage), filter_nil,
    append_left_eq_self]
  rw [filter_eq_nil_iff]
  intro item hitem
  obtain ⟨text, htext, rfl⟩ := List.mem_map.mp hitem
  rw [isSummaryItem_userItem, hreal text htext]
  exact Bool.false_ne_true

/-- The real messages of all rounds. -/
def spokenMessages (source : List Json) (rounds : List Round) : List String :=
  userMessages (source ++ rounds.flatMap Round.newItems)

theorem userMessages_append (items more : List Json) :
    userMessages (items ++ more) = userMessages items ++ userMessages more := by
  simp [userMessages, collectUserMessages]

/-- After any rounds the history holds the newest messages of the whole
conversation, the oldest of them possibly shortened. -/
theorem compactions_keep (source : List Json) (rounds : List Round) :
    ∃ history, compactions source rounds = some history ∧
      ∀ more, KeptSuffix Shortens
        (spokenMessages source rounds ++ userMessages more)
        (userMessages (history ++ more)) := by
  induction rounds using reverseRecOn with
  | nil =>
    refine ⟨source, rfl, fun more => ?_⟩
    rw [userMessages_append, spokenMessages, flatMap_nil,
      append_nil]
    exact KeptSuffix.refl _
  | append_singleton rounds round ih =>
    obtain ⟨history, hhistory, hkept⟩ := ih
    obtain ⟨replacement, texts, hcompact, hreplaces, hreal⟩ :=
      compact_spec history round
    refine ⟨replacement, ?_, fun more => ?_⟩
    · rw [compactions, foldlM_append, ← compactions, hhistory]
      simp [hcompact]
    · have hspoken : spokenMessages source (rounds ++ [round]) =
          spokenMessages source rounds ++ userMessages round.newItems := by
        rw [spokenMessages, flatMap_append, ← append_assoc,
          userMessages_append, ← spokenMessages, flatMap_singleton]
      rw [hreplaces.items, userMessages_replacement hreal, hspoken]
      exact ((hkept round.newItems).trans Relation.TransGen.trans
        hreplaces.selected.keptSuffix).append (userMessages more)

/-- However often a growing conversation is compacted, and to whatever budgets:
each compaction slices on character boundaries and succeeds; its replacement
has one summary, in the last place, and before it the newest real messages of
the history it replaces, the oldest possibly truncated to what is left of the
budget; and these are the newest messages of the whole conversation. -/
theorem compactions_replace (source : List Json) (rounds : List Round)
    (round : Round) :
    ∃ history replacement texts,
      compactions source rounds = some history ∧
      compact history round = some replacement ∧
      Replaces (history ++ round.newItems) round replacement texts ∧
      KeptSuffix Shortens (spokenMessages source (rounds ++ [round])) texts := by
  obtain ⟨history, hhistory, -⟩ := compactions_keep source rounds
  obtain ⟨replacement, texts, hcompact, hreplaces, hreal⟩ :=
    compact_spec history round
  obtain ⟨last, hlast, hkept⟩ := compactions_keep source (rounds ++ [round])
  have hsame : last = replacement := by
    rw [compactions, foldlM_append, ← compactions, hhistory] at hlast
    simpa [hcompact] using hlast.symm
  refine ⟨history, replacement, texts, hhistory, hcompact, hreplaces, ?_⟩
  have htexts := hkept []
  rw [hsame, hreplaces.items, userMessages_replacement hreal] at htexts
  have hnil : userMessages [] = [] := rfl
  rw [hnil, append_nil, append_nil] at htexts
  exact htexts

end Vellum.Proxy

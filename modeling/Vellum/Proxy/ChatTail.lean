/-
The tail of a Chat transcript (`replay.rs`).  Two fixed user messages may be
put behind it: the neutral bridge behind a tool result, and the continuation
behind a checkpoint.  Both are left out if a message with that text stands
anywhere in the transcript, not only at its end.
-/
import Vellum.Proxy.ChatProjection

namespace Vellum.Proxy

open List Option

/-- Put an entry behind a last message that calls for one, unless there is one
like it. -/
def appendOnce (present due : TranscriptMessage → Bool)
    (entry : TranscriptMessage × ChatMessageProvenance)
    (projection : ChatProjection) : ChatProjection :=
  if projection.any fun pair => present pair.1 then projection
  else if (lastSemanticMessage projection).any due then projection ++ [entry]
  else projection

theorem lastSemanticMessage_append {projection : ChatProjection}
    {entry : TranscriptMessage × ChatMessageProvenance}
    (hentry : entry.1.isSystem = false) :
    lastSemanticMessage (projection ++ [entry]) = some entry.1 := by
  rw [lastSemanticMessage, map_append, filter_append,
    map_singleton, filter_singleton, hentry]
  exact getLast?_concat

section AppendOnce

variable {present due : TranscriptMessage → Bool}
  {entry : TranscriptMessage × ChatMessageProvenance}

/-- Nothing is put behind the transcript. -/
def TailSettled (present due : TranscriptMessage → Bool)
    (projection : ChatProjection) : Prop :=
  (projection.any fun pair => present pair.1) = true ∨
    (lastSemanticMessage projection).any due = false

theorem appendOnce_of_settled {projection : ChatProjection}
    (hsettled : TailSettled present due projection) :
    appendOnce present due entry projection = projection := by
  rw [appendOnce]
  rcases hsettled with hpresent | hdue
  · rw [if_pos hpresent]
  · rw [hdue]
    split <;> rfl

theorem appendOnce_of_not_settled {projection : ChatProjection}
    (hsettled : ¬ TailSettled present due projection) :
    appendOnce present due entry projection = projection ++ [entry] := by
  rw [TailSettled, not_or, Bool.not_eq_true, Bool.not_eq_false] at hsettled
  rw [appendOnce, hsettled.1, hsettled.2]
  rfl

theorem settled_appendOnce (hentry : present entry.1 = true)
    (projection : ChatProjection) :
    TailSettled present due (appendOnce present due entry projection) := by
  by_cases hsettled : TailSettled present due projection
  · rw [appendOnce_of_settled hsettled]
    exact hsettled
  · rw [appendOnce_of_not_settled hsettled]
    refine Or.inl ?_
    rw [any_append, any_cons, hentry, Bool.true_or, Bool.or_true]

/-- The last message still calls for an entry exactly if it did and one like it
was there. -/
theorem due_appendOnce_iff (hsystem : entry.1.isSystem = false)
    (hentry : due entry.1 = false) (projection : ChatProjection) :
    (lastSemanticMessage (appendOnce present due entry projection)).any due =
        true ↔
      (lastSemanticMessage projection).any due = true ∧
        (projection.any fun pair => present pair.1) = true := by
  by_cases hsettled : TailSettled present due projection
  · rw [appendOnce_of_settled hsettled]
    constructor
    · intro hdue
      refine ⟨hdue, hsettled.resolve_right ?_⟩
      rw [hdue]
      exact Bool.noConfusion
    · exact And.left
  · rw [appendOnce_of_not_settled hsettled, lastSemanticMessage_append hsystem,
      any_some, hentry]
    constructor
    · exact fun h => Bool.noConfusion h
    · intro h
      exact absurd (Or.inl h.2) hsettled

theorem TailSettled.append {projection : ChatProjection}
    (hsettled : TailSettled present due projection)
    (hsystem : entry.1.isSystem = false) (hentry : due entry.1 = false) :
    TailSettled present due (projection ++ [entry]) := by
  rcases hsettled with hpresent | -
  · refine Or.inl ?_
    rw [any_append, hpresent, Bool.true_or]
  · refine Or.inr ?_
    rw [lastSemanticMessage_append hsystem, any_some, hentry]

end AppendOnce

def bridgeEntry : TranscriptMessage × ChatMessageProvenance :=
  (.user (.str neutralUserBridgeText),
    { occurrenceId := some "synthetic:bridge" })

def resumeEntry : TranscriptMessage × ChatMessageProvenance :=
  (.user (.str chatCheckpointResumeText),
    { occurrenceId := some "synthetic:checkpoint-resume" })

/-- A user message with the text of the continuation. -/
def isResume (crates : Crates) (message : TranscriptMessage) : Bool :=
  message.isUser && isCheckpointResumeText (message.plainText crates)

section Tail

variable (crates : Crates) (capabilities : RuntimeChatCapabilities)
  (projection : ChatProjection)

theorem applyNeutralUserBridge_native
    (hroute : capabilities.continuationTail ≠ .neutralUserBridge) :
    applyNeutralUserBridge crates capabilities projection = projection := by
  rw [applyNeutralUserBridge, decide_eq_true hroute, Bool.true_or, if_pos rfl]

theorem applyNeutralUserBridge_bridge
    (hroute : capabilities.continuationTail = .neutralUserBridge) :
    applyNeutralUserBridge crates capabilities projection =
      appendOnce (isBridge crates) TranscriptMessage.isTool bridgeEntry
        projection := by
  rw [applyNeutralUserBridge, hroute]
  rfl

theorem applyCheckpointResumeTail_eq :
    applyCheckpointResumeTail crates projection =
      appendOnce (isResume crates) (isChatCheckpointMessage crates) resumeEntry
        projection :=
  rfl

theorem isBridge_text (text : String) :
    isBridge crates (.user (.str text)) = isSyntheticBridgeText text :=
  rfl

theorem isResume_text (text : String) :
    isResume crates (.user (.str text)) = isCheckpointResumeText text :=
  rfl

theorem isBridge_bridgeEntry : isBridge crates bridgeEntry.1 = true := by
  have hchars : neutralUserBridgeText.toList = _ := String.toList_append.trans
    (congrArg₂ (· ++ ·) String.toList_ofList String.toList_ofList)
  have htrim : Text.trim neutralUserBridgeText.toList =
      neutralUserBridgeText.toList := by
    rw [hchars]
    decide +kernel
  rw [bridgeEntry, isBridge_text, isSyntheticBridgeText, htrim,
    decide_eq_true rfl]

theorem isResume_resumeEntry : isResume crates resumeEntry.1 = true := by
  have hchars : chatCheckpointResumeText.toList = _ :=
    String.toList_append.trans (congrArg₂ (· ++ ·)
      (String.toList_append.trans
        (congrArg₂ (· ++ ·) String.toList_ofList String.toList_ofList))
      String.toList_ofList)
  have htrim : Text.trim chatCheckpointResumeText.toList =
      chatCheckpointResumeText.toList := by
    rw [hchars]
    decide +kernel
  rw [resumeEntry, isResume_text, isCheckpointResumeText, htrim,
    decide_eq_true rfl]

/-- Both functions, in the order of `responses_to_chat_projection`. -/
def applyTail : ChatProjection :=
  applyCheckpointResumeTail crates
    (applyNeutralUserBridge crates capabilities projection)

/-- What is claimed of the tail. -/
structure SettledTail : Prop where
  accepted : checkCheckpointIsNotTheTail crates
    (applyTail crates capabilities projection) = .ok ()
  answered : capabilities.continuationTail = .neutralUserBridge →
    (lastSemanticMessage (applyTail crates capabilities projection)).any
      TranscriptMessage.isTool = false
  once : applyTail crates capabilities
      (applyTail crates capabilities projection) =
    applyTail crates capabilities projection

/-- No message with one of the two texts stands in front of a tail that calls
for it. -/
structure FreshTail : Prop where
  resume : (lastSemanticMessage projection).any
      (isChatCheckpointMessage crates) = true →
    (projection.any fun pair => isResume crates pair.1) = false
  bridge : capabilities.continuationTail = .neutralUserBridge →
    (lastSemanticMessage projection).any TranscriptMessage.isTool = true →
    (projection.any fun pair => isBridge crates pair.1) = false

/-- The bridge does not change whether the continuation is left out in front of
a checkpoint. -/
theorem checkpoint_of_bridge :
    (lastSemanticMessage (applyTail crates capabilities projection)).any
        (isChatCheckpointMessage crates) = true ↔
      (lastSemanticMessage projection).any
          (isChatCheckpointMessage crates) = true ∧
        (projection.any fun pair => isResume crates pair.1) = true := by
  rw [applyTail, applyCheckpointResumeTail_eq, due_appendOnce_iff rfl rfl]
  by_cases hroute : capabilities.continuationTail = .neutralUserBridge
  · rw [applyNeutralUserBridge_bridge crates capabilities projection hroute]
    by_cases hsettled : TailSettled (isBridge crates) TranscriptMessage.isTool
        projection
    · rw [appendOnce_of_settled hsettled]
    · -- the last message was a tool result and is the bridge now
      rw [appendOnce_of_not_settled hsettled, lastSemanticMessage_append rfl]
      rw [TailSettled, not_or, Bool.not_eq_false] at hsettled
      constructor
      · intro h
        exact absurd h.1 Bool.false_ne_true
      · intro h
        obtain ⟨last, hlast, htool⟩ :=
          (Option.any_eq_true _ _).mp hsettled.2
        rw [hlast, any_some] at h
        cases last with
        | tool callId content => exact absurd h.1 Bool.false_ne_true
        | system content => exact absurd htool Bool.false_ne_true
        | user content => exact absurd htool Bool.false_ne_true
        | assistant content calls reasoning =>
          exact absurd htool Bool.false_ne_true
  · rw [applyNeutralUserBridge_native crates capabilities projection hroute]

theorem tool_of_bridge
    (hroute : capabilities.continuationTail = .neutralUserBridge) :
    (lastSemanticMessage (applyTail crates capabilities projection)).any
        TranscriptMessage.isTool = true ↔
      (lastSemanticMessage projection).any TranscriptMessage.isTool = true ∧
        (projection.any fun pair => isBridge crates pair.1) = true := by
  have hbridge : (lastSemanticMessage (appendOnce (isBridge crates)
      TranscriptMessage.isTool bridgeEntry projection)).any
        TranscriptMessage.isTool = true ↔ _ :=
    due_appendOnce_iff rfl rfl projection
  rw [← hbridge, applyTail, applyCheckpointResumeTail_eq,
    applyNeutralUserBridge_bridge crates capabilities projection hroute]
  by_cases hsettled : TailSettled (isResume crates)
      (isChatCheckpointMessage crates) (appendOnce (isBridge crates)
        TranscriptMessage.isTool bridgeEntry projection)
  · rw [appendOnce_of_settled hsettled]
  · -- the last message was a checkpoint and is the continuation now
    rw [appendOnce_of_not_settled hsettled, lastSemanticMessage_append rfl]
    rw [TailSettled, not_or, Bool.not_eq_false] at hsettled
    obtain ⟨last, hlast, hcheckpoint⟩ :=
      (Option.any_eq_true _ _).mp hsettled.2
    rw [hlast, any_some]
    cases last with
    | assistant content calls reasoning => exact Iff.rfl
    | system content => exact absurd hcheckpoint Bool.false_ne_true
    | user content => exact absurd hcheckpoint Bool.false_ne_true
    | tool callId content => exact absurd hcheckpoint Bool.false_ne_true

/-- Applying the functions again changes nothing. -/
theorem applyTail_applyTail :
    applyTail crates capabilities (applyTail crates capabilities projection) =
      applyTail crates capabilities projection := by
  have hresume : TailSettled (isResume crates) (isChatCheckpointMessage crates)
      (applyTail crates capabilities projection) :=
    settled_appendOnce (isResume_resumeEntry crates) _
  have hbridge : applyNeutralUserBridge crates capabilities
      (applyTail crates capabilities projection) =
        applyTail crates capabilities projection := by
    by_cases hroute : capabilities.continuationTail = .neutralUserBridge
    · have hfirst : TailSettled (isBridge crates) TranscriptMessage.isTool
          (applyNeutralUserBridge crates capabilities projection) := by
        rw [applyNeutralUserBridge_bridge crates capabilities projection hroute]
        exact settled_appendOnce (isBridge_bridgeEntry crates) _
      rw [applyNeutralUserBridge_bridge _ _ _ hroute]
      refine appendOnce_of_settled ?_
      rw [applyTail, applyCheckpointResumeTail_eq]
      by_cases hsettled : TailSettled (isResume crates)
          (isChatCheckpointMessage crates)
          (applyNeutralUserBridge crates capabilities projection)
      · rw [appendOnce_of_settled hsettled]
        exact hfirst
      · rw [appendOnce_of_not_settled hsettled]
        exact hfirst.append rfl rfl
    · exact applyNeutralUserBridge_native _ _ _ hroute
  rw [applyTail.eq_def _ _ (applyTail crates capabilities projection), hbridge,
    applyCheckpointResumeTail_eq, appendOnce_of_settled hresume]

theorem checkCheckpointIsNotTheTail_eq_ok_iff :
    checkCheckpointIsNotTheTail crates projection = .ok () ↔
      (lastSemanticMessage projection).any (isChatCheckpointMessage crates) =
        false := by
  rw [checkCheckpointIsNotTheTail]
  split
  · rename_i hcheckpoint
    rw [hcheckpoint]
    constructor
    · intro herror
      cases herror
    · intro hfalse
      cases hfalse
  · rename_i hcheckpoint
    exact iff_of_true rfl (Bool.eq_false_of_not_eq_true hcheckpoint)

/-- The tail is as claimed exactly if it is fresh. -/
theorem settledTail_iff :
    SettledTail crates capabilities projection ↔
      FreshTail crates capabilities projection := by
  constructor
  · intro hsettled
    have haccepted :=
      (checkCheckpointIsNotTheTail_eq_ok_iff crates _).mp hsettled.accepted
    rw [← Bool.not_eq_true, checkpoint_of_bridge, not_and,
      Bool.not_eq_true] at haccepted
    refine ⟨haccepted, ?_⟩
    intro hroute
    have hanswered := hsettled.answered hroute
    rwa [← Bool.not_eq_true,
      tool_of_bridge crates capabilities projection hroute, not_and,
      Bool.not_eq_true] at hanswered
  · intro hfresh
    refine ⟨?_, ?_, applyTail_applyTail crates capabilities projection⟩
    · rw [checkCheckpointIsNotTheTail_eq_ok_iff, ← Bool.not_eq_true,
        checkpoint_of_bridge, not_and, Bool.not_eq_true]
      exact hfresh.resume
    · intro hroute
      rw [← Bool.not_eq_true,
        tool_of_bridge crates capabilities projection hroute, not_and,
        Bool.not_eq_true]
      exact hfresh.bridge hroute

end Tail

namespace RepeatedTail

def crates : Crates := ⟨fun _ => none, fun _ => "", fun _ => []⟩

/-- A conversation that was resumed once and is compacted again. -/
def resumedAndCompacted : ChatProjection :=
  [(.user (.str chatCheckpointResumeText), .synthetic),
    (.assistant chatCheckpointPreface [] none, .synthetic)]

/-- A conversation with an earlier bridge that ends on a tool result. -/
def bridgedAndCalled : ChatProjection :=
  [(.user (.str neutralUserBridgeText), .synthetic),
    (.assistant "" [⟨.str "call_1", .str "shell", "\x7b\x7d"⟩] none,
      .synthetic),
    (.tool (some "call_1") (.str "ok"), .synthetic)]

/-- The texts of earlier turns keep the tails from being settled. -/
theorem earlier_texts_leave_the_tail :
    ¬ SettledTail crates {} resumedAndCompacted ∧
      ¬ SettledTail crates { continuationTail := .neutralUserBridge }
        bridgedAndCalled := by
  have hresume : (resumedAndCompacted.any fun pair =>
      isResume crates pair.1) = true := by
    rw [resumedAndCompacted, any_cons]
    have hentry := isResume_resumeEntry crates
    rw [resumeEntry] at hentry
    rw [hentry, Bool.true_or]
  have hbridge : (bridgedAndCalled.any fun pair =>
      isBridge crates pair.1) = true := by
    rw [bridgedAndCalled, any_cons]
    have hentry := isBridge_bridgeEntry crates
    rw [bridgeEntry] at hentry
    rw [hentry, Bool.true_or]
  constructor
  · intro hsettled
    have haccepted :=
      (checkCheckpointIsNotTheTail_eq_ok_iff crates _).mp hsettled.accepted
    rw [← Bool.not_eq_true, checkpoint_of_bridge] at haccepted
    exact haccepted ⟨by decide +kernel, hresume⟩
  · intro hsettled
    have hanswered := hsettled.answered rfl
    rw [← Bool.not_eq_true, tool_of_bridge _ _ _ rfl] at hanswered
    exact hanswered ⟨rfl, hbridge⟩

end RepeatedTail

end Vellum.Proxy

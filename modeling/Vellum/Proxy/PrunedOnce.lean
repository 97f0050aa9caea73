/-
What pruning does to the length of a text, and what it does the second time
(`tool_result_pruner.rs`).  A pruned text is left alone if it is short enough
for the policy, or if the marker happens to be as long as what it replaces.
-/
import Vellum.Proxy.ToolResultPruner

namespace Vellum.Proxy

def decimalDigits (n : Nat) : Nat := (toString n).toList.length

theorem decimalDigits_le_iff {n digits : Nat} (hdigits : 0 < digits) :
    decimalDigits n ≤ digits ↔ n < 10 ^ digits :=
  Nat.length_repr_le_iff hdigits

theorem length_omissionMarker (omitted : Nat) :
    (omissionMarker omitted).length = 72 + decimalDigits omitted := by
  have hfront : omissionFront.length = 52 := by decide
  have hback : omissionBack.length = 20 := by decide
  rw [omissionMarker, List.length_append, List.length_append, hfront, hback,
    decimalDigits]
  omega

theorem omissionMarker_inj {left right : Nat}
    (heq : omissionMarker left = omissionMarker right) : left = right := by
  rw [omissionMarker, omissionMarker] at heq
  have hdigits := List.append_cancel_left (List.append_cancel_right heq)
  exact Nat.repr_injective (String.toList_inj.mp hdigits)

/-- A marker is as long as what it replaces at 74 characters, and shorter from
there on. -/
theorem marker_length_eq_iff {omitted : Nat} (homitted : 65 ≤ omitted) :
    72 + decimalDigits omitted = omitted ↔ omitted = 74 := by
  have hone : ¬ decimalDigits omitted ≤ 1 := by
    rw [decimalDigits_le_iff Nat.one_pos]
    omega
  rcases Nat.lt_or_ge omitted 75 with hsmall | hlarge
  · have htwo : decimalDigits omitted ≤ 2 := by
      rw [decimalDigits_le_iff Nat.two_pos]
      omega
    omega
  · obtain ⟨more, rfl⟩ := Nat.exists_eq_add_of_le hlarge
    have hpow : more < 10 ^ more := Nat.lt_pow_self (by decide)
    have hdigits : decimalDigits (75 + more) ≤ more + 2 := by
      rw [decimalDigits_le_iff (Nat.succ_pos _)]
      have hsplit : 10 ^ (more + 2) = 10 ^ more * 100 := Nat.pow_add 10 more 2
      omega
    omega

section Text

variable (policy : ToolResultPrunePolicy)

/-- A text of this many characters is not pruned; or a tail is kept, the sizes
do not wrap, and pruned it is not pruned again, or its marker is as long as
what it replaces. -/
def Settles (count : Nat) : Prop :=
  count ≤ minLength policy ∨
    policy.tailChars ≠ 0 ∧
      policy.headChars + policy.tailChars + 64 < 2 ^ 64 ∧
      (policy.headChars + policy.tailChars + 72 +
          decimalDigits (count - (policy.headChars + policy.tailChars)) ≤
            policy.maxResultChars ∨
        count = policy.headChars + policy.tailChars + 74)

variable {policy}

variable {text : List Char} {minLen : Nat}

theorem length_truncateText (htail : policy.tailChars ≠ 0)
    (hlong : minLen < text.length) :
    (truncateText policy minLen text).length =
      min policy.headChars text.length +
        (72 + decimalDigits (omittedChars policy text.length)) +
          min policy.tailChars text.length := by
  rw [truncateText, if_neg (Nat.not_le.mpr hlong), List.length_append,
    List.length_append, length_omissionMarker, safeHead, safeTail,
    if_neg htail, List.length_take, List.length_drop]
  omega

theorem truncateText_of_le (hshort : text.length ≤ minLen) :
    truncateText policy minLen text = text := if_pos hshort

/-- The whole text follows the marker if no tail is to be kept. -/
theorem grows_of_no_tail (htail : policy.tailChars = 0)
    (hlong : minLen < text.length) :
    text.length < (truncateText policy minLen text).length := by
  rw [truncateText, if_neg (Nat.not_le.mpr hlong), List.length_append,
    List.length_append, length_omissionMarker, safeTail, if_pos htail]
  omega

/-- Sizes that wrap around set no room aside, and the two ends overlap. -/
theorem grows_of_wrapping (htail : policy.tailChars ≠ 0)
    (hsize : text.length < 2 ^ 64)
    (hwraps : 2 ^ 64 ≤ policy.headChars + policy.tailChars + 64)
    (hlong : minLen < text.length) :
    text.length < (truncateText policy minLen text).length := by
  rw [length_truncateText htail hlong]
  omega

/-- Sizes that do not wrap. -/
structure Plain (policy : ToolResultPrunePolicy) : Prop where
  ends : wrappingAdd policy.headChars policy.tailChars =
    policy.headChars + policy.tailChars
  minLength : minLength policy =
    max policy.maxResultChars (policy.headChars + policy.tailChars + 64)

theorem plain_of_lt
    (hsizes : policy.headChars + policy.tailChars + 64 < 2 ^ 64) :
    Plain policy := by
  have hends : wrappingAdd policy.headChars policy.tailChars =
      policy.headChars + policy.tailChars := by
    rw [wrappingAdd]
    omega
  refine ⟨hends, ?_⟩
  rw [minLength, hends, wrappingAdd, Nat.mod_eq_of_lt hsizes]

theorem safeHead_append {head middle tail : List Char} :
    safeHead (head ++ middle ++ tail) head.length = head := by
  rw [safeHead, List.append_assoc, List.take_left]

theorem safeTail_append {head middle tail : List Char}
    (htail : tail.length ≠ 0) :
    safeTail (head ++ middle ++ tail) tail.length = tail := by
  have hskip : (head ++ middle ++ tail).length - tail.length =
      (head ++ middle).length := by
    rw [List.length_append]
    omega
  rw [safeTail, if_neg htail, hskip, List.drop_left]

/-- A long text is cut to two ends of the policy's sizes. -/
theorem truncateText_of_lt (hplain : Plain policy)
    (htail : policy.tailChars ≠ 0) (hlong : minLength policy < text.length) :
    ∃ head tail, head.length = policy.headChars ∧
      tail.length = policy.tailChars ∧
      truncateText policy (minLength policy) text =
        head ++ omissionMarker
          (text.length - (policy.headChars + policy.tailChars)) ++ tail := by
  have hends : policy.headChars + policy.tailChars + 64 < text.length :=
    lt_of_le_of_lt (hplain.minLength ▸ le_max_right _ _) hlong
  refine ⟨safeHead text policy.headChars, safeTail text policy.tailChars,
    ?_, ?_, ?_⟩
  · rw [safeHead, List.length_take]
    omega
  · rw [safeTail, if_neg htail, List.length_drop]
    omega
  · rw [truncateText, if_neg (Nat.not_le.mpr hlong), omittedChars, hplain.ends]

/-- Pruning a long text again replaces its marker by the marker of the
marker. -/
theorem truncateText_fixed_iff (hplain : Plain policy)
    (hkept : policy.tailChars ≠ 0) (hlong : minLength policy < text.length)
    (hagain : minLength policy <
      (truncateText policy (minLength policy) text).length) :
    truncateText policy (minLength policy)
        (truncateText policy (minLength policy) text) =
        truncateText policy (minLength policy) text ↔
      text.length = policy.headChars + policy.tailChars + 74 := by
  have hends : policy.headChars + policy.tailChars + 64 < text.length :=
    lt_of_le_of_lt (hplain.minLength ▸ le_max_right _ _) hlong
  obtain ⟨head, tail, hhead, htail, hcut⟩ :=
    truncateText_of_lt hplain hkept hlong
  generalize homitted : text.length -
    (policy.headChars + policy.tailChars) = omitted at hcut
  have hmarker : 72 + decimalDigits omitted = omitted ↔ omitted = 74 :=
    marker_length_eq_iff (by omega)
  have hcount : (head ++ omissionMarker omitted ++ tail).length -
      (policy.headChars + policy.tailChars) =
        72 + decimalDigits omitted := by
    rw [List.length_append, List.length_append, length_omissionMarker, hhead,
      htail]
    omega
  rw [hcut] at hagain ⊢
  rw [truncateText, if_neg (Nat.not_le.mpr hagain), omittedChars, hplain.ends,
    hcount, ← hhead, safeHead_append, ← htail,
    safeTail_append (htail ▸ hkept)]
  constructor
  · intro heq
    have hsame := omissionMarker_inj
      (List.append_cancel_left (List.append_cancel_right heq))
    omega
  · intro hseventyFour
    rw [hmarker.mpr (by omega)]

/-- A long text under a policy that sets room aside for the marker. -/
theorem truncateText_settles_of_plain (htail : policy.tailChars ≠ 0)
    (hplain : Plain policy) (hlong : minLength policy < text.length) :
    ((truncateText policy (minLength policy) text).length ≤ text.length ∧
        truncateText policy (minLength policy)
            (truncateText policy (minLength policy) text) =
          truncateText policy (minLength policy) text) ↔
      policy.headChars + policy.tailChars + 72 + decimalDigits
          (text.length - (policy.headChars + policy.tailChars)) ≤
            policy.maxResultChars ∨
        text.length = policy.headChars + policy.tailChars + 74 := by
  have hends : policy.headChars + policy.tailChars + 64 < text.length :=
    lt_of_le_of_lt (hplain.minLength ▸ le_max_right _ _) hlong
  have hroom := hplain.minLength
  have hlength := length_truncateText htail hlong
  rw [min_eq_left (by omega), min_eq_left (by omega), omittedChars,
    hplain.ends] at hlength
  have hmarker := @marker_length_eq_iff
    (text.length - (policy.headChars + policy.tailChars)) (by omega)
  generalize decimalDigits (text.length -
    (policy.headChars + policy.tailChars)) = digits at hlength hmarker ⊢
  rcases Nat.lt_or_ge policy.maxResultChars
    (policy.headChars + policy.tailChars + 72 + digits) with hagain | hfits
  · have hlongAgain : minLength policy <
        (truncateText policy (minLength policy) text).length := by
      rw [hlength, hroom]
      exact max_lt (by omega) (by omega)
    rw [truncateText_fixed_iff hplain htail hlong hlongAgain]
    omega
  · have hshortAgain :
      (truncateText policy (minLength policy) text).length ≤
        minLength policy := by
      rw [hlength, hroom]
      exact le_max_of_le_left (by omega)
    rw [truncateText_of_le hshortAgain]
    exact iff_of_true ⟨hshortAgain.trans hlong.le, rfl⟩ (Or.inl hfits)

theorem truncateText_settles_iff (hsize : text.length < 2 ^ 64) :
    ((truncateText policy (minLength policy) text).length ≤ text.length ∧
        truncateText policy (minLength policy)
            (truncateText policy (minLength policy) text) =
          truncateText policy (minLength policy) text) ↔
      Settles policy text.length := by
  rw [Settles]
  rcases Nat.lt_or_ge (minLength policy) text.length with hlong | hshort
  · rw [or_iff_right (Nat.not_le.mpr hlong)]
    by_cases htail : policy.tailChars = 0
    · have hgrows := grows_of_no_tail htail hlong
      exact iff_of_false (fun hboth => absurd hboth.1 hgrows.not_ge)
        fun hboth => hboth.1 htail
    · rcases Nat.lt_or_ge (policy.headChars + policy.tailChars + 64)
        (2 ^ 64) with hsizes | hwraps
      · rw [truncateText_settles_of_plain htail (plain_of_lt hsizes) hlong]
        exact ⟨fun h => ⟨htail, hsizes, h⟩, fun h => h.2.2⟩
      · have hgrows := grows_of_wrapping htail hsize hwraps hlong
        exact iff_of_false (fun hboth => absurd hboth.1 hgrows.not_ge)
          fun hboth => absurd hboth.2.1 hwraps.not_gt
  · rw [truncateText_of_le hshort, truncateText_of_le hshort]
    exact iff_of_true ⟨Nat.le_refl _, rfl⟩ (Or.inl hshort)

end Text

/-! Items and whole requests. -/

section Items

variable (policy : ToolResultPrunePolicy)

/-- What pruning makes of a text. -/
def prunedText (text : String) : String :=
  rewritten (pruneText policy (minLength policy)) text

theorem payloadField_cases {item : Json} {name : String}
    (hname : payloadField item = some name) :
    name ≠ "type" ∧ name ≠ "role" := by
  rw [payloadField] at hname
  split at hname
  · rw [← Option.some.inj hname]
    decide
  · split at hname
    · rw [← Option.some.inj hname]
      decide
    · cases hname

theorem payloadField_modify {item : Json} {name : String}
    (hname : payloadField item = some name) (change : Json → Json) :
    payloadField (item.modify name change) = some name := by
  obtain ⟨htype, hrole⟩ := payloadField_cases hname
  rw [← hname, payloadField, payloadField, Json.get_modify, Json.get_modify,
    if_neg htype.symm, if_neg hrole.symm]

theorem itemTexts_pruneItem (item : Json) :
    itemTexts (pruneItem policy (minLength policy) item).1 =
      (itemTexts item).map (prunedText policy) := by
  rw [pruneItem]
  split
  · rename_i hnone
    rw [itemTexts, hnone]
    rfl
  · rename_i name hname
    rw [itemTexts, itemTexts, payloadField_modify hname, hname,
      Option.bind_some, Option.bind_some, Json.get_modify, if_pos rfl]
    cases item.get name with
    | none => rfl
    | some payload => exact (textsFollow _ payload).payload

theorem pruneItem_eq_self_iff (item : Json) :
    (pruneItem policy (minLength policy) item).1 = item ↔
      ∀ text ∈ itemTexts item, prunedText policy text = text := by
  rw [pruneItem]
  split
  · rename_i hnone
    rw [itemTexts, hnone]
    exact iff_of_true rfl fun _ hmem => absurd hmem List.not_mem_nil
  · rename_i name hname
    rw [itemTexts, hname, Option.bind_some, Json.modify_eq_self_iff]
    cases item.get name with
    | none => simp
    | some payload =>
      have hpayload := (textsFollow (pruneText policy (minLength policy))
        payload).payloadFixed
      simpa [pruneTextPayload, prunedText] using hpayload

/-- The texts of all items. -/
def requestTexts (items : List Json) : List String := items.flatMap itemTexts

def pruneItems (items : List Json) : List Json :=
  items.map fun item => (pruneItem policy (minLength policy) item).1

variable (items : List Json)

theorem requestTexts_pruneItems :
    requestTexts (pruneItems policy items) =
      (requestTexts items).map (prunedText policy) := by
  rw [requestTexts, pruneItems, List.flatMap_map, requestTexts,
    List.map_flatMap]
  congr 1
  funext item
  exact itemTexts_pruneItem policy item

theorem pruneItems_eq_self_iff :
    pruneItems policy items = items ↔
      ∀ text ∈ requestTexts items, prunedText policy text = text := by
  induction items with
  | nil => exact iff_of_true rfl fun _ hmem => absurd hmem List.not_mem_nil
  | cons item rest ih =>
    rw [pruneItems, List.map_cons, List.cons.injEq, ← pruneItems, ih,
      pruneItem_eq_self_iff, requestTexts, requestTexts, List.flatMap_cons,
      List.forall_mem_append]

theorem prunedText_settles_iff {text : String} (hsize : text.length < 2 ^ 64) :
    ((prunedText policy text).length ≤ text.length ∧
        prunedText policy (prunedText policy text) = prunedText policy text) ↔
      Settles policy text.length := by
  have hpruned : ∀ text, prunedText policy text = String.ofList
      (truncateText policy (minLength policy) text.toList) := fun _ => rfl
  have hlength : text.length = text.toList.length :=
    String.length_toList.symm
  rw [hlength] at hsize ⊢
  rw [← truncateText_settles_iff hsize, hpruned, hpruned, String.toList_ofList,
    String.ofList_inj, String.length_ofList]

/-- What is claimed of a request: no text is longer than it was, and pruning
the result again leaves it as it is. -/
structure PrunedOnce (floats : JsonText.FloatText) (below : PressureBelow)
    (items : List Json) (totalRequestTokens contextWindow : Nat) : Prop where
  shorter : List.Forall₂
    (fun before after : String => after.length ≤ before.length)
    (requestTexts items)
    (requestTexts (pruneToolResultsUnderPressureWithEstimate floats below items
      totalRequestTokens contextWindow policy).1)
  once : (pruneToolResultsUnderPressureWithEstimate floats below
      (pruneToolResultsUnderPressureWithEstimate floats below items
        totalRequestTokens contextWindow policy).1
      totalRequestTokens contextWindow policy).1 =
    (pruneToolResultsUnderPressureWithEstimate floats below items
      totalRequestTokens contextWindow policy).1

/-- The request is pruned at all. -/
def Pressed (below : PressureBelow) (totalRequestTokens contextWindow : Nat) :
    Prop :=
  policy.enabled ∧ contextWindow ≠ 0 ∧
    ¬ below totalRequestTokens contextWindow policy.triggerPressureRatio

variable {policy}

theorem prune_of_not_pressed (floats : JsonText.FloatText)
    {below : PressureBelow} {totalRequestTokens contextWindow : Nat}
    (hnot : ¬ Pressed policy below totalRequestTokens contextWindow)
    (items : List Json) :
    (pruneToolResultsUnderPressureWithEstimate floats below items
      totalRequestTokens contextWindow policy).1 = items := by
  rw [pruneToolResultsUnderPressureWithEstimate, if_pos]
  simp only [Bool.or_eq_true, Bool.not_eq_true', decide_eq_true_eq]
  rw [Pressed] at hnot
  by_contra hother
  simp only [not_or] at hother
  exact hnot ⟨by simpa using hother.1.1.1, hother.1.2, hother.2⟩

theorem prune_of_pressed (floats : JsonText.FloatText)
    {below : PressureBelow} {totalRequestTokens contextWindow : Nat}
    (hpressed : Pressed policy below totalRequestTokens contextWindow)
    (items : List Json) :
    (pruneToolResultsUnderPressureWithEstimate floats below items
      totalRequestTokens contextWindow policy).1 = pruneItems policy items := by
  obtain ⟨henabled, hwindow, hbelow⟩ := hpressed
  rw [pruneToolResultsUnderPressureWithEstimate]
  split
  · rename_i hskip
    simp only [henabled, hwindow, hbelow, Bool.not_true, Bool.false_or,
      decide_false, Bool.or_false, List.isEmpty_iff] at hskip
    rw [hskip]
    rfl
  · simp only [pruneItems, List.map_map]
    rfl

/-- Pruning shortens texts and settles at once exactly if the request is not
pruned or every text of its tool results settles. -/
theorem pruned_once_iff (floats : JsonText.FloatText) (below : PressureBelow)
    (items : List Json) (totalRequestTokens contextWindow : Nat)
    (hsizes : ∀ text ∈ requestTexts items, text.length < 2 ^ 64) :
    PrunedOnce policy floats below items totalRequestTokens contextWindow ↔
      (Pressed policy below totalRequestTokens contextWindow →
        ∀ text ∈ requestTexts items, Settles policy text.length) := by
  by_cases hpressed : Pressed policy below totalRequestTokens contextWindow
  · have hprune := prune_of_pressed floats hpressed
    have hshorter : List.Forall₂
        (fun before after : String => after.length ≤ before.length)
        (requestTexts items) (requestTexts (pruneItems policy items)) ↔
        ∀ text ∈ requestTexts items,
          (prunedText policy text).length ≤ text.length := by
      rw [requestTexts_pruneItems, List.forall₂_map_right_iff,
        List.forall₂_same]
    have honce : pruneItems policy (pruneItems policy items) =
        pruneItems policy items ↔
        ∀ text ∈ requestTexts items,
          prunedText policy (prunedText policy text) =
            prunedText policy text := by
      rw [pruneItems_eq_self_iff, requestTexts_pruneItems,
        List.forall_mem_map]
    constructor
    · rintro ⟨hless, hagain⟩ - text htext
      rw [hprune] at hless hagain
      rw [hprune] at hagain
      exact (prunedText_settles_iff policy (hsizes text htext)).mp
        ⟨hshorter.mp hless text htext, honce.mp hagain text htext⟩
    · intro hsettles
      have hboth := fun text htext => (prunedText_settles_iff policy
        (hsizes text htext)).mpr (hsettles hpressed text htext)
      refine ⟨?_, ?_⟩
      · rw [hprune]
        exact hshorter.mpr fun text htext => (hboth text htext).1
      · rw [hprune, hprune]
        exact honce.mpr fun text htext => (hboth text htext).2
  · have hprune := prune_of_not_pressed floats hpressed
    refine iff_of_true ⟨?_, ?_⟩ fun h => absurd h hpressed
    · rw [hprune]
      exact List.forall₂_same.mpr fun text _ => Nat.le_refl _
    · rw [hprune, hprune]

/-- A tool result that is one text. -/
def toolResult (text : String) : Json :=
  .obj [("type", .str "function_call_output"), ("output", .str text)]

theorem requestTexts_toolResult (text : String) :
    requestTexts [toolResult text] = [text] := rfl

/-- A policy that keeps one character at each end of a long text. -/
def keepEnds : ToolResultPrunePolicy :=
  { enabled := true, triggerPressureRatio := 0, maxResultChars := 0,
    headChars := 1, tailChars := 1 }

/-- One character more than the ends and the room that is set aside for a
marker. -/
def crowdedText : String := String.ofList (List.replicate 67 'a')

/-- A policy that leaves room for its marker. -/
def keepSeventy : ToolResultPrunePolicy :=
  { keepEnds with maxResultChars := 200, headChars := 50, tailChars := 20 }

def longText : String := String.ofList (List.replicate 300 'a')

/-- A text that is cut from 300 characters to 145. -/
theorem long_result_pruned_once :
    PrunedOnce keepSeventy .ofBits (fun _ _ _ => false)
      [toolResult longText] 1 1 := by
  have htexts := requestTexts_toolResult longText
  have hlength : longText.length = 300 :=
    String.length_ofList.trans List.length_replicate
  refine (pruned_once_iff .ofBits (fun _ _ _ => false) [toolResult longText]
    1 1 ?_).mpr ?_
  · rw [htexts, List.forall_mem_singleton, hlength]
    decide
  · rintro - text htext
    rw [htexts, List.mem_singleton] at htext
    rw [htext, hlength]
    exact .inr ⟨by decide, by decide, .inl (by decide)⟩

/-- A text that is longer after pruning. -/
theorem crowded_result_grows :
    ¬ ∀ (policy : ToolResultPrunePolicy) (floats : JsonText.FloatText)
      (below : PressureBelow) (items : List Json)
      (totalRequestTokens contextWindow : Nat),
      PrunedOnce policy floats below items totalRequestTokens
        contextWindow := by
  intro hall
  have hless := (hall keepEnds .ofBits (fun _ _ _ => false)
    [toolResult crowdedText] 1 1).shorter
  have hpressed : Pressed keepEnds (fun _ _ _ => false) 1 1 :=
    ⟨rfl, Nat.one_ne_zero, Bool.false_ne_true⟩
  rw [prune_of_pressed .ofBits hpressed, requestTexts_pruneItems,
    requestTexts_toolResult, List.map_singleton, List.forall₂_cons] at hless
  exact absurd hless.1 (by decide)

end Items

end Vellum.Proxy

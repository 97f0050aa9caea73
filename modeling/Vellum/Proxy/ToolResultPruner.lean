/-
The pruning of tool results under context pressure (`tool_result_pruner.rs`).
A long text keeps its two ends around a marker that says how much is missing.
Whether a text is long enough is decided with 64 characters set aside for the
marker, which takes 74 or more; so a text may grow, and what was pruned may be
pruned again.  A tail of no characters is the whole text.  Sums of sizes wrap
around, as in a release build.
-/
import Vellum.Proxy.TailUnits

namespace Vellum.Proxy

open List Json

/-- The policy; the ratio is a double, given by its bits. -/
structure ToolResultPrunePolicy where
  enabled : Bool
  triggerPressureRatio : UInt64
  maxResultChars : Nat
  headChars : Nat
  tailChars : Nat

structure PruneReport where
  prunedResultsCount : Nat
  originalEstimatedTokens : Nat
  postPruneEstimatedTokens : Nat
  charsRemoved : Nat

/-- Addition of `usize`. -/
def wrappingAdd (left right : Nat) : Nat := (left + right) % 2 ^ 64

def safeHead (text : List Char) (maxChars : Nat) : List Char :=
  text.take maxChars

/-- The search for the place to cut stops before the end of the text, so a
tail of no characters is the whole text. -/
def safeTail (text : List Char) (maxChars : Nat) : List Char :=
  if maxChars = 0 then text else text.drop (text.length - maxChars)

def omissionFront : List Char :=
  "\n... [tool result truncated for context efficiency: ".toList

def omissionBack : List Char := " chars omitted] ...\n".toList

/-- What stands in the place of the characters in the middle. -/
def omissionMarker (omitted : Nat) : List Char :=
  omissionFront ++ (toString omitted).toList ++ omissionBack

def omittedChars (policy : ToolResultPrunePolicy) (count : Nat) : Nat :=
  count - wrappingAdd policy.headChars policy.tailChars

/-- A text of more than `minLen` characters is cut to its two ends. -/
def truncateText (policy : ToolResultPrunePolicy) (minLen : Nat)
    (text : List Char) : List Char :=
  if text.length ≤ minLen then text
  else safeHead text policy.headChars ++
    omissionMarker (omittedChars policy text.length) ++
      safeTail text policy.tailChars

/-- The text that is left, and how many characters it misses. -/
def pruneText (policy : ToolResultPrunePolicy) (minLen : Nat)
    (text : String) : String × Nat :=
  (String.ofList (truncateText policy minLen text.toList),
    if text.toList.length ≤ minLen then 0
    else omittedChars policy text.toList.length)

/-- A block whose kind is a kind of text, or that has no kind but a text. -/
def textBearing (fields : List (String × Json)) : Bool :=
  match ((Json.obj fields).get "type").bind Json.asStr with
  | some kind => kind ∈ ["text", "input_text", "output_text"]
  | none => ((Json.obj fields).get "text").isSome

section Payload

variable (prune : String → String × Nat)

mutual

/-- Rewrite the texts of a payload and add up the counts. -/
def onPayload : Json → Json × Nat
  | .str text => (.str (prune text).1, (prune text).2)
  | .arr blocks => (.arr (onBlocks blocks).1, (onBlocks blocks).2)
  | value => (value, 0)

def onBlocks : List Json → List Json × Nat
  | [] => ([], 0)
  | block :: rest =>
    ((onBlock block).1 :: (onBlocks rest).1,
      (onBlock block).2 + (onBlocks rest).2)

def onBlock : Json → Json × Nat
  | .str text => (.str (prune text).1, (prune text).2)
  | .obj fields =>
    if textBearing fields then
      (.obj (onTextField fields).1, (onTextField fields).2)
    else (.obj fields, 0)
  | value => (value, 0)

/-- The payload in the field `text`. -/
def onTextField : List (String × Json) → List (String × Json) × Nat
  | [] => ([], 0)
  | (name, value) :: rest =>
    if name = "text" then
      ((name, (onPayload value).1) :: rest, (onPayload value).2)
    else ((name, value) :: (onTextField rest).1, (onTextField rest).2)

end

end Payload

mutual

/-- The texts of a payload. -/
def payloadTexts : Json → List String
  | .str text => [text]
  | .arr blocks => blocksTexts blocks
  | _ => []

def blocksTexts : List Json → List String
  | [] => []
  | block :: rest => blockTexts block ++ blocksTexts rest

def blockTexts : Json → List String
  | .str text => [text]
  | .obj fields => if textBearing fields then fieldTexts fields else []
  | _ => []

def fieldTexts : List (String × Json) → List String
  | [] => []
  | (name, value) :: rest =>
    if name = "text" then payloadTexts value else fieldTexts rest

end

def pruneTextPayload (policy : ToolResultPrunePolicy) (minLen : Nat) :
    Json → Json × Nat :=
  onPayload (pruneText policy minLen)

/-- The field of an item that holds a tool result. -/
def payloadField (item : Json) : Option String :=
  if (item.get "type").bind Json.asStr = some "function_call_output" then
    some "output"
  else if (item.get "role").bind Json.asStr = some "tool" then some "content"
  else none

def pruneItem (policy : ToolResultPrunePolicy) (minLen : Nat) (item : Json) :
    Json × Nat :=
  match payloadField item with
  | none => (item, 0)
  | some name =>
    (item.modify name fun payload =>
      (pruneTextPayload policy minLen payload).1,
    ((item.get name).map fun payload =>
      (pruneTextPayload policy minLen payload).2).getD 0)

/-- Texts of more characters are pruned. -/
def minLength (policy : ToolResultPrunePolicy) : Nat :=
  max policy.maxResultChars
    (wrappingAdd (wrappingAdd policy.headChars policy.tailChars) 64)

/-- `total as f64 / window as f64 < ratio` for a total, a window and the bits
of a ratio. -/
abbrev PressureBelow := Nat → Nat → UInt64 → Bool

section Pressure

variable (floats : JsonText.FloatText) (below : PressureBelow)

def pruneToolResultsUnderPressureWithEstimate (items : List Json)
    (totalRequestTokens contextWindow : Nat)
    (policy : ToolResultPrunePolicy) : List Json × PruneReport :=
  let tokens := estimateTokens floats items
  if !policy.enabled || items.isEmpty || contextWindow = 0 ||
      below totalRequestTokens contextWindow policy.triggerPressureRatio then
    (items, ⟨0, tokens, tokens, 0⟩)
  else
    let results := items.map (pruneItem policy (minLength policy))
    let pruned := results.map Prod.fst
    (pruned,
      { prunedResultsCount := results.countP fun result => 0 < result.2
        originalEstimatedTokens := tokens
        postPruneEstimatedTokens := estimateTokens floats pruned
        charsRemoved := (results.map Prod.snd).sum })

end Pressure

/-- The texts that pruning may change. -/
def itemTexts (item : Json) : List String :=
  match (payloadField item).bind item.get with
  | some payload => payloadTexts payload
  | none => []

/-! What a rewriting of texts does to a payload. -/

section Payload

variable (prune : String → String × Nat)

theorem get_onTextField {name : String} (hname : name ≠ "text")
    (fields : List (String × Json)) :
    (Json.obj (onTextField prune fields).1).get name =
      (Json.obj fields).get name := by
  induction fields with
  | nil => rfl
  | cons field rest ih =>
    obtain ⟨key, value⟩ := field
    rw [onTextField]
    split
    · rename_i hkey
      have hother : key ≠ name := fun h => hname (h.symm.trans hkey)
      rw [get_cons, get_cons, if_neg hother, if_neg hother]
    · rw [get_cons, get_cons, ih]

theorem isSome_get_onTextField (fields : List (String × Json)) :
    ((Json.obj (onTextField prune fields).1).get "text").isSome =
      ((Json.obj fields).get "text").isSome := by
  induction fields with
  | nil => rfl
  | cons field rest ih =>
    obtain ⟨key, value⟩ := field
    rw [onTextField]
    split
    · rename_i hkey
      rw [get_cons, get_cons, if_pos hkey, if_pos hkey]
      rfl
    · rename_i hkey
      rw [get_cons, get_cons, if_neg hkey, if_neg hkey, ih]

@[simp]
theorem textBearing_onTextField (fields : List (String × Json)) :
    textBearing (onTextField prune fields).1 = textBearing fields := by
  rw [textBearing, textBearing, get_onTextField prune (by decide),
    isSome_get_onTextField]

/-- The text of a string. -/
def rewritten (text : String) : String := (prune text).1

/-- What is proved of a payload and of a block by one induction. -/
structure TextsFollow (value : Json) : Prop where
  payload : payloadTexts (onPayload prune value).1 =
    (payloadTexts value).map (rewritten prune)
  block : blockTexts (onBlock prune value).1 =
    (blockTexts value).map (rewritten prune)
  payloadFixed : (onPayload prune value).1 = value ↔
    ∀ text ∈ payloadTexts value, rewritten prune text = text
  blockFixed : (onBlock prune value).1 = value ↔
    ∀ text ∈ blockTexts value, rewritten prune text = text

theorem blocksTexts_onBlocks {blocks : List Json}
    (hblocks : ∀ block ∈ blocks, TextsFollow prune block) :
    blocksTexts (onBlocks prune blocks).1 =
      (blocksTexts blocks).map (rewritten prune) := by
  induction blocks with
  | nil => rfl
  | cons block rest ih =>
    rw [onBlocks, blocksTexts, blocksTexts, map_append,
      (hblocks block mem_cons_self).block,
      ih fun other hother => hblocks other (mem_cons_of_mem _ hother)]

theorem onBlocks_eq_self_iff {blocks : List Json}
    (hblocks : ∀ block ∈ blocks, TextsFollow prune block) :
    (onBlocks prune blocks).1 = blocks ↔
      ∀ text ∈ blocksTexts blocks, rewritten prune text = text := by
  induction blocks with
  | nil => exact iff_of_true rfl fun _ hmem => absurd hmem not_mem_nil
  | cons block rest ih =>
    rw [onBlocks, blocksTexts, List.cons.injEq, forall_mem_append,
      (hblocks block mem_cons_self).blockFixed,
      ih fun other hother => hblocks other (mem_cons_of_mem _ hother)]

theorem fieldTexts_onTextField {fields : List (String × Json)}
    (hfields : ∀ field ∈ fields, TextsFollow prune field.2) :
    fieldTexts (onTextField prune fields).1 =
      (fieldTexts fields).map (rewritten prune) := by
  induction fields with
  | nil => rfl
  | cons field rest ih =>
    obtain ⟨name, value⟩ := field
    rw [onTextField, fieldTexts]
    split
    · rename_i hname
      rw [fieldTexts, if_pos hname]
      exact (hfields (name, value) mem_cons_self).payload
    · rename_i hname
      rw [fieldTexts, if_neg hname,
        ih fun other hother => hfields other (mem_cons_of_mem _ hother)]

theorem onTextField_eq_self_iff {fields : List (String × Json)}
    (hfields : ∀ field ∈ fields, TextsFollow prune field.2) :
    (onTextField prune fields).1 = fields ↔
      ∀ text ∈ fieldTexts fields, rewritten prune text = text := by
  induction fields with
  | nil => exact iff_of_true rfl fun _ hmem => absurd hmem not_mem_nil
  | cons field rest ih =>
    obtain ⟨name, value⟩ := field
    have hvalue := (hfields (name, value) mem_cons_self).payloadFixed
    rw [onTextField, fieldTexts]
    split
    · rw [← hvalue]
      simp
    · rw [← ih fun other hother => hfields other
        (mem_cons_of_mem _ hother)]
      simp

/-- The texts of a rewritten payload are the rewritten texts, and the payload
is unchanged exactly if they all are. -/
theorem textsFollow (value : Json) : TextsFollow prune value := by
  induction value using Json.nestedInduction with
  | leaf value harr hobj =>
    cases value with
    | str text =>
      have hfixed : Json.str (prune text).1 = .str text ↔
          ∀ other ∈ [text], rewritten prune other = other := by
        simp [rewritten]
      exact ⟨rfl, rfl, hfixed, hfixed⟩
    | arr items => exact absurd rfl (harr items)
    | obj fields => exact absurd rfl (hobj fields)
    | null | bool | num =>
      exact ⟨rfl, rfl,
        iff_of_true rfl fun _ hmem => absurd hmem not_mem_nil,
        iff_of_true rfl fun _ hmem => absurd hmem not_mem_nil⟩
  | arr items ih =>
    refine ⟨blocksTexts_onBlocks prune ih, rfl, ?_,
      iff_of_true rfl fun _ hmem => absurd hmem not_mem_nil⟩
    rw [onPayload, payloadTexts, ← onBlocks_eq_self_iff prune ih]
    simp
  | obj fields ih =>
    refine ⟨rfl, ?_,
      iff_of_true rfl fun _ hmem => absurd hmem not_mem_nil, ?_⟩
    · rw [onBlock, blockTexts]
      split
      · rename_i hbearing
        rw [blockTexts, textBearing_onTextField, if_pos hbearing,
          fieldTexts_onTextField prune ih]
      · rename_i hother
        rw [blockTexts, if_neg hother]
        rfl
    · rw [onBlock, blockTexts]
      split
      · rw [← onTextField_eq_self_iff prune ih]
        simp
      · exact iff_of_true rfl fun _ hmem => absurd hmem not_mem_nil

end Payload

end Vellum.Proxy

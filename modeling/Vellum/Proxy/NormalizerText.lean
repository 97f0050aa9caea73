/-
The text a normalized stream carries.  Without the replay heuristics the
deltas of a text part reach the client as they came, free of control tokens
and each counted once, except that a delta with nothing but blanks in it is
dropped.
-/
import Vellum.Proxy.Normalizer

namespace Vellum.Proxy

open List Option Json

namespace ThirdPartySseNormalizer

/-- A well-formed event of the protocol: its payload names it, has the shapes
the protocol defines, and has no field twice. -/
structure WellFormed (upstream : Upstream) : Prop where
  valid : validateKnownSseEvent upstream.1 upstream.2 = .ok ()
  named : upstream.2.get "type" = some (.str upstream.1)
  distinct : ∀ fields, upstream.2 = .obj fields →
    (fields.map Prod.fst).Nodup

section

variable {event : String} {value : Json} {upstream : Upstream}
  (heuristics : Bool)

theorem get_cleaned (hformed : WellFormed ("response.output_text.delta", value))
    {key : String} (hresponse : key ≠ "response")
    (hreasoning : key ∉ reasoningNames) (htext : key ≠ "text") :
    (cleaned heuristics value).get key =
      if key = "delta" then
        (value.get key).map fun delta => stripString heuristics
          (stripProviderControlTokens heuristics
            (normalizeReadableReasoning delta))
      else
        (value.get key).map fun delta =>
          stripProviderControlTokens heuristics
            (normalizeReadableReasoning delta) := by
  have htype : value.get "type" = some (.str "response.output_text.delta") :=
    hformed.named
  cases value with
  | obj fields =>
    obtain ⟨opened, hopened, hnames⟩ : ∃ opened,
        dropDoomLoopCheck (.obj fields) = .obj opened ∧
          opened.map Prod.fst = fields.map Prod.fst :=
      modify_obj "response" _ fields
    have hdropped (key : String) (hkey : key ≠ "response") :
        (Json.obj opened).get key = (Json.obj fields).get key := by
      rw [← hopened, get_dropDoomLoopCheck hkey]
    have hnodup : (opened.map Prod.fst).Nodup := by
      rw [hnames]
      exact hformed.distinct fields rfl
    have hopenedType := (hdropped "type" (by decide)).trans htype
    have hstripped (key : String) (hkey : key ∉ reasoningNames) :
        (Json.obj (stripFields heuristics (readableObject (.obj opened)
          (readableFields opened)))).get key =
        ((Json.obj opened).get key).map fun value =>
          stripProviderControlTokens heuristics
            (normalizeReadableReasoning value) := by
      have hfield := get_normalizeReadable hnodup hkey
      rw [normalizeReadableReasoning] at hfield
      rw [get_stripFields, hfield, Option.map_map]
      rfl
    have hkind : ((Json.obj (stripFields heuristics (readableObject
        (.obj opened) (readableFields opened)))).get "type").bind
        Json.asStr = some "response.output_text.delta" := by
      rw [hstripped "type" (by decide), hopenedType]
      rfl
    have hcleaned : cleaned heuristics (.obj fields) =
        ((Json.obj (stripFields heuristics (readableObject (.obj opened)
          (readableFields opened)))).modify "delta"
            (stripString heuristics)).modify "text"
            (stripString heuristics) := by
      rw [cleaned, hopened, normalizeReadableReasoning,
        stripProviderControlTokens, stripObject, hkind]
      exact if_pos (Or.inl rfl)
    rw [hcleaned, get_modify, if_neg htext, get_modify,
      hstripped key hreasoning, hdropped key hresponse]
    split
    · rw [Option.map_map]
      rfl
    · rfl
  | null | bool | num | str | arr => cases htype

/-- The delta of an event; without one it is empty. -/
def deltaText (value : Json) : String :=
  ((value.get "delta").bind Json.asStr).getD ""

theorem deltaText_cleaned
    (hformed : WellFormed ("response.output_text.delta", value))
    (hempty : stripProviderControlTokensFromText heuristics "" = "") :
    deltaText (cleaned heuristics value) =
      stripProviderControlTokensFromText heuristics (deltaText value) := by
  rw [deltaText, get_cleaned heuristics hformed (by decide) (by decide)
    (by decide), if_pos rfl, deltaText]
  cases value.get "delta" with
  | none => exact hempty.symm
  | some delta =>
    have hstr := asStr_strip heuristics delta
    rw [map_some, bind_some, bind_some]
    generalize stripProviderControlTokens heuristics
      (normalizeReadableReasoning delta) = stripped at hstr
    rw [← hstr]
    cases stripped with
    | str text => rfl
    | null | bool | num | arr | obj => exact hempty.symm

theorem asU64_cleaned
    (hformed : WellFormed ("response.output_text.delta", value)) {key : String}
    (hresponse : key ≠ "response") (hreasoning : key ∉ reasoningNames)
    (htext : key ≠ "text") (hdelta : key ≠ "delta") :
    ((cleaned heuristics value).get key).bind Json.asU64 =
      (value.get key).bind Json.asU64 := by
  rw [get_cleaned heuristics hformed hresponse hreasoning htext,
    if_neg hdelta]
  cases value.get key with
  | none => rfl
  | some number => exact asU64_strip heuristics number

/-- The text part an event belongs to. -/
def textPart (value : Json) : Nat × Nat :=
  (outputIndex value, contentIndex value)

theorem textPart_cleaned
    (hformed : WellFormed ("response.output_text.delta", value)) :
    textPart (cleaned heuristics value) = textPart value := by
  rw [textPart, textPart, outputIndex, outputIndex, contentIndex,
    contentIndex, asU64_cleaned heuristics hformed (by decide) (by decide)
      (by decide) (by decide), asU64_cleaned heuristics hformed (by decide)
      (by decide) (by decide) (by decide)]

/-- The delta a frame adds to a text part. -/
def frameDelta (part : Nat × Nat) : Frame → Option String
  | .event name value =>
    if name = "response.output_text.delta" ∧ textPart value = part then
      some (deltaText value)
    else none
  | .raw _ => none

theorem frameDelta_of_name {name : String}
    (hname : name ≠ "response.output_text.delta") (part : Nat × Nat)
    (value : Json) : frameDelta part (.event name value) = none :=
  if_neg fun hdelta => hname hdelta.1

theorem frameDelta_forward (hevent : event ≠ "response.output_text.delta")
    (part : Nat × Nat) (crates : Crates) (normalizer : ThirdPartySseNormalizer)
    (value : Json) :
    ∀ frame ∈ (forward crates normalizer event value).2,
      frameDelta part frame = none := by
  intro frame hframe
  rcases forward_cases crates normalizer event value with
    ⟨-, hforward⟩ | ⟨-, -, hforward⟩ | ⟨-, -, hforward⟩
  · rw [hforward] at hframe
    cases hframe
  · rw [hforward] at hframe
    rcases complete_cases crates (normalizer.noteCall value) event value with
      ⟨message, hcomplete⟩ | ⟨completed, hcomplete⟩
    · rw [hcomplete] at hframe
      obtain rfl := mem_singleton.mp hframe
      exact frameDelta_of_name (by decide) part _
    · rw [hcomplete] at hframe
      rcases mem_append.mp hframe with hreleased | hcompleted
      · obtain ⟨pending, -, rfl⟩ := List.mem_map.mp hreleased
        exact frameDelta_of_name (by decide) part _
      · obtain rfl := mem_singleton.mp hcompleted
        exact frameDelta_of_name hevent part _
  · rw [hforward] at hframe
    obtain rfl := mem_singleton.mp hframe
    exact frameDelta_of_name hevent part value

theorem frameDelta_handle (hevent : event ≠ "response.output_text.delta")
    (part : Nat × Nat) (crates : Crates) (normalizer : ThirdPartySseNormalizer)
    (value : Json) :
    (handle crates normalizer event value).2.filterMap (frameDelta part) =
      [] := by
  rw [filterMap_eq_nil_iff]
  rcases handle_cases crates normalizer event value with
    ⟨-, hconsumed⟩ | ⟨before, -, hforward⟩
  · intro frame hframe
    obtain ⟨value, rfl | rfl⟩ := hconsumed.frames frame hframe
    · exact frameDelta_of_name (by decide) part value
    · exact frameDelta_of_name (by decide) part value
  · rw [hforward]
    exact frameDelta_forward hevent part crates _ _

/-- Without the heuristics a text delta is forwarded as it is, unless it is
blank. -/
theorem handle_textDelta {normalizer : ThirdPartySseNormalizer}
    (hheuristics : normalizer.payloadReplayHeuristics = false)
    (crates : Crates) (value : Json) :
    (handle crates normalizer "response.output_text.delta" value).2 =
      if isBlank (deltaText value) then []
      else [.event "response.output_text.delta" value] := by
  have hitem (before : ThirdPartySseNormalizer) :
      (handleItem crates before "response.output_text.delta" value).2 =
        [.event "response.output_text.delta" value] := by
    have hrestored : restoreItem crates before "response.output_text.delta"
        value = (before, value) := by
      rw [restoreItem]
      split
      · exact if_neg (by decide)
      · rfl
    rcases handleItem_cases crates before "response.output_text.delta" value
      with ⟨harguments, -⟩ | hforward
    · exact absurd harguments (by decide)
    · rw [hforward, hrestored]
      rcases forward_cases crates before "response.output_text.delta" value
        with ⟨hmessage, -⟩ | ⟨-, hcompleted, -⟩ | ⟨-, -, hout⟩
      · rw [isMessageDone, Bool.and_eq_true] at hmessage
        exact absurd hmessage.1 (by decide)
      · exact absurd hcompleted (by decide)
      · rw [hout]
  rw [handle, if_pos rfl]
  by_cases hblank : isBlank (deltaText value) = true
  · have hdropped : normalizer.textDelta value = (normalizer, false) :=
      if_pos hblank
    rw [hdropped, if_pos hblank]
    rfl
  · have hkept : (normalizer.textDelta value).2 = true := by
      rw [textDelta, hheuristics]
      rw [deltaText] at hblank
      rw [if_neg hblank, Bool.false_and, Bool.false_and,
        if_neg Bool.false_ne_true]
    rw [if_neg hblank]
    simp only [if_pos hkept]
    exact hitem _

local instance : LawfulBEq (String × Nat) := inferInstance

/-- The events of a stream, each pair of event and sequence number counted
once, and every event without a number. -/
def countOnce (seen : List (String × Nat)) : List Upstream → List Upstream
  | [] => []
  | upstream :: rest =>
    let pair := identity upstream.1 upstream.2
    if pair.any (· ∈ seen) then countOnce seen rest
    else upstream :: countOnce (pair.toList ++ seen) rest

/-- What an upstream event adds to a text part: its delta without control
tokens. -/
def upstreamDelta (part : Nat × Nat) (upstream : Upstream) : Option String :=
  if upstream.1 = "response.output_text.delta" ∧
      textPart upstream.2 = part then
    some (stripProviderControlTokensFromText false (deltaText upstream.2))
  else none

/-- The deltas of a text part that a stream brings. -/
def upstreamDeltas (part : Nat × Nat) (events : List Upstream) :
    List String :=
  (countOnce [] events).filterMap (upstreamDelta part)

/-- The deltas of a text part that reach the client. -/
def forwardedDeltas (part : Nat × Nat) (frames : List Frame) : List String :=
  frames.filterMap (frameDelta part)

/-- Blocks that parse as well-formed events. -/
def Parsed (crates : Crates) (blocks : List (List Char))
    (events : List Upstream) : Prop :=
  List.Forall₂ (fun block upstream =>
    parseSseValue crates block = some upstream ∧ WellFormed upstream)
    blocks events

/-- The private event is not recorded, so it is left out of the comparison. -/
def SameSeen (normalizer : ThirdPartySseNormalizer)
    (seen : List (String × Nat)) : Prop :=
  ∀ pair : String × Nat, pair.1 ≠ "response.doom_loop_check" →
    (pair ∈ normalizer.seenSequenceNumbers ↔ pair ∈ seen)

theorem isDoomLoopCheck_iff (hformed : WellFormed upstream) :
    isDoomLoopCheck upstream.1 upstream.2 = true ↔
      upstream.1 = "response.doom_loop_check" := by
  simp [isDoomLoopCheck, hformed.named, Json.asStr]

theorem fst_of_identity {pair : String × Nat}
    (hpair : identity event value = some pair) : pair.1 = event := by
  obtain ⟨sequence, -, rfl⟩ := map_eq_some_iff.mp hpair
  rfl

theorem pushBlock_of_parse {crates : Crates} {block : List Char}
    (hparse : parseSseValue crates block = some upstream)
    (hformed : WellFormed upstream) (normalizer : ThirdPartySseNormalizer) :
    normalizer.pushBlock crates block =
      match (normalizer.accept upstream.1 upstream.2).2 with
      | none => .ok ((normalizer.accept upstream.1 upstream.2).1, [])
      | some value => .ok (handle crates
          (normalizer.accept upstream.1 upstream.2).1 upstream.1 value) := by
  obtain ⟨event, value⟩ := upstream
  have hvalid : validateKnownSseEvent event value = .ok () := hformed.valid
  cases haccept : (normalizer.accept event value).2 with
  | none => simp only [pushBlock, hparse, hvalid, haccept]
  | some value => simp only [pushBlock, hparse, hvalid, haccept]

/-- An accepted event forwards what it adds to a text part, unless that is
blank. -/
theorem forwardedDeltas_handle (hformed : WellFormed upstream)
    {normalizer : ThirdPartySseNormalizer}
    (hheuristics : normalizer.payloadReplayHeuristics = false) (crates : Crates)
    (part : Nat × Nat) :
    forwardedDeltas part
        (handle crates normalizer upstream.1 (cleaned false upstream.2)).2 =
      (upstreamDelta part upstream).toList.filter
        (fun delta => !isBlank delta) := by
  obtain ⟨event, value⟩ := upstream
  by_cases hdelta : event = "response.output_text.delta"
  · subst hdelta
    have htext := deltaText_cleaned false hformed rfl
    have hpart := textPart_cleaned false hformed
    have hframe : frameDelta part
        (.event "response.output_text.delta" (cleaned false value)) =
        upstreamDelta part ("response.output_text.delta", value) := by
      rw [frameDelta, upstreamDelta, htext, hpart]
    rw [forwardedDeltas, handle_textDelta hheuristics, htext]
    by_cases hown : textPart value = part
    · have hcount : upstreamDelta part ("response.output_text.delta", value) =
          some (stripProviderControlTokensFromText false
            (deltaText value)) := if_pos ⟨rfl, hown⟩
      rw [hcount] at hframe ⊢
      generalize stripProviderControlTokensFromText false (deltaText value) =
        delta at hframe ⊢
      by_cases hblank : isBlank delta = true
      · rw [if_pos hblank]
        simp [hblank]
      · rw [if_neg hblank, filterMap_cons, hframe]
        simp [hblank]
    · have hcount : upstreamDelta part ("response.output_text.delta", value) =
          none := if_neg fun hboth => hown hboth.2
      rw [hcount] at hframe ⊢
      generalize stripProviderControlTokensFromText false (deltaText value) =
        delta
      by_cases hblank : isBlank delta = true
      · rw [if_pos hblank]
        rfl
      · rw [if_neg hblank, filterMap_cons, hframe]
        rfl
  · have hcount : upstreamDelta part (event, value) = none :=
      if_neg fun hboth => hdelta hboth.1
    rw [hcount]
    exact frameDelta_handle hdelta part crates normalizer _

end

/-- One event is accounted for: what it forwards to a text part and what is
counted of the events behind it is what the stream brings from it on. -/
def Accounted (crates : Crates) (part : Nat × Nat)
    (normalizer : ThirdPartySseNormalizer) (block : List Char)
    (upstream : Upstream) (seen : List (String × Nat)) : Prop :=
  ∃ next frames counted,
    normalizer.pushBlock crates block = .ok (next, frames) ∧
    next.payloadReplayHeuristics = false ∧
    SameSeen next counted ∧
    ∀ rest, ((countOnce seen (upstream :: rest)).filterMap
      (upstreamDelta part)).filter (fun delta => !isBlank delta) =
        forwardedDeltas part frames ++
          ((countOnce counted rest).filterMap (upstreamDelta part)).filter
            (fun delta => !isBlank delta)

section Accounting

variable {crates : Crates} {block : List Char} {upstream : Upstream}
  {normalizer : ThirdPartySseNormalizer} {seen : List (String × Nat)}

section

variable
  (hpush : normalizer.pushBlock crates block =
      .ok ((normalizer.accept upstream.1 upstream.2).1, []))
variable
  (hoff : (normalizer.accept
      upstream.1 upstream.2).1.payloadReplayHeuristics = false)
include hpush hoff

theorem accounted_of_counted
    (hkept : SameSeen (normalizer.accept upstream.1 upstream.2).1 seen)
    (hcounted : (identity upstream.1 upstream.2).any (· ∈ seen))
    (part : Nat × Nat) :
    Accounted crates part normalizer block upstream seen := by
  refine ⟨_, _, seen, hpush, hoff, hkept, ?_⟩
  intro rest
  rw [countOnce, if_pos hcounted]
  rfl

/-- A private check is dropped; its number is nobody else's. -/
theorem accounted_of_doom
    (hkept : SameSeen (normalizer.accept upstream.1 upstream.2).1 seen)
    (hdoom : upstream.1 = "response.doom_loop_check")
    (hcounted : ¬ (identity upstream.1 upstream.2).any (· ∈ seen))
    (part : Nat × Nat) :
    Accounted crates part normalizer block upstream seen := by
  have hother : upstreamDelta part upstream = none :=
    if_neg fun hdelta => by
      rw [hdoom] at hdelta
      exact absurd hdelta.1 (by decide)
  refine ⟨_, _, (identity upstream.1 upstream.2).toList ++ seen, hpush, hoff,
    ?_, ?_⟩
  · intro pair hpair
    rw [hkept pair hpair, mem_append, mem_toList]
    refine ⟨Or.inr, fun hmem => hmem.resolve_left ?_⟩
    intro hidentity
    exact hpair ((fst_of_identity hidentity).trans hdoom)
  · intro rest
    rw [countOnce, if_neg hcounted, filterMap_cons, hother]
    rfl

end

/-- An event that is new is handled and counted. -/
theorem accounted_of_accepted (hformed : WellFormed upstream)
    (hheuristics : normalizer.payloadReplayHeuristics = false)
    (hseen : SameSeen normalizer seen)
    (hpush : normalizer.pushBlock crates block =
      .ok (handle crates (normalizer.accept upstream.1 upstream.2).1
        upstream.1 (cleaned false upstream.2)))
    (haccepted : Accepted normalizer
      (normalizer.accept upstream.1 upstream.2).1 upstream.1 upstream.2)
    (hcounted : ¬ (identity upstream.1 upstream.2).any (· ∈ seen))
    (part : Nat × Nat) :
    Accounted crates part normalizer block upstream seen := by
  have hoff := haccepted.heuristics.trans hheuristics
  have hsettings := handle_settings crates
    (normalizer.accept upstream.1 upstream.2).1 upstream.1
    (cleaned false upstream.2)
  refine ⟨(handle crates (normalizer.accept upstream.1 upstream.2).1
      upstream.1 (cleaned false upstream.2)).1,
    (handle crates (normalizer.accept upstream.1 upstream.2).1
      upstream.1 (cleaned false upstream.2)).2,
    (identity upstream.1 upstream.2).toList ++ seen, hpush,
    hsettings.1.trans hoff, ?_, ?_⟩
  · intro pair hpair
    rw [hsettings.2, haccepted.seen, mem_append, mem_append,
      hseen pair hpair]
  · intro rest
    rw [countOnce, if_neg hcounted, forwardedDeltas_handle hformed hoff,
      ← filter_append]
    congr 1
    rw [filterMap_cons]
    cases upstreamDelta part upstream <;> rfl

/-- Every well-formed event is accounted for. -/
theorem pushBlock_deltas (hparse : parseSseValue crates block = some upstream)
    (hformed : WellFormed upstream)
    (hheuristics : normalizer.payloadReplayHeuristics = false)
    (hseen : SameSeen normalizer seen) (part : Nat × Nat) :
    Accounted crates part normalizer block upstream seen := by
  rcases accept_cases normalizer upstream.1 upstream.2 with
    ⟨hreason, hsame, hnone⟩ | ⟨hpublic, hfresh, haccepted, hvalue⟩
  · have hpush : normalizer.pushBlock crates block =
        .ok ((normalizer.accept upstream.1 upstream.2).1, []) := by
      rw [pushBlock_of_parse hparse hformed, hnone]
    have hoff := hsame.heuristics.trans hheuristics
    have hkept : SameSeen (normalizer.accept upstream.1 upstream.2).1 seen := by
      intro pair hpair
      rw [hsame.seen]
      exact hseen pair hpair
    by_cases hdoom : upstream.1 = "response.doom_loop_check"
    · by_cases hcounted : (identity upstream.1 upstream.2).any (· ∈ seen)
      · exact accounted_of_counted hpush hoff hkept hcounted part
      · exact accounted_of_doom hpush hoff hkept hdoom hcounted part
    · have hreplayed : ∃ pair ∈ normalizer.seenSequenceNumbers,
          identity upstream.1 upstream.2 = some pair :=
        hreason.resolve_left fun hprivate =>
          hdoom ((isDoomLoopCheck_iff hformed).mp hprivate)
      obtain ⟨pair, hpair, hidentity⟩ := hreplayed
      have hcounted : (identity upstream.1 upstream.2).any (· ∈ seen) := by
        rw [hidentity]
        have hname := fst_of_identity hidentity
        simpa using (hseen pair (hname ▸ hdoom)).mp hpair
      exact accounted_of_counted hpush hoff hkept hcounted part
  · have hdoom : upstream.1 ≠ "response.doom_loop_check" := by
      intro hdoom
      rw [(isDoomLoopCheck_iff hformed).mpr hdoom] at hpublic
      cases hpublic
    have hcounted : ¬ (identity upstream.1 upstream.2).any (· ∈ seen) := by
      cases hidentity : identity upstream.1 upstream.2 with
      | none => simp
      | some pair =>
        have hname := fst_of_identity hidentity
        have hnot : pair ∉ seen := fun hmem =>
          hfresh pair ((hseen pair (hname ▸ hdoom)).mpr hmem) hidentity
        simpa using hnot
    have hpush : normalizer.pushBlock crates block =
        .ok (handle crates (normalizer.accept upstream.1 upstream.2).1
          upstream.1 (cleaned false upstream.2)) := by
      rw [pushBlock_of_parse hparse hformed, hvalue, hheuristics]
    exact accounted_of_accepted hformed hheuristics hseen hpush haccepted
      hcounted part

end Accounting

/-- A whole stream: what reaches a text part is what the stream brings for it,
without the blank deltas. -/
theorem forwarded_eq_filter {crates : Crates} {blocks : List (List Char)}
    {events : List Upstream} (hparsed : Parsed crates blocks events)
    {normalizer : ThirdPartySseNormalizer}
    (hheuristics : normalizer.payloadReplayHeuristics = false)
    (seen : List (String × Nat)) (hseen : SameSeen normalizer seen)
    (part : Nat × Nat) :
    forwardedDeltas part (pushBlocks crates normalizer blocks).2 =
      ((countOnce seen events).filterMap (upstreamDelta part)).filter
        (fun delta => !isBlank delta) := by
  induction hparsed generalizing normalizer seen with
  | nil => rfl
  | cons hblock _ ih =>
    obtain ⟨next, frames, counted, hpush, hoff, hnext, hdeltas⟩ :=
      pushBlock_deltas hblock.1 hblock.2 hheuristics hseen part
    rw [hdeltas, pushBlocks, hpush, ← ih hoff counted hnext]
    exact filterMap_append ..

theorem length_join_filter_le (keep : String → Bool) (deltas : List String) :
    (String.join (deltas.filter keep)).length ≤ (String.join deltas).length := by
  induction deltas with
  | nil => exact Nat.le_refl _
  | cons delta deltas ih =>
    rw [filter_cons, String.join_cons, String.length_append]
    split
    · rw [String.join_cons, String.length_append]
      omega
    · omega

/-- Nothing is lost exactly when all that is dropped is empty. -/
theorem join_filter_iff (keep : String → Bool) (deltas : List String) :
    String.join (deltas.filter keep) = String.join deltas ↔
      ∀ delta ∈ deltas, keep delta = false → delta = "" := by
  induction deltas with
  | nil => simp
  | cons delta deltas ih =>
    rw [forall_mem_cons, ← ih, filter_cons, String.join_cons]
    by_cases hkeep : keep delta = true
    · rw [if_pos hkeep, String.join_cons, String.append_right_inj]
      simp [hkeep]
    · rw [if_neg hkeep]
      rw [Bool.not_eq_true] at hkeep
      constructor
      · intro hjoin
        have hshorter := length_join_filter_le keep deltas
        have hlength := congrArg String.length hjoin
        rw [String.length_append] at hlength
        have hempty : delta = "" := by
          rw [← String.length_eq_zero_iff]
          omega
        rw [hempty, String.empty_append] at hjoin
        exact ⟨fun _ => hempty, hjoin⟩
      · rintro ⟨hempty, hjoin⟩
        rw [hempty hkeep, String.empty_append]
        exact hjoin

/-- The text of a part reaches the client whole exactly when none of its
deltas is blank without being empty. -/
theorem text_kept_iff {crates : Crates} {blocks : List (List Char)}
    {events : List Upstream} (hparsed : Parsed crates blocks events)
    (request : Json) (part : Nat × Nat) :
    String.join (forwardedDeltas part
        (pushBlocks crates (new request false) blocks).2) =
      String.join (upstreamDeltas part events) ↔
      ∀ delta ∈ upstreamDeltas part events,
        isBlank delta = true → delta = "" := by
  have hseen : SameSeen (new request false) [] := fun _ _ => Iff.rfl
  rw [forwarded_eq_filter hparsed rfl [] hseen part]
  refine (join_filter_iff _ _).trans ?_
  simp only [Bool.not_eq_false', upstreamDeltas]

namespace Words

def dataText (delta : String) : String :=
  "\x7b\"type\":\"response.output_text.delta\",\"output_index\":0," ++
    "\"content_index\":0,\"delta\":\"" ++ delta ++ "\"\x7d"

def value (delta : String) : Json :=
  .obj [("type", .str "response.output_text.delta"),
    ("output_index", .nat 0), ("content_index", .nat 0),
    ("delta", .str delta)]

def block (delta : String) : List Char :=
  ("event: response.output_text.delta\ndata: " ++ dataText delta).toList

/-- JSON on the texts below. -/
def crates : Crates where
  fromStr text := (["Hello", " ", "world"].find? fun delta =>
    text = dataText delta).map value
  toStr _ := ""
  sha256 _ := []

variable (delta : String)

theorem wellFormed_value :
    WellFormed ("response.output_text.delta", value delta) := by
  have hindex : (Json.nat 0).asU64 = some 0 := by decide
  have hget (key : String) : (value delta).get key =
      if "type" = key then some (.str "response.output_text.delta")
      else if "output_index" = key then some (.nat 0)
      else if "content_index" = key then some (.nat 0)
      else if "delta" = key then some (.str delta) else none := by
    rw [value, get_cons, get_cons, get_cons, get_cons]
    rfl
  refine ⟨?_, rfl, ?_⟩
  · have hknown :
        isKnownProtocolEvent "response.output_text.delta" = true := by decide
    have hobject : (value delta).isObject = true := rfl
    simp only [validateKnownSseEvent, hknown, hobject, Bool.not_true,
      if_neg Bool.false_ne_true, checkFields, hget]
    simp [hindex, Json.asStr]
    rfl
  · intro fields hfields
    obtain rfl := Json.obj.inj hfields
    have hnames : ["type", "output_index", "content_index", "delta"].Nodup := by
      decide
    exact hnames

theorem feed_notMem_dataText {delta : String} (hfeed : '\n' ∉ delta.toList) :
    '\n' ∉ (dataText delta).toList := by
  refine Text.notMem_toList_append (Text.notMem_toList_append
    (Text.notMem_toList_append ?_ ?_) hfeed) ?_
  · exact Text.notMem_toList_ofList (by decide)
  · exact Text.notMem_toList_ofList (by decide)
  · exact Text.notMem_toList_ofList (by decide)

theorem block_eq :
    block delta = "event: ".toList ++ "response.output_text.delta".toList ++
      '\n' :: ("data: ".toList ++ (dataText delta).toList) := by
  have hfront : "event: response.output_text.delta\ndata: ".toList = _ :=
    String.toList_ofList
  have hevent : "event: ".toList = _ := String.toList_ofList
  have hname : "response.output_text.delta".toList = _ := String.toList_ofList
  rw [block, String.toList_append, hfront, hevent, hname, toList_dataFront]
  rfl

theorem fromStr_dataText : ∀ delta ∈ ["Hello", " ", "world"],
    crates.fromStr (dataText delta) = some (value delta) := by
  decide

theorem parse_block (hdelta : delta ∈ ["Hello", " ", "world"]) :
    parseSseValue crates (block delta) =
      some ("response.output_text.delta", value delta) := by
  have hfeed : ∀ delta ∈ ["Hello", " ", "world"], '\n' ∉ delta.toList := by
    decide
  rw [parseSseValue_event crates (block_eq delta)
    (Text.notMem_toList_ofList (by decide)) (by decide)
    (feed_notMem_dataText (hfeed delta hdelta)), fromStr_dataText delta hdelta]
  rfl

def upstream (delta : String) : Upstream :=
  ("response.output_text.delta", value delta)

theorem parsed_blocks (deltas : List String)
    (hdeltas : deltas ⊆ ["Hello", " ", "world"]) :
    Parsed crates (deltas.map block) (deltas.map upstream) := by
  rw [Parsed, List.forall₂_map_left_iff, List.forall₂_map_right_iff,
    List.forall₂_same]
  intro delta hdelta
  exact ⟨parse_block delta (hdeltas hdelta), wellFormed_value delta⟩

/-- The blank between two words is dropped. -/
theorem blank_lost :
    Parsed crates (["Hello", " ", "world"].map block)
        (["Hello", " ", "world"].map upstream) ∧
      String.join (forwardedDeltas (0, 0) (pushBlocks crates
        (new (.obj []) false) (["Hello", " ", "world"].map block)).2) ≠
      String.join (upstreamDeltas (0, 0)
        (["Hello", " ", "world"].map upstream)) := by
  have hparsed := parsed_blocks _ (List.Subset.refl ["Hello", " ", "world"])
  refine ⟨hparsed, ?_⟩
  rw [forwarded_eq_filter hparsed rfl [] fun _ _ => Iff.rfl]
  decide

/-- Words that carry no blank delta between them are kept. -/
theorem words_kept :
    String.join (forwardedDeltas (0, 0) (pushBlocks crates
        (new (.obj []) false) (["Hello", "world"].map block)).2) =
      String.join (upstreamDeltas (0, 0)
        (["Hello", "world"].map upstream)) := by
  have hparsed := parsed_blocks ["Hello", "world"] (by decide)
  exact (text_kept_iff hparsed (.obj []) (0, 0)).mpr (by decide)

end Words

end ThirdPartySseNormalizer

end Vellum.Proxy

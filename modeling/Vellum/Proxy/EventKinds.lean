/-
The two names of an event.  The normalizer validates a block under the name of
its event line and only without one under the type of its payload, while the
completion tracker, and the client behind it, go by the payload's type.  An
event line outside the protocol therefore switches the validation of a protocol
event off.
-/
import Vellum.Proxy.CompletionTracker
import Vellum.Proxy.Normalizer

namespace Vellum.Proxy

/-- The name on the first event line of a block. -/
def eventLine (block : List Char) : Option String :=
  ((Text.lines block).findSome? (stripSseField · "event".toList)).map
    String.ofList

/-- The kind a payload names itself. -/
def payloadKind (value : Json) : Option String :=
  (value.get "type").bind Json.asStr

/-- The payload violates a shape that is checked for the event. -/
def Misshapen (event : String) (value : Json) : Prop :=
  ∃ error, validateKnownSseEvent event value = .error error

variable {event : String} {value : Json}

theorem parseSseValue_eq_some_iff {crates : Crates} {block : List Char} :
    parseSseValue crates block = some (event, value) ↔
      ∃ data, (Text.lines block).findSome? (stripSseField · "data".toList) =
          some data ∧
        crates.fromStr (String.ofList data) = some value ∧
        ((eventLine block).or (payloadKind value)).getD "message" = event := by
  unfold parseSseValue
  simp only
  cases (Text.lines block).findSome? (stripSseField · "data".toList) with
  | none => simp
  | some data =>
    simp only [Option.map_eq_some_iff, Prod.mk.injEq, Option.some.injEq]
    constructor
    · rintro ⟨found, hfound, hevent, rfl⟩
      exact ⟨data, rfl, hfound, hevent⟩
    · rintro ⟨_, rfl, hfound, hevent⟩
      exact ⟨value, hfound, hevent, rfl⟩

/-- The tracker reads the payload the normalizer has validated. -/
theorem feedBlock_of_parse {crates : Crates} {block : List Char}
    (hparse : parseSseValue crates block = some (event, value))
    (tracker : SseCompletionTracker) :
    tracker.feedBlock crates.fromStr block = tracker.feedValue value := by
  obtain ⟨data, hdata, hvalue, -⟩ := parseSseValue_eq_some_iff.mp hparse
  rw [SseCompletionTracker.feedBlock, hdata]
  simp only [hvalue]

/-- The verdict on a list of fields does not depend on the event's name. -/
theorem checkFields_error_iff {other : String} {expected : String}
    {isExpected : Json → Bool} {fields : List String} :
    (∃ error, checkFields event value expected isExpected fields =
        .error error) ↔
      ∃ error, checkFields other value expected isExpected fields =
        .error error := by
  induction fields with
  | nil =>
    constructor
    · rintro ⟨error, herror⟩
      cases herror
    · rintro ⟨error, herror⟩
      cases herror
  | cons field rest ih =>
    simp only [checkFields]
    split
    · split
      · exact ih
      · exact ⟨fun _ => ⟨_, rfl⟩, fun _ => ⟨_, rfl⟩⟩
    · exact ih

/-- Of two checks in turn, one fails. -/
theorem bind_error_iff {ε : Type} (first second : Except ε Unit) :
    (∃ error, (first >>= fun _ => second) = .error error) ↔
      (∃ error, first = .error error) ∨ ∃ error, second = .error error := by
  cases first with
  | error error => exact ⟨fun _ => Or.inl ⟨error, rfl⟩, fun _ => ⟨error, rfl⟩⟩
  | ok _ =>
    constructor
    · exact fun hsecond => Or.inr hsecond
    · rintro (⟨error, hfirst⟩ | hsecond)
      · cases hfirst
      · exact hsecond

/-- All known events are checked for the same shapes, and no other event is
checked for any. -/
theorem misshapen_iff {kind : String}
    (hknown : isKnownProtocolEvent kind = true) :
    Misshapen event value ↔
      isKnownProtocolEvent event = true ∧ Misshapen kind value := by
  unfold Misshapen validateKnownSseEvent
  rw [hknown]
  cases isKnownProtocolEvent event with
  | false =>
    constructor
    · rintro ⟨error, herror⟩
      cases herror
    · rintro ⟨hfalse, _⟩
      cases hfalse
  | true =>
    simp only [Bool.not_true, Bool.false_eq_true, ↓reduceIte, true_and]
    split
    · exact ⟨fun _ => ⟨_, rfl⟩, fun _ => ⟨_, rfl⟩⟩
    · rw [bind_error_iff, bind_error_iff, bind_error_iff, bind_error_iff]
      exact or_congr checkFields_error_iff
        (or_congr checkFields_error_iff checkFields_error_iff)

namespace ThirdPartySseNormalizer

theorem pushBlock_error_iff {crates : Crates}
    {normalizer : ThirdPartySseNormalizer} {block : List Char}
    {event : String} {value : Json}
    (hparse : parseSseValue crates block = some (event, value)) :
    (∃ error, normalizer.pushBlock crates block = .error error) ↔
      Misshapen event value := by
  unfold pushBlock Misshapen
  rw [hparse]
  simp only
  cases validateKnownSseEvent event value with
  | error error => exact ⟨fun _ => ⟨error, rfl⟩, fun _ => ⟨error, rfl⟩⟩
  | ok _ =>
    simp only
    split <;> simp

/-- The event line, if there is one, names an event of the protocol. -/
def LineKnown (block : List Char) : Prop :=
  ∀ line, eventLine block = some line → isKnownProtocolEvent line = true

theorem event_known_iff {crates : Crates} {block : List Char}
    {event kind : String} {value : Json}
    (hparse : parseSseValue crates block = some (event, value))
    (hkind : payloadKind value = some kind)
    (hknown : isKnownProtocolEvent kind = true) :
    isKnownProtocolEvent event = true ↔ LineKnown block := by
  obtain ⟨-, -, -, rfl⟩ := parseSseValue_eq_some_iff.mp hparse
  rw [LineKnown, hkind]
  cases eventLine block with
  | none =>
    refine ⟨fun _ _ hline => ?_, fun _ => hknown⟩
    cases hline
  | some line => simp

/-- A block whose payload names a protocol event, which is how the tracker
reads it, is validated as one exactly if its event line does not name something
else; and if the payload has not the shape of that event, just then is the block
rejected. -/
theorem misshapen_rejected_iff {crates : Crates}
    (normalizer : ThirdPartySseNormalizer) {block : List Char}
    {event kind : String} {value : Json}
    (hparse : parseSseValue crates block = some (event, value))
    (hkind : payloadKind value = some kind)
    (hknown : isKnownProtocolEvent kind = true) :
    (∀ tracker : SseCompletionTracker,
      tracker.feedBlock crates.fromStr block = tracker.feedValue value) ∧
    (isKnownProtocolEvent event = isKnownProtocolEvent kind ↔
      LineKnown block) ∧
    (Misshapen kind value →
      ((∃ error, normalizer.pushBlock crates block = .error error) ↔
        LineKnown block)) := by
  have hevent := event_known_iff hparse hkind hknown
  refine ⟨feedBlock_of_parse hparse, ?_, ?_⟩
  · rw [hknown]
    exact hevent
  · intro hmisshapen
    rw [pushBlock_error_iff hparse, misshapen_iff hknown, ← hevent]
    exact and_iff_left hmisshapen

namespace ForeignLine

/-- A completed item that is a number. -/
def payload : Json :=
  .obj [("type", .str "response.output_item.done"), ("item", .nat 5)]

def payloadText : String :=
  "\x7b\"type\":\"response.output_item.done\",\"item\":5\x7d"

/-- JSON on the payload above. -/
def crates : Crates where
  fromStr text := if text = payloadText then some payload else none
  toStr value := if value = payload then payloadText else ""
  sha256 _ := []

def bareBlock : List Char := ("data: " ++ payloadText).toList

def foreignBlock : List Char :=
  ("event: message\ndata: " ++ payloadText).toList

/-- Under the event line of another protocol the item passes, and the tracker
takes it from the forwarded frame for a completed output item. -/
theorem foreign_line_passes :
    payloadKind payload = some "response.output_item.done" ∧
    Misshapen "response.output_item.done" payload ∧
    (({} : ThirdPartySseNormalizer).pushBlock crates foreignBlock).toOption.map
        Prod.snd = some [.event "message" payload] ∧
    (SseCompletionTracker.feedBlocks crates.fromStr
        { utf8 := ((Frame.event "message" payload).text crates).toList
        }).completedItems = [.nat 5] := by
  refine ⟨by decide, ⟨_, rfl⟩, by decide, by decide +kernel⟩

/-- Without an event line the same payload is rejected. -/
theorem bare_block_rejected :
    (∃ error, ({} : ThirdPartySseNormalizer).pushBlock crates bareBlock =
        .error error) ∧
      LineKnown bareBlock := by
  have hparse : parseSseValue crates bareBlock =
      some ("response.output_item.done", payload) := by
    have hfeed : '\n' ∉ payloadText.toList :=
      Text.notMem_toList_ofList (by decide)
    have hpayload : crates.fromStr payloadText = some payload := by
      simp only [crates, reduceIte]
    rw [bareBlock, parseSseValue_data crates hfeed, hpayload]
    rfl
  have hline : LineKnown bareBlock := by
    have hnone : eventLine bareBlock = none := by decide
    intro line hsome
    rw [hnone] at hsome
    cases hsome
  have hkind : payloadKind payload = some "response.output_item.done" := rfl
  have hiff := (misshapen_rejected_iff {} hparse hkind (by decide)).2.2
    ⟨_, rfl⟩
  exact ⟨hiff.mpr hline, hline⟩

end ForeignLine

end ThirdPartySseNormalizer

end Vellum.Proxy

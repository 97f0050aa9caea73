/-
The key of a conversation (`vellum-proxy-runtime/src/history.rs`).  A Codex
client names a session and a thread, and both stand in the key with the
delimiter and the escape marker escaped, so that they can be read off it; a
request without such an identity gets a key of another form.
-/
import Vellum.Proxy.CodexMetadata

namespace Vellum.Proxy

open List

inductive ConversationKeySource where
  | codexThreadIdentity
  | existingConversationKey
  | previousResponseChain
  | generatedFallback

structure ConversationKeyResolution where
  key : String
  source : ConversationKeySource

/-- What the key of a request is made from. -/
structure ConversationRequest where
  codexIdentity : Option CodexTurnIdentity
  requestId : String
  body : Json

def resolveConversationKey (crates : Crates) (request : ConversationRequest)
    (existingFallback : Option String) : ConversationKeyResolution :=
  match request.codexIdentity.bind codexConversationKey with
  | some key => { key, source := .codexThreadIdentity }
  | none =>
    match existingFallback.filter fun fallback => !isBlank fallback with
    | some fallback =>
      { key := fallback, source := .existingConversationKey }
    | none =>
      match conversationKeyFromRequest crates request.body with
      | some grokKey =>
        { key := grokKey, source := .existingConversationKey }
      | none =>
        match ((request.body.get "previous_response_id").bind
            Json.asStr).filter fun id => !isBlank id with
        | some prevId =>
          { key := "chain:" ++ prevId
            source := .previousResponseChain }
        | none =>
          { key := "gen_" ++ request.requestId
            source := .generatedFallback }

/-- How one character stands in a component of the key. -/
def escapeKeyChar (c : Char) : List Char :=
  if c = '%' then "%25".toList else if c = ':' then "%3A".toList else [c]

theorem escapeKeyChar_plain {c : Char} (hmarker : c ≠ '%')
    (hdelimiter : c ≠ ':') : escapeKeyChar c = [c] := by
  rw [escapeKeyChar, if_neg hmarker, if_neg hdelimiter]

theorem colon_notMem_escapeKeyChar (c : Char) : ':' ∉ escapeKeyChar c := by
  by_cases hmarker : c = '%'
  · subst hmarker
    decide
  · by_cases hdelimiter : c = ':'
    · subst hdelimiter
      decide
    · rw [escapeKeyChar_plain hmarker hdelimiter, mem_singleton]
      exact Ne.symm hdelimiter

/-- Read one character of a component. -/
def readKeyChar : List Char → Option (Char × List Char)
  | '%' :: '2' :: '5' :: rest => some ('%', rest)
  | '%' :: '3' :: 'A' :: rest => some (':', rest)
  | c :: rest => some (c, rest)
  | [] => none

theorem readKeyChar_escape (c : Char) (rest : List Char) :
    readKeyChar (escapeKeyChar c ++ rest) = some (c, rest) := by
  by_cases hmarker : c = '%'
  · subst hmarker
    rfl
  · by_cases hdelimiter : c = ':'
    · subst hdelimiter
      rfl
    · rw [escapeKeyChar_plain hmarker hdelimiter, singleton_append,
        readKeyChar]
      · intro tail hhead
        exact absurd hhead hmarker
      · intro tail hhead
        exact absurd hhead hmarker

/-- The escape loses nothing: the component is read character by character. -/
theorem escapeKey_inj {left right : List Char}
    (heq : left.flatMap escapeKeyChar = right.flatMap escapeKeyChar) :
    left = right := by
  induction left generalizing right with
  | nil =>
    cases right with
    | nil => rfl
    | cons d right =>
      have hread := readKeyChar_escape d (right.flatMap escapeKeyChar)
      rw [← flatMap_cons, ← heq] at hread
      cases hread
  | cons c left ih =>
    have hread := readKeyChar_escape c (left.flatMap escapeKeyChar)
    rw [← flatMap_cons, heq] at hread
    cases right with
    | nil => cases hread
    | cons d right =>
      rw [flatMap_cons, readKeyChar_escape, Option.some.injEq,
        Prod.mk.injEq] at hread
      rw [hread.1, ih hread.2.symm]

theorem encodeComponent_toList (value : String) :
    (encodeCodexConversationKeyComponent value).toList =
      value.toList.flatMap escapeKeyChar := String.toList_ofList

theorem encodeComponent_inj {left right : String}
    (heq : encodeCodexConversationKeyComponent left =
      encodeCodexConversationKeyComponent right) : left = right := by
  apply String.toList_inj.mp
  apply escapeKey_inj
  rw [← encodeComponent_toList, ← encodeComponent_toList, heq]

theorem colon_notMem_encodeComponent (value : String) :
    ':' ∉ (encodeCodexConversationKeyComponent value).toList := by
  rw [encodeComponent_toList, mem_flatMap]
  rintro ⟨c, _, hmem⟩
  exact colon_notMem_escapeKeyChar c hmem

/-- The key of a session and a thread. -/
def identityKey (sessionId threadId : CodexOpaqueId) : String :=
  "codex:" ++ encodeCodexConversationKeyComponent sessionId.text ++
    ":" ++ encodeCodexConversationKeyComponent threadId.text

theorem codexConversationKey_eq_some {identity : CodexTurnIdentity}
    {key : String} (hkey : codexConversationKey identity = some key) :
    ∃ sessionId threadId, identity.sessionId = some sessionId ∧
      identity.threadId = some threadId ∧
      key = identityKey sessionId threadId := by
  rw [codexConversationKey] at hkey
  split at hkey
  · cases hkey
  · split at hkey
    · rename_i sessionId threadId hsession hthread
      exact ⟨sessionId, threadId, hsession, hthread,
        (Option.some.inj hkey).symm⟩
    · cases hkey

theorem identityKey_inj {session session' thread thread' : CodexOpaqueId}
    (heq : identityKey session thread = identityKey session' thread') :
    session = session' ∧ thread = thread' := by
  have hlist := congrArg String.toList heq
  simp only [identityKey, String.toList_append, append_assoc] at hlist
  have hparts := append_cancel_left hlist
  obtain ⟨hsession, hthread⟩ := Text.append_separator_inj
    (colon_notMem_encodeComponent thread.text)
    (colon_notMem_encodeComponent thread'.text) hparts
  obtain ⟨session⟩ := session
  obtain ⟨session'⟩ := session'
  obtain ⟨thread⟩ := thread
  obtain ⟨thread'⟩ := thread'
  have hsame : session = session' :=
    encodeComponent_inj (String.toList_inj.mp hsession)
  have hsame' : thread = thread' :=
    encodeComponent_inj (String.toList_inj.mp hthread)
  rw [hsame, hsame']
  exact ⟨rfl, rfl⟩

/-- A key that is not made from an identity says so in its front. -/
def OtherForm (key : String) : Prop :=
  (∃ prevId, key = "chain:" ++ prevId) ∨ ∃ id, key = "gen_" ++ id

theorem otherForm_resolve {crates : Crates} {request : ConversationRequest}
    {existingFallback : Option String}
    (hsource :
      (resolveConversationKey crates request existingFallback).source ∈
        [.previousResponseChain, .generatedFallback]) :
    OtherForm (resolveConversationKey crates request existingFallback).key := by
  simp only [resolveConversationKey] at hsource ⊢
  split at hsource
  · simp at hsource
  · split at hsource
    · simp at hsource
    · split at hsource
      · simp at hsource
      · split at hsource
        · rename_i prevId _
          exact Or.inl ⟨prevId, rfl⟩
        · exact Or.inr ⟨request.requestId, rfl⟩

theorem identityKey_ne_otherForm {key : String} (hother : OtherForm key)
    (sessionId threadId : CodexOpaqueId) :
    key ≠ identityKey sessionId threadId := by
  intro heq
  have hlist := congrArg String.toList heq
  simp only [identityKey, String.toList_append, append_assoc] at hlist
  rcases hother with ⟨prevId, rfl⟩ | ⟨id, rfl⟩
  · rw [String.toList_append] at hlist
    have htail := (List.cons.inj hlist).2
    exact absurd (List.cons.inj htail).1 (by decide)
  · rw [String.toList_append] at hlist
    exact absurd (List.cons.inj hlist).1 (by decide)

/-- A key tells the session and the thread, and is of no other form. -/
theorem codexConversationKey_identifies (crates : Crates)
    (left right : CodexTurnIdentity) (leftKey rightKey : String)
    (hleft : codexConversationKey left = some leftKey)
    (hright : codexConversationKey right = some rightKey) :
    (leftKey = rightKey ↔
      left.sessionId = right.sessionId ∧ left.threadId = right.threadId) ∧
    ∀ request existingFallback,
      (resolveConversationKey crates request existingFallback).source ∈
        [.previousResponseChain, .generatedFallback] →
      (resolveConversationKey crates request existingFallback).key ≠
        leftKey := by
  obtain ⟨session, thread, hsession, hthread, rfl⟩ :=
    codexConversationKey_eq_some hleft
  obtain ⟨session', thread', hsession', hthread', rfl⟩ :=
    codexConversationKey_eq_some hright
  rw [hsession, hthread, hsession', hthread', Option.some.injEq,
    Option.some.injEq]
  refine ⟨⟨identityKey_inj, ?_⟩, ?_⟩
  · rintro ⟨rfl, rfl⟩
    rfl
  · intro request existingFallback hsource
    exact identityKey_ne_otherForm (otherForm_resolve hsource) session thread

/-- An identity with the delimiter, and one with the text that stands for
it. -/
theorem codexConversationKey_identifies_delimiters :
    codexConversationKey
        { sessionId := some ⟨"a:b"⟩, threadId := some ⟨"c"⟩
          trust := .structured } = some "codex:a%3Ab:c" ∧
      codexConversationKey
        { sessionId := some ⟨"a%3Ab"⟩, threadId := some ⟨"c"⟩
          trust := .structured } = some "codex:a%253Ab:c" ∧
      ¬ ("codex:a%3Ab:c" = "codex:a%253Ab:c") := by
  refine ⟨by decide, by decide, ?_⟩
  intro hsame
  have hequal := (codexConversationKey_identifies ⟨fun _ => none, fun _ => "",
    fun _ => []⟩ _ _ _ _ (by decide : codexConversationKey
      { sessionId := some ⟨"a:b"⟩, threadId := some ⟨"c"⟩
        trust := .structured } = some "codex:a%3Ab:c")
    (by decide : codexConversationKey
      { sessionId := some ⟨"a%3Ab"⟩, threadId := some ⟨"c"⟩
        trust := .structured } = some "codex:a%253Ab:c")).1.mp hsame
  exact absurd hequal.1 (by decide)

end Vellum.Proxy

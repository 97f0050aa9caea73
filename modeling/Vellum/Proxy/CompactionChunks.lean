/-
The bounded prompts of a compaction (`compaction.rs`).  An item over the budget
is replaced by an excerpt of its text.  The excerpt is cut by characters, while
the budget counts bytes, and its text is escaped once more as a string of the
excerpt; so it fits if what is kept of the text is short enough after that.
-/
import Vellum.Library.Budget
import Vellum.Proxy.TailUnits

namespace Vellum.Proxy

open List

/-- How many characters of an oversized item an excerpt may have. -/
def excerptChars (maxTokens : Nat) : Nat :=
  max (saturatingMul maxTokens 4 - 256) 256

def excerptMarker : List Char :=
  "\n...[oversized item truncated for compaction]...\n".toList

/-- The text of an excerpt: the item's own, or its first and its last half of
the allowed characters. -/
def excerptText (maxTokens : Nat) (serialized : List Char) : List Char :=
  if serialized.length ≤ excerptChars maxTokens then serialized
  else
    let half := excerptChars maxTokens / 2
    serialized.take half ++ excerptMarker ++
      serialized.drop (serialized.length - half)

def oversizedItemExcerpt (floats : JsonText.FloatText) (item : Json)
    (maxTokens : Nat) : Json :=
  .obj [("type", .str "compaction_excerpt"),
    ("text", .str (String.ofList
      (excerptText maxTokens (JsonText.text floats item))))]

/-- The item that is put into a chunk. -/
def chunkedItem (floats : JsonText.FloatText) (maxTokens : Nat)
    (item : Json) : Json :=
  if maxTokens < estimateTokens floats [item] then
    oversizedItemExcerpt floats item maxTokens
  else item

/-- The loop over the items, with the chunk that is being filled. -/
def chunkFrom (floats : JsonText.FloatText) (maxTokens : Nat)
    (current : List Json) (currentTokens : Nat) :
    List Json → List (List Json)
  | [] => if current.isEmpty then [] else [current]
  | item :: rest =>
    let item := chunkedItem floats maxTokens item
    let itemTokens := estimateTokens floats [item]
    if !current.isEmpty &&
        maxTokens < saturatingAdd currentTokens itemTokens then
      current ::
        chunkFrom floats maxTokens [item] (saturatingAdd 0 itemTokens) rest
    else
      chunkFrom floats maxTokens (current ++ [item])
        (saturatingAdd currentTokens itemTokens) rest

def chunkCompactionItems (floats : JsonText.FloatText) (items : List Json)
    (maxTokens : Nat) : List (List Json) :=
  chunkFrom floats (max maxTokens 1) [] 0 items

variable (floats : JsonText.FloatText) (maxTokens : Nat)

theorem flatten_chunkFrom (current : List Json) (currentTokens : Nat)
    (items : List Json) :
    (chunkFrom floats maxTokens current currentTokens items).flatten =
      current ++ items.map (chunkedItem floats maxTokens) := by
  induction items generalizing current currentTokens with
  | nil =>
    rw [chunkFrom]
    split
    · rename_i hempty
      rw [List.isEmpty_iff.mp hempty]
      rfl
    · simp
  | cons item rest ih =>
    simp only [chunkFrom]
    split
    · rw [flatten_cons, ih]
      rfl
    · rw [ih, append_assoc]
      rfl

theorem ne_nil_of_mem_chunkFrom (current : List Json) (currentTokens : Nat)
    (items : List Json) :
    ∀ chunk ∈ chunkFrom floats maxTokens current currentTokens items,
      chunk ≠ [] := by
  induction items generalizing current currentTokens with
  | nil =>
    intro chunk hchunk
    rw [chunkFrom] at hchunk
    split at hchunk
    · exact absurd hchunk not_mem_nil
    · rename_i hfilled
      rw [mem_singleton.mp hchunk]
      simpa using hfilled
  | cons item rest ih =>
    intro chunk hchunk
    simp only [chunkFrom] at hchunk
    split at hchunk
    · rename_i hfull
      rcases mem_cons.mp hchunk with rfl | hchunk
      · rw [Bool.and_eq_true] at hfull
        simpa using hfull.1
      · exact ih _ _ chunk hchunk
    · exact ih _ _ chunk hchunk

open Utf8Slice (byteLen)

theorem utf8Size_le_escape (c : Char) :
    c.utf8Size ≤ byteLen (JsonText.escape c) := by
  rw [JsonText.escape]
  split_ifs with hquote hslash hb ht hn hf hr hcontrol
  · rw [hquote]
    decide
  · rw [hslash]
    decide
  · rw [hb]
    decide
  · rw [ht]
    decide
  · rw [hn]
    decide
  · rw [hf]
    decide
  · rw [hr]
    decide
  · have hfour : byteLen ['\\', 'u', '0', '0'] = 4 := by decide
    have hsplit := Utf8Slice.byteLen_append ['\\', 'u', '0', '0']
      [JsonText.hexDigit (c.toNat / 16), JsonText.hexDigit (c.toNat % 16)]
    have hsize := c.utf8Size_le_four
    rw [hfour] at hsplit
    refine le_trans hsize ?_
    refine le_trans ?_ (Nat.le_of_eq hsplit.symm)
    exact Nat.le_add_right 4 _
  · exact Nat.le_refl _

theorem byteLen_le_escape (text : List Char) :
    byteLen text ≤ byteLen (text.flatMap JsonText.escape) := by
  induction text with
  | nil => exact Nat.le_refl 0
  | cons c rest ih =>
    rw [flatMap_cons, Utf8Slice.byteLen_append]
    exact Nat.add_le_add (utf8Size_le_escape c) ih

/-- The bytes of a text as part of a JSON string. -/
def escapedBytes (text : List Char) : Nat :=
  byteLen (text.flatMap JsonText.escape)

theorem escapedBytes_append (front back : List Char) :
    escapedBytes (front ++ back) = escapedBytes front + escapedBytes back := by
  rw [escapedBytes, flatMap_append, Utf8Slice.byteLen_append]
  rfl

theorem byteLen_quote (text : String) :
    byteLen (JsonText.quote text) = escapedBytes text.toList + 2 := by
  have hmark : byteLen ['"'] = 1 := by decide
  change byteLen (['"'] ++ text.toList.flatMap JsonText.escape ++ ['"']) = _
  rw [Utf8Slice.byteLen_append, Utf8Slice.byteLen_append, hmark, escapedBytes]
  omega

theorem itemBytes_excerpt (item : Json) (maxTokens : Nat) :
    itemBytes floats (oversizedItemExcerpt floats item maxTokens) =
      39 + escapedBytes
        (excerptText maxTokens (JsonText.text floats item)) := by
  generalize hkept : excerptText maxTokens (JsonText.text floats item) = kept
  have hfront : byteLen (['\x7b'] ++ JsonText.quote "type" ++ [':'] ++
      JsonText.quote "compaction_excerpt" ++ [','] ++
      JsonText.quote "text" ++ [':']) = 36 := by decide
  have hback : byteLen ['\x7d'] = 1 := by decide
  have htext : JsonText.text floats (oversizedItemExcerpt floats item
      maxTokens) = (['\x7b'] ++ JsonText.quote "type" ++ [':'] ++
      JsonText.quote "compaction_excerpt" ++ [','] ++
      JsonText.quote "text" ++ [':']) ++
      JsonText.quote (String.ofList kept) ++ ['\x7d'] := by
    simp [oversizedItemExcerpt, hkept, JsonText.text, JsonText.fieldTexts,
      JsonText.commaJoin]
  rw [itemBytes, htext, Utf8Slice.byteLen_append, Utf8Slice.byteLen_append,
    hfront, hback, byteLen_quote, String.toList_ofList]
  omega

theorem estimateTokens_singleton_le_iff {maxTokens : Nat} (hmax : 1 ≤ maxTokens)
    (item : Json) :
    estimateTokens floats [item] ≤ maxTokens ↔
      itemBytes floats item ≤ 4 * maxTokens + 3 := by
  have hsum : ([item].map (itemBytes floats)).sum = itemBytes floats item := by
    simp
  rw [estimateTokens, hsum, max_le_iff]
  omega

/-- What an excerpt keeps of a text fits: the text is cut at all, and its two
ends leave room for the rest of the excerpt when they are escaped. -/
def EndsFit (maxTokens : Nat) (serialized : List Char) : Prop :=
  excerptChars maxTokens < serialized.length ∧
    escapedBytes (serialized.take (excerptChars maxTokens / 2)) +
      escapedBytes (serialized.drop
        (serialized.length - excerptChars maxTokens / 2)) + 90 ≤
          4 * maxTokens + 3

/-- An excerpt is within the budget exactly if the ends that it keeps fit. -/
theorem estimateTokens_excerpt_le_iff {maxTokens : Nat} (hmax : 1 ≤ maxTokens)
    {item : Json} (hover : maxTokens < estimateTokens floats [item]) :
    estimateTokens floats [oversizedItemExcerpt floats item maxTokens] ≤
        maxTokens ↔
      EndsFit maxTokens (JsonText.text floats item) := by
  have hmarker : escapedBytes excerptMarker = 51 := by decide
  have hbytes : 4 * maxTokens + 3 < itemBytes floats item := by
    rw [← Nat.not_le, ← estimateTokens_singleton_le_iff floats hmax]
    exact Nat.not_le.mpr hover
  rw [estimateTokens_singleton_le_iff floats hmax, itemBytes_excerpt,
    excerptText, EndsFit]
  split
  · rename_i hshort
    have hescaped : itemBytes floats item ≤
        escapedBytes (JsonText.text floats item) := byteLen_le_escape _
    omega
  · rename_i hlong
    rw [escapedBytes_append, escapedBytes_append, hmarker]
    omega

/-- What is claimed of the chunks. -/
structure BoundedChunks (floats : JsonText.FloatText) (items : List Json)
    (maxTokens : Nat) : Prop where
  entries : (chunkCompactionItems floats items maxTokens).flatten =
    items.map (chunkedItem floats maxTokens)
  nonempty : ∀ chunk ∈ chunkCompactionItems floats items maxTokens, chunk ≠ []
  bounded : ∀ chunk ∈ chunkCompactionItems floats items maxTokens,
    ∀ item ∈ chunk, estimateTokens floats [item] ≤ maxTokens

/-- The chunks are bounded exactly if the ends of every oversized item fit. -/
theorem chunks_bounded_iff (floats : JsonText.FloatText) (items : List Json)
    {maxTokens : Nat} (hmax : 256 ≤ maxTokens) :
    BoundedChunks floats items maxTokens ↔
      ∀ item ∈ items, maxTokens < estimateTokens floats [item] →
        EndsFit maxTokens (JsonText.text floats item) := by
  have hone : 1 ≤ maxTokens := le_trans (by decide) hmax
  have hflatten : (chunkCompactionItems floats items maxTokens).flatten =
      items.map (chunkedItem floats maxTokens) := by
    rw [chunkCompactionItems, max_eq_left hone, flatten_chunkFrom,
      nil_append]
  constructor
  · intro hchunks item hitem hover
    have hmem : chunkedItem floats maxTokens item ∈
        (chunkCompactionItems floats items maxTokens).flatten := by
      rw [hflatten]
      exact mem_map_of_mem hitem
    obtain ⟨chunk, hchunk, hinChunk⟩ := mem_flatten.mp hmem
    have hbounded := hchunks.bounded chunk hchunk _ hinChunk
    rw [chunkedItem, if_pos hover] at hbounded
    exact (estimateTokens_excerpt_le_iff floats hone hover).mp hbounded
  · intro hfit
    refine ⟨hflatten, ne_nil_of_mem_chunkFrom floats _ _ _ _, ?_⟩
    intro chunk hchunk entry hentry
    have hmem : entry ∈
        (chunkCompactionItems floats items maxTokens).flatten :=
      mem_flatten.mpr ⟨chunk, hchunk, hentry⟩
    rw [hflatten] at hmem
    obtain ⟨item, hitem, rfl⟩ := mem_map.mp hmem
    rw [chunkedItem]
    split
    · rename_i hover
      exact (estimateTokens_excerpt_le_iff floats hone hover).mpr
        (hfit item hitem hover)
    · rename_i hwithin
      exact Nat.not_lt.mp hwithin

theorem quote_replicate {c : Char} (hescape : JsonText.escape c = [c])
    (count : Nat) :
    JsonText.quote (String.ofList (List.replicate count c)) =
      '"' :: List.replicate count c ++ ['"'] := by
  rw [JsonText.quote, String.toList_ofList, flatMap_replicate, hescape,
    flatten_replicate_singleton]

/-- An item of 1100 characters of one byte each. -/
def longItem : Json := .str (String.ofList (List.replicate 1100 'a'))

/-- It is cut, and its excerpt fits. -/
theorem long_item_is_bounded :
    256 < estimateTokens .ofBits [longItem] ∧
      BoundedChunks .ofBits [longItem] 256 := by
  have htext : JsonText.text .ofBits longItem =
      '"' :: List.replicate 1100 'a' ++ ['"'] :=
    quote_replicate (by decide) 1100
  constructor
  · rw [← Nat.not_le, estimateTokens_singleton_le_iff _ (by decide), itemBytes,
      htext]
    decide +kernel
  · refine (chunks_bounded_iff .ofBits [longItem] (Nat.le_refl 256)).mpr ?_
    intro item hitem _
    rw [mem_singleton.mp hitem, htext, EndsFit]
    decide +kernel

/-- A message of 400 characters that take three bytes each. -/
def wideItem : Json :=
  .obj [("role", .str "user"),
    ("content", .str (String.ofList (List.replicate 400 '字')))]

/-- What stands before the characters of the message. -/
def wideFront : List Char :=
  ['\x7b'] ++ JsonText.quote "role" ++ [':'] ++ JsonText.quote "user" ++
    [','] ++ JsonText.quote "content" ++ [':', '"']

theorem text_wideItem :
    JsonText.text floats wideItem =
      wideFront ++ List.replicate 400 '字' ++ ['"', '\x7d'] := by
  have hquote : JsonText.quote (String.ofList (List.replicate 400 '字')) =
      '"' :: List.replicate 400 '字' ++ ['"'] := quote_replicate (by decide) 400
  simp only [wideItem, JsonText.text, JsonText.fieldTexts, JsonText.commaJoin,
    wideFront, hquote, append_assoc, cons_append, nil_append]

theorem byteLen_replicate (count : Nat) (c : Char) :
    byteLen (List.replicate count c) = count * c.utf8Size := by
  induction count with
  | zero => simp [byteLen]
  | succ count ih => rw [replicate_succ, byteLen, ih, Nat.succ_mul,
      Nat.add_comm]

/-- The message is short enough in characters, so its excerpt is longer than
the message itself. -/
theorem wide_item_is_not_bounded :
    ¬ ∀ (floats : JsonText.FloatText) (items : List Json) (maxTokens : Nat),
      256 ≤ maxTokens → BoundedChunks floats items maxTokens := by
  intro hclaim
  have hchunks := hclaim .ofBits [wideItem] 256 (Nat.le_refl 256)
  have hfront : byteLen wideFront = 26 := by decide
  have hback : byteLen ['"', '\x7d'] = 2 := by decide
  have hbytes : itemBytes .ofBits wideItem = 1228 := by
    rw [itemBytes, text_wideItem, Utf8Slice.byteLen_append,
      Utf8Slice.byteLen_append, byteLen_replicate, hfront, hback]
    rfl
  have hover : 256 < estimateTokens .ofBits [wideItem] := by
    rw [← Nat.not_le, estimateTokens_singleton_le_iff _ (by decide), hbytes]
    decide
  have hchunked : chunkedItem .ofBits 256 wideItem ∈
      (chunkCompactionItems .ofBits [wideItem] 256).flatten := by
    rw [hchunks.entries]
    exact mem_map_of_mem mem_cons_self
  obtain ⟨chunk, hchunk, hmem⟩ := mem_flatten.mp hchunked
  have hbounded := hchunks.bounded chunk hchunk _ hmem
  rw [chunkedItem, if_pos hover,
    estimateTokens_excerpt_le_iff _ (by decide) hover] at hbounded
  have hlong := hbounded.1
  rw [text_wideItem, length_append, length_append,
    length_replicate] at hlong
  exact absurd hlong (by decide)

end Vellum.Proxy

/-
Tokens that are taken out of a text kind after kind.  A token that is written
into another one takes it apart, so taking the first out can put the second
together when its own turn is over.  The words of a text that become a token
in this way are those that are woven from it.
-/
import Vellum.Library.Text

namespace Vellum

open List

namespace Text

section Remove

variable {needle : List Char}

theorem removeFrom_eq (skip : Nat) (text : List Char) :
    removeFrom needle skip text = remove needle (text.drop skip) := by
  induction text generalizing skip with
  | nil =>
    rw [drop_nil, remove, removeFrom, removeFrom]
  | cons c rest ih =>
    cases skip with
    | zero => rfl
    | succ skip => rw [removeFrom, drop_succ_cons, ih]

theorem remove_needle_append (hne : needle ≠ []) (rest : List Char) :
    remove needle (needle ++ rest) = remove needle rest := by
  cases needle with
  | nil => exact absurd rfl hne
  | cons c tail =>
    have hfront : (c :: tail).isPrefixOf (c :: (tail ++ rest)) := by
      rw [List.isPrefixOf_iff_prefix]
      exact prefix_append (c :: tail) rest
    rw [cons_append, remove, removeFrom, if_pos hfront, removeFrom_eq,
      length_cons, Nat.add_sub_cancel, drop_left]

theorem remove_self (hne : needle ≠ []) : remove needle needle = [] := by
  have hfront := remove_needle_append hne []
  rwa [append_nil] at hfront

theorem remove_cons {c : Char} {rest : List Char}
    (hnot : ¬ needle <+: c :: rest) :
    remove needle (c :: rest) = c :: remove needle rest := by
  have hfront : ¬ needle.isPrefixOf (c :: rest) := by
    rwa [List.isPrefixOf_iff_prefix]
  rw [remove, removeFrom, if_neg hfront, remove]

/-- A text is empty, or starts with the needle, or with another character. -/
@[elab_as_elim]
theorem removeInduction (hne : needle ≠ []) {motive : List Char → Prop}
    (nil : motive [])
    (token : ∀ rest, motive rest → motive (needle ++ rest))
    (cons : ∀ c rest, ¬ needle <+: c :: rest → motive rest →
      motive (c :: rest)) (text : List Char) : motive text := by
  have hpositive : 0 < needle.length := length_pos_of_ne_nil hne
  generalize hlength : text.length = length
  induction length using Nat.strongRecOn generalizing text with
  | ind length ih =>
    subst hlength
    cases text with
    | nil => exact nil
    | cons c rest =>
      by_cases hfront : needle <+: c :: rest
      · obtain ⟨back, hback⟩ := hfront
        rw [← hback]
        refine token back (ih back.length ?_ back rfl)
        rw [← hback, length_append]
        omega
      · exact cons c rest hfront (ih rest.length (Nat.lt_succ_self _) rest
          rfl)

/-- Two texts are searched one by one where no occurrence lies in both. -/
theorem remove_append (hne : needle ≠ []) {front back : List Char}
    (hapart : ∀ left right, left ≠ [] → right ≠ [] → needle = left ++ right →
      left <:+ front → ¬ right <+: back) :
    remove needle (front ++ back) =
      remove needle front ++ remove needle back := by
  induction front using removeInduction hne with
  | nil => rfl
  | token rest ih =>
    rw [append_assoc, remove_needle_append hne,
      remove_needle_append hne]
    exact ih fun left right hleft hright hneedle hsuffix =>
      hapart left right hleft hright hneedle
        (hsuffix.trans (suffix_append needle rest))
  | cons c rest hnot ih =>
    have hnot' : ¬ needle <+: c :: (rest ++ back) := by
      rintro ⟨behind, hbehind⟩
      rw [← cons_append] at hbehind
      rcases append_eq_append_iff.mp hbehind with
        ⟨more, hmore, -⟩ | ⟨more, hmore, hback⟩
      · exact hnot ⟨more, hmore.symm⟩
      · by_cases hempty : more = []
        · rw [hempty, append_nil] at hmore
          exact hnot (hmore ▸ prefix_rfl)
        · exact hapart (c :: rest) more (cons_ne_nil c rest) hempty
            hmore suffix_rfl ⟨behind, hback.symm⟩
    rw [cons_append, remove_cons hnot', remove_cons hnot,
      cons_append]
    congr 1
    exact ih fun left right hleft hright hneedle hsuffix =>
      hapart left right hleft hright hneedle
        (hsuffix.trans (suffix_cons c rest))

theorem remove_eq_self (hne : needle ≠ []) {text : List Char}
    (hnot : ¬ needle <:+: text) : remove needle text = text := by
  induction text using removeInduction hne with
  | nil => rfl
  | token rest ih => exact absurd (prefix_append needle rest).isInfix hnot
  | cons c rest hfront ih =>
    rw [remove_cons hfront, ih]
    exact fun hfactor => hnot (infix_cons hfactor)

end Remove

/-- A word between two characters that occur nowhere else in it. -/
structure Framed (opening closing : Char) (word : List Char) : Prop where
  distinct : opening ≠ closing
  starts : ∃ rest, word = opening :: rest ∧ opening ∉ rest
  ends : ∃ front, word = front ++ [closing] ∧ closing ∉ front

namespace Framed

variable {opening closing : Char} {word : List Char}

section

variable (hword : Framed opening closing word)
include hword

theorem ne_nil : word ≠ [] := by
  obtain ⟨rest, rfl, -⟩ := hword.starts
  exact cons_ne_nil opening rest

theorem opening_notMem {left right : List Char} (hsplit : word = left ++ right)
    (hleft : left ≠ []) : opening ∉ right := by
  obtain ⟨rest, rfl, hrest⟩ := hword.starts
  cases left with
  | nil => exact absurd rfl hleft
  | cons c left =>
    rw [(List.cons.inj hsplit).2] at hrest
    exact fun hmem => hrest (mem_append_right left hmem)

theorem closing_notMem {left right : List Char} (hsplit : word = left ++ right)
    (hright : right ≠ []) : closing ∉ left := by
  obtain ⟨front, rfl, hfront⟩ := hword.ends
  rw [← dropLast_concat_getLast hright, ← append_assoc] at hsplit
  have hinit := (append_inj' hsplit rfl).1
  rw [hinit] at hfront
  exact fun hmem => hfront (mem_append_left _ hmem)

theorem closing_mem : closing ∈ word := by
  obtain ⟨front, rfl, -⟩ := hword.ends
  exact mem_append_right front mem_cons_self

theorem opening_mem : opening ∈ word := by
  obtain ⟨rest, rfl, -⟩ := hword.starts
  exact mem_cons_self

/-- Two framed words at the front of one text are the same word. -/
theorem eq_of_append {other : List Char} (hother : Framed opening closing other)
    {back behind : List Char} (heq : word ++ back = other ++ behind) :
    word = other := by
  rcases append_eq_append_iff.mp heq with
    ⟨more, hmore, -⟩ | ⟨more, hmore, -⟩
  · by_cases hempty : more = []
    · rw [hmore, hempty, append_nil]
    · exact absurd hword.closing_mem (hother.closing_notMem hmore hempty)
  · by_cases hempty : more = []
    · rw [hmore, hempty, append_nil]
    · exact absurd hother.closing_mem (hword.closing_notMem hmore hempty)

/-- A framed word in a text with a framed word in front lies behind it, or is
the same word. -/
theorem factor_of_append {other : List Char}
    (hother : Framed opening closing other) {back : List Char}
    (hfactor : word <:+: other ++ back) : word = other ∨ word <:+: back := by
  obtain ⟨front, behind, heq⟩ := hfactor
  rw [append_assoc] at heq
  rcases append_eq_append_iff.mp heq with
    ⟨more, hmore, hback⟩ | ⟨more, hmore, hback⟩
  · cases front with
    | nil =>
      exact .inl (hword.eq_of_append hother heq)
    | cons c front =>
      have hnone := hother.opening_notMem hmore (cons_ne_nil c front)
      obtain ⟨rest, rfl, -⟩ := hword.starts
      cases more with
      | nil => exact .inr ⟨[], behind, hback⟩
      | cons d more =>
        rw [cons_append, cons_append] at hback
        rw [(List.cons.inj hback).1] at hnone
        exact absurd mem_cons_self hnone
  · exact .inr ⟨more, behind, by rw [append_assoc, ← hback]⟩

end

end Framed

/-- Copies of a token side by side. -/
def copies (token : List Char) (count : Nat) : List Char :=
  (List.replicate count token).flatten

@[simp]
theorem copies_zero (token : List Char) : copies token 0 = [] := rfl

theorem copies_succ (token : List Char) (count : Nat) :
    copies token (count + 1) = token ++ copies token count := by
  rw [copies, replicate_succ, flatten_cons, copies]

/-- Copies of a token are written into a word, not before its first character
and not behind its last. -/
inductive Woven (token : List Char) : List Char → List Char → Prop where
  | single (c : Char) : Woven token [c] [c]
  | cons (c : Char) (count : Nat) {word woven : List Char} :
      Woven token word woven →
        Woven token (c :: word) (c :: (copies token count ++ woven))

section Weave

variable {opening closing : Char} {token : List Char}

variable {other word woven : List Char} {count : Nat} {back : List Char}

theorem Woven.ne_nil (hwoven : Woven token word woven) : word ≠ [] := by
  cases hwoven <;> exact cons_ne_nil _ _

theorem Woven.cons_inv {c : Char} {rest : List Char}
    (hwoven : Woven token (c :: rest) woven) :
    rest = [] ∧ woven = c :: rest ∨
      ∃ count inner, woven = c :: (copies token count ++ inner) ∧
        Woven token rest inner := by
  cases hwoven with
  | single c => exact .inl ⟨rfl, rfl⟩
  | cons c count hinner => exact .inr ⟨count, _, rfl, hinner⟩

theorem Woven.head?_eq (hwoven : Woven token word woven) :
    woven.head? = word.head? := by
  cases hwoven <;> rfl

theorem Woven.getLast?_eq (hwoven : Woven token word woven) :
    woven.getLast? = word.getLast? := by
  induction hwoven with
  | single c => rfl
  | cons c count hinner ih =>
    rename_i word woven
    have hword : word.getLast?.isSome := by
      rw [getLast?_isSome]
      exact hinner.ne_nil
    obtain ⟨last, hlast⟩ := Option.isSome_iff_exists.mp hword
    rw [getLast?_cons, getLast?_append, ih, getLast?_cons,
      hlast]
    rfl

theorem remove_copies_append (hne : token ≠ []) (count : Nat)
    (rest : List Char) :
    remove token (copies token count ++ rest) = remove token rest := by
  induction count with
  | zero => rfl
  | succ count ih =>
    rw [copies_succ, append_assoc, remove_needle_append hne, ih]

section

variable (htoken : Framed opening closing token)
include htoken

theorem factor_of_copies (hother : Framed opening closing other)
    (hne : other ≠ token) (hfactor : other <:+: copies token count ++ back) :
    other <:+: back := by
  induction count with
  | zero => exact hfactor
  | succ count ih =>
    rw [copies_succ, append_assoc] at hfactor
    rcases hother.factor_of_append htoken hfactor with heq | hback
    · exact absurd heq hne
    · exact ih hback

theorem eq_zero_of_front_copies {part : List Char} (hpart : part ≠ [])
    (hopen : opening ∉ part) (hlead : part <+: copies token count ++ back) :
    count = 0 := by
  cases count with
  | zero => rfl
  | succ count =>
    obtain ⟨rest, rfl, -⟩ := htoken.starts
    cases part with
    | nil => exact absurd rfl hpart
    | cons c part =>
      rw [copies_succ, cons_append, cons_append,
        cons_prefix_cons] at hlead
      rw [hlead.1] at hopen
      exact absurd mem_cons_self hopen

theorem Woven.lead_of_lead {part : List Char} (hwoven : Woven token word woven)
    (hopen : opening ∉ part) (hlead : part <+: woven) : part <+: word := by
  induction hwoven generalizing part with
  | single c => exact hlead
  | cons c count hinner ih =>
    cases part with
    | nil => exact nil_prefix
    | cons d rest =>
      obtain ⟨hhead, hrest⟩ := cons_prefix_cons.mp hlead
      have hopen' : opening ∉ rest :=
        fun hmem => hopen (mem_cons_of_mem d hmem)
      refine cons_prefix_cons.mpr ⟨hhead, ?_⟩
      by_cases hempty : rest = []
      · rw [hempty]
        exact nil_prefix
      · have hzero := eq_zero_of_front_copies htoken hempty hopen' hrest
        rw [hzero] at hrest
        exact ih hopen' hrest

theorem Woven.eq_of_lead (hwoven : Woven token word woven)
    (hopen : opening ∉ word) (hlead : word <+: woven) : woven = word := by
  induction hwoven with
  | single c => rfl
  | cons c count hinner ih =>
    have hrest := (cons_prefix_cons.mp hlead).2
    have hopen' := fun hmem => hopen (mem_cons_of_mem c hmem)
    have hzero := eq_zero_of_front_copies htoken hinner.ne_nil hopen' hrest
    rw [hzero] at hrest ⊢
    rw [copies_zero, nil_append, ih hopen' hrest]

/-- An occurrence of a token at the front of a woven word has nothing woven
into it. -/
theorem Woven.cons_lead (hother : Framed opening closing other) {c : Char}
    (hwoven : Woven token word woven)
    (hlead : other <+: c :: (copies token count ++ woven)) :
    other <+: c :: word ∧ count = 0 := by
  have hdistinct := hother.distinct
  obtain ⟨front, hends, -⟩ := hother.ends
  obtain ⟨rest, rfl, hrest⟩ := hother.starts
  obtain ⟨hhead, hback⟩ := cons_prefix_cons.mp hlead
  have hne : rest ≠ [] := by
    intro hempty
    rw [hempty] at hends
    cases front with
    | nil => exact hdistinct (List.cons.inj hends).1
    | cons d front => exact absurd (List.cons.inj hends).2 (by simp)
  have hzero := eq_zero_of_front_copies htoken hne hrest hback
  rw [hzero] at hback
  exact ⟨cons_prefix_cons.mpr
    ⟨hhead, hwoven.lead_of_lead htoken hrest hback⟩, hzero⟩

/-- Weaving one token makes no other token. -/
theorem Woven.factor_of_factor (hother : Framed opening closing other)
    (hne : other ≠ token) (hwoven : Woven token word woven)
    (hfactor : other <:+: woven) : other <:+: word := by
  induction hwoven with
  | single c => exact hfactor
  | cons c count hinner ih =>
    rcases infix_cons_iff.mp hfactor with hlead | hback
    · exact (hinner.cons_lead htoken hother hlead).1.isInfix
    · exact infix_cons
        (ih (factor_of_copies htoken hother hne hback))

/-- A token with another token in it is gone. -/
theorem Woven.eq_of_factor_self (hother : Framed opening closing other)
    (hne : other ≠ token) (hwoven : Woven token other woven)
    (hfactor : other <:+: woven) : woven = other := by
  obtain ⟨rest, hstarts, hrest⟩ := hother.starts
  have hnot : ¬ other <:+: rest :=
    fun hinner => hrest (hinner.subset hother.opening_mem)
  rw [hstarts] at hwoven
  cases hwoven with
  | single c => rw [hstarts]
  | cons c count hinner =>
    rcases infix_cons_iff.mp hfactor with hlead | hback
    · have hzero := (hinner.cons_lead htoken hother hlead).2
      rw [hstarts, hzero, copies_zero, nil_append,
        cons_prefix_cons] at hlead
      rw [hstarts, hzero, copies_zero, nil_append,
        hinner.eq_of_lead htoken hrest hlead.2]
    · exact absurd (hinner.factor_of_factor htoken hother hne
        (factor_of_copies htoken hother hne hback)) hnot

theorem remove_woven (hwoven : Woven token word woven)
    (hnot : ¬ token <:+: word) : remove token woven = word := by
  induction hwoven with
  | single c => exact remove_eq_self htoken.ne_nil hnot
  | cons c count hinner ih =>
    rename_i word woven
    have hfront : ¬ token <+: c :: (copies token count ++ woven) :=
      fun hlead =>
        hnot (hinner.cons_lead htoken htoken hlead).1.isInfix
    rw [remove_cons hfront, remove_copies_append htoken.ne_nil,
      ih fun hfactor => hnot (infix_cons hfactor)]

/-- A token that is broken up by its own copies is left over. -/
theorem remove_woven_self (hwoven : Woven token token woven)
    (hne : woven ≠ token) : remove token woven = token := by
  obtain ⟨rest, hstarts, hrest⟩ := htoken.starts
  have hnot : ¬ token <:+: rest :=
    fun hinner => hrest (hinner.subset htoken.opening_mem)
  have hsplit : Woven token (opening :: rest) woven := hstarts ▸ hwoven
  rcases hsplit.cons_inv with ⟨-, hsame⟩ | ⟨count, inner, rfl, hinner⟩
  · exact absurd (hsame.trans hstarts.symm) hne
  · have hfront : ¬ token <+: opening :: (copies token count ++ inner) := by
      intro hlead
      have hzero := (hinner.cons_lead htoken htoken hlead).2
      rw [hzero, copies_zero, nil_append] at hlead hne
      rw [hstarts, cons_prefix_cons] at hlead
      rw [hinner.eq_of_lead htoken hrest hlead.2] at hne
      exact hne hstarts.symm
    rw [remove_cons hfront, remove_copies_append htoken.ne_nil,
      remove_woven htoken hinner hnot]
    exact hstarts.symm

end

/-- Every word in a text without the occurrences of a token comes from a word
of the text that is woven from it. -/
theorem woven_front_of_remove (hne : token ≠ []) {text : List Char}
    (hword : word ≠ []) (hremove : remove token text = word ++ back) :
    ∃ count woven behind, text = copies token count ++ (woven ++ behind) ∧
      Woven token word woven ∧ remove token woven = word := by
  induction text using removeInduction hne generalizing word with
  | nil =>
    exact absurd (append_eq_nil_iff.mp hremove.symm).1 hword
  | token rest ih =>
    rw [remove_needle_append hne] at hremove
    obtain ⟨count, woven, behind, rfl, hwoven, hback⟩ := ih hword hremove
    exact ⟨count + 1, woven, behind, by
      rw [copies_succ, append_assoc], hwoven, hback⟩
  | cons c rest hfront ih =>
    rw [remove_cons hfront] at hremove
    cases word with
    | nil => exact absurd rfl hword
    | cons d word =>
      obtain ⟨rfl, hrest⟩ := List.cons.inj hremove
      by_cases hempty : word = []
      · rw [hempty]
        refine ⟨0, [c], rest, rfl, .single c, ?_⟩
        have hsingle : ¬ token <+: [c] := fun hlead =>
          hfront (hlead.trans (prefix_append [c] rest))
        rw [remove_cons hsingle]
        rfl
      · obtain ⟨count, woven, behind, rfl, hwoven, hback⟩ :=
          ih hempty hrest
        refine ⟨0, c :: (copies token count ++ woven), behind, ?_,
          .cons c count hwoven, ?_⟩
        · rw [copies_zero, nil_append, cons_append,
            append_assoc]
        · rw [← append_assoc, ← cons_append] at hfront
          rw [remove_cons fun hlead =>
              hfront (hlead.trans (prefix_append _ behind)),
            remove_copies_append hne, hback]

theorem woven_factor_of_remove (hne : token ≠ []) {text : List Char}
    (hword : word ≠ []) (hfactor : word <:+: remove token text) :
    ∃ woven, woven <:+: text ∧ Woven token word woven ∧
      remove token woven = word := by
  induction text using removeInduction hne with
  | nil => exact absurd (infix_nil.mp hfactor) hword
  | token rest ih =>
    rw [remove_needle_append hne] at hfactor
    obtain ⟨woven, hrest, hwoven⟩ := ih hfactor
    exact ⟨woven, infix_append_of_infix_right hrest, hwoven⟩
  | cons c rest hfront ih =>
    rw [remove_cons hfront] at hfactor
    rcases infix_cons_iff.mp hfactor with ⟨back, hback⟩ | hinner
    · rw [← remove_cons hfront] at hback
      obtain ⟨count, woven, behind, heq, hwoven⟩ :=
        woven_front_of_remove hne hword hback.symm
      rw [heq]
      exact ⟨woven, ⟨copies token count, behind, append_assoc _ _ _⟩,
        hwoven⟩
    · obtain ⟨woven, hrest, hwoven⟩ := ih hinner
      exact ⟨woven, infix_cons hrest, hwoven⟩

/-- A text around a word that is open at its front and closed at its back. -/
theorem remove_around (htoken : Framed opening closing token)
    (hhead : word.head? = some opening) (hlast : word.getLast? = some closing)
    (front back : List Char) :
    remove token (front ++ word ++ back) =
      remove token front ++ remove token word ++ remove token back := by
  rw [remove_append htoken.ne_nil, remove_append htoken.ne_nil]
  · rintro left right hleft hright htext - hlead
    have hnone := htoken.opening_notMem htext hleft
    obtain ⟨tail, rfl⟩ := head?_eq_some_iff.mp hhead
    cases right with
    | nil => exact hright rfl
    | cons c right =>
      rw [(cons_prefix_cons.mp hlead).1] at hnone
      exact hnone mem_cons_self
  · rintro left right hleft hright htext hsuffix -
    have hnone := htoken.closing_notMem htext hright
    obtain ⟨before, hbefore⟩ := hsuffix
    have hclosing : left.getLast? = some closing := by
      rw [← getLast?_append_of_ne_nil before hleft, hbefore,
        getLast?_append, hlast]
      rfl
    exact hnone (mem_of_getLast? hclosing)

end Weave

/-- The text without all tokens, taken out one kind after another. -/
def removeAll (tokens : List (List Char)) (text : List Char) : List Char :=
  tokens.foldl (fun cleaned token => remove token cleaned) text

/-- The words that become a token when others are taken out in this order:
copies of the last one are woven into it, then copies of the one before, and
it is broken up before its own turn comes. -/
def Remnant : List (List Char) → List Char → List Char → Prop
  | [], token, word => word = token
  | pass :: passes, token, word =>
    word ≠ pass ∧ ∃ inner, Woven pass inner word ∧
      Remnant passes token inner

section Passes

variable {opening closing : Char} {token : List Char}

variable {passes : List (List Char)}

theorem Remnant.bounds (htoken : Framed opening closing token)
    {word : List Char} (hword : Remnant passes token word) :
    word.head? = some opening ∧ word.getLast? = some closing := by
  induction passes generalizing word with
  | nil =>
    obtain ⟨front, hends, -⟩ := htoken.ends
    obtain ⟨rest, hstarts, -⟩ := htoken.starts
    cases hword
    refine ⟨by rw [hstarts]; rfl, ?_⟩
    rw [hends, getLast?_concat]
  | cons pass passes ih =>
    obtain ⟨-, inner, hwoven, hinner⟩ := hword
    rw [hwoven.head?_eq, hwoven.getLast?_eq]
    exact ih hinner

theorem Remnant.eq_of_factor (htoken : Framed opening closing token)
    (hpasses : ∀ pass ∈ passes, Framed opening closing pass) {other : List Char}
    (hother : Framed opening closing other) (hnot : other ∉ passes)
    {word : List Char} (hword : Remnant passes token word)
    (hfactor : other <:+: word) : word = other := by
  induction passes generalizing word with
  | nil =>
    cases hword
    rw [← append_nil token] at hfactor
    rcases hother.factor_of_append htoken hfactor with hsame | hnil
    · exact hsame.symm
    · exact absurd (infix_nil.mp hnil) hother.ne_nil
  | cons pass passes ih =>
    obtain ⟨-, inner, hwoven, hinner⟩ := hword
    obtain ⟨hne, hrest⟩ := not_or.mp (mt mem_cons.mpr hnot)
    have hpass := hpasses pass mem_cons_self
    have hsame := ih (fun next hnext =>
      hpasses next (mem_cons_of_mem pass hnext)) hrest hinner
      (hwoven.factor_of_factor hpass hother hne hfactor)
    rw [hsame] at hwoven
    exact hwoven.eq_of_factor_self hpass hother hne hfactor

/-- A token is left in a text exactly if the text has a remnant of it. -/
theorem factor_removeAll_iff (htoken : Framed opening closing token)
    (hpasses : ∀ pass ∈ passes, Framed opening closing pass)
    (hnodup : passes.Nodup) (text : List Char) :
    token <:+: removeAll passes text ↔
      ∃ word, Remnant passes token word ∧ word <:+: text := by
  induction passes generalizing text with
  | nil =>
    constructor
    · exact fun hfactor => ⟨token, rfl, hfactor⟩
    · rintro ⟨word, rfl, hfactor⟩
      exact hfactor
  | cons pass passes ih =>
    have hpass := hpasses pass mem_cons_self
    have hrest := fun next hnext =>
      hpasses next (mem_cons_of_mem pass hnext)
    obtain ⟨hnot, hnodup⟩ := nodup_cons.mp hnodup
    rw [removeAll, foldl_cons, ← removeAll, ih hrest hnodup]
    constructor
    · rintro ⟨word, hword, hfactor⟩
      have hfilled : word ≠ [] := by
        intro hempty
        have hhead := (hword.bounds htoken).1
        rw [hempty] at hhead
        cases hhead
      obtain ⟨woven, htext, hwoven, hremove⟩ :=
        woven_factor_of_remove hpass.ne_nil hfilled hfactor
      refine ⟨woven, ⟨?_, word, hwoven, hword⟩, htext⟩
      intro hsame
      rw [hsame, remove_self hpass.ne_nil] at hremove
      exact hfilled hremove.symm
    · rintro ⟨woven, ⟨hne, word, hwoven, hword⟩, front, back, rfl⟩
      have hbounds := hword.bounds htoken
      rw [← hwoven.head?_eq, ← hwoven.getLast?_eq] at hbounds
      refine ⟨word, hword, ?_⟩
      rw [remove_around hpass hbounds.1 hbounds.2]
      have hremove : remove pass woven = word := by
        by_cases hfactor : pass <:+: word
        · have hsame := hword.eq_of_factor htoken hrest hpass hnot hfactor
          rw [hsame] at hwoven ⊢
          exact remove_woven_self hpass hwoven hne
        · exact remove_woven hpass hwoven hfactor
      rw [hremove]
      exact infix_append _ _ _

theorem removeAll_eq_self (hpasses : ∀ pass ∈ passes, pass ≠ [])
    {text : List Char} (hnot : ∀ pass ∈ passes, ¬ pass <:+: text) :
    removeAll passes text = text := by
  induction passes with
  | nil => rfl
  | cons pass passes ih =>
    rw [removeAll, foldl_cons, ← removeAll,
      remove_eq_self (hpasses pass mem_cons_self)
        (hnot pass mem_cons_self)]
    exact ih
      (fun next hnext => hpasses next (mem_cons_of_mem pass hnext))
      fun next hnext => hnot next (mem_cons_of_mem pass hnext)

end Passes

end Text

end Vellum

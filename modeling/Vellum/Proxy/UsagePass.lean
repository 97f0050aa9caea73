/-
What the pass over the usages makes of each of them, in terms of the usages
before it: the used table and the cursor say which boundaries are held.
-/
import Vellum.Proxy.RequestUsage

namespace Vellum.Proxy

open List

/-- The usage and the boundary name one response. -/
def Matches (usage : CompletedRequestUsage) (boundary : RequestBoundary) :
    Prop :=
  usage.responseId.isSome ∧ boundary.responseId = usage.responseId

/-- Some usage has the place of the boundary. -/
def Held (usages : List CompletedRequestUsage) (boundary : RequestBoundary) :
    Prop :=
  ∃ usage ∈ usages, usage.sourceIndex = some boundary.firstSourceIndex

/-- What the pass makes of one usage, in terms of the usages before it. -/
inductive Attached (boundaries : List RequestBoundary)
    (done : List CompletedRequestUsage) (usage : CompletedRequestUsage) :
    CompletedRequestUsage → Prop
  | anchored {index : Nat} (hsource : usage.sourceIndex = some index) :
      Attached boundaries done usage usage
  | named {boundary : RequestBoundary} (hsource : usage.sourceIndex = none)
      (hmem : boundary ∈ boundaries) (hmatches : Matches usage boundary)
      (hfree : ¬ Held done boundary) :
      Attached boundaries done usage (usage.bindTo boundary)
  | next {front back : List RequestBoundary} {boundary : RequestBoundary}
      (hsource : usage.sourceIndex = none)
      (hnamed : ∀ other ∈ boundaries, Matches usage other → Held done other)
      (hsplit : boundaries = front ++ boundary :: back)
      (hheld : ∀ other ∈ front, Held done other)
      (hfree : ¬ Held done boundary) :
      Attached boundaries done usage (usage.bindTo boundary)
  | last {boundary : RequestBoundary} (hsource : usage.sourceIndex = none)
      (hheld : ∀ other ∈ boundaries, Held done other)
      (hlast : boundaries.getLast? = some boundary) :
      Attached boundaries done usage (usage.bindTo boundary)
  | unbound (hsource : usage.sourceIndex = none) (hnone : boundaries = []) :
      Attached boundaries done usage usage

/-- The used table marks the boundaries that are held, and everything before
the cursor is marked. -/
structure AttachState.Marks (state : AttachState)
    (boundaries : List RequestBoundary) (done : List CompletedRequestUsage) :
    Prop where
  length : state.used.length = boundaries.length
  passed : ∀ index : Nat, index < state.cursor → index < boundaries.length →
    state.used[index]? = some true
  used : ∀ (index : Nat) (boundary : RequestBoundary),
    boundaries[index]? = some boundary →
    (state.used[index]? = some true ↔ Held done boundary)

variable {boundaries : List RequestBoundary}
  {done : List CompletedRequestUsage} {usage : CompletedRequestUsage}
  {state : AttachState}

theorem held_concat {boundary : RequestBoundary} :
    Held (done ++ [usage]) boundary ↔ Held done boundary ∨
      usage.sourceIndex = some boundary.firstSourceIndex := by
  simp [Held, or_and_right, exists_or]

theorem marks_start (boundaries : List RequestBoundary) :
    AttachState.Marks ⟨0, List.replicate boundaries.length false⟩ boundaries
      [] where
  length := length_replicate
  passed := by
    intro index hlt
    exact absurd hlt (Nat.not_lt_zero index)
  used := by
    intro index boundary _
    simp [Held, getElem?_replicate]

section Bound

variable (hfirsts : (boundaries.map
  RequestBoundary.firstSourceIndex).Nodup)

include hfirsts

/-- Boundaries that begin at one item are one. -/
theorem boundary_index_unique {left right : Nat}
    {boundary other : RequestBoundary}
    (hleft : boundaries[left]? = some boundary)
    (hright : boundaries[right]? = some other)
    (hfirst : boundary.firstSourceIndex = other.firstSourceIndex) :
    left = right := by
  have hleft' : (boundaries.map RequestBoundary.firstSourceIndex)[left]? =
      some boundary.firstSourceIndex := by simp [hleft]
  have hright' : (boundaries.map RequestBoundary.firstSourceIndex)[right]? =
      some boundary.firstSourceIndex := by simp [hright, hfirst]
  obtain ⟨hlt, hvalue⟩ := List.getElem?_eq_some_iff.mp hleft'
  obtain ⟨hlt', hvalue'⟩ := List.getElem?_eq_some_iff.mp hright'
  exact (hfirsts.getElem_inj_iff).mp (hvalue.trans hvalue'.symm)

/-- A usage that comes to hold a boundary marks it. -/
theorem AttachState.Marks.set (hmarks : state.Marks boundaries done)
    {index cursor : Nat} {boundary : RequestBoundary}
    (hboundary : boundaries[index]? = some boundary)
    (hsource : usage.sourceIndex = some boundary.firstSourceIndex)
    (hcursor : ∀ passed : Nat, passed < cursor → passed < boundaries.length →
      passed = index ∨ state.used[passed]? = some true) :
    AttachState.Marks ⟨cursor, state.used.set index true⟩ boundaries
      (done ++ [usage]) where
  length := by rw [length_set, hmarks.length]
  passed := by
    intro passed hlt hlength
    rw [getElem?_set]
    split
    · rw [if_pos (hmarks.length ▸ ‹index = passed› ▸ hlength)]
    · rcases hcursor passed hlt hlength with rfl | hused
      · exact absurd rfl ‹¬ passed = passed›
      · exact hused
  used := by
    intro other otherBoundary hother
    rw [getElem?_set, held_concat, hsource]
    split
    · rename_i hsame
      subst hsame
      rw [hboundary] at hother
      cases hother
      have hlt : index < state.used.length := by
        rw [hmarks.length]
        exact (List.getElem?_eq_some_iff.mp hboundary).1
      simp [hlt]
    · rename_i hne
      rw [hmarks.used other otherBoundary hother]
      constructor
      · exact Or.inl
      · rintro (hheld | hfirst)
        · exact hheld
        · exact absurd (boundary_index_unique hfirsts hboundary hother
            (Option.some.inj hfirst)) hne

end Bound

/-- A usage that holds nothing new leaves the marks as they are. -/
theorem AttachState.Marks.keep (hmarks : state.Marks boundaries done)
    {cursor : Nat}
    (hsource : ∀ boundary ∈ boundaries,
      usage.sourceIndex = some boundary.firstSourceIndex →
        Held done boundary)
    (hcursor : ∀ passed : Nat, passed < cursor → passed < boundaries.length →
      state.used[passed]? = some true) :
    AttachState.Marks ⟨cursor, state.used⟩ boundaries (done ++ [usage]) where
  length := hmarks.length
  passed := hcursor
  used := by
    intro index boundary hboundary
    rw [hmarks.used index boundary hboundary, held_concat]
    constructor
    · exact Or.inl
    · rintro (hheld | hfirst)
      · exact hheld
      · exact hsource boundary (mem_of_getElem? hboundary) hfirst

theorem getElem?_takeWhile_id (marks : List Bool) :
    (∀ index < (marks.takeWhile id).length, marks[index]? = some true) ∧
      marks[(marks.takeWhile id).length]? ≠ some true := by
  induction marks with
  | nil => simp
  | cons mark rest ih =>
    cases mark with
    | false => simp
    | true =>
      simp only [takeWhile_cons, id, if_true, length_cons]
      refine ⟨?_, by simpa using ih.2⟩
      rintro (_ | index) hlt
      · rfl
      · simpa using ih.1 index (by omega)

/-- The cursor comes to stand at a boundary that is not marked, with all
boundaries before it marked. -/
theorem AttachState.Marks.skipUsed (hmarks : state.Marks boundaries done) :
    (∀ passed : Nat, passed < skipUsed state → passed < boundaries.length →
        state.used[passed]? = some true) ∧
      state.used[Proxy.skipUsed state]? ≠ some true := by
  obtain ⟨hmarked, hstop⟩ :=
    getElem?_takeWhile_id (state.used.drop state.cursor)
  rw [getElem?_drop] at hstop
  refine ⟨?_, hstop⟩
  intro passed hlt hlength
  by_cases hbefore : passed < state.cursor
  · exact hmarks.passed passed hbefore hlength
  · have hoffset := hmarked (passed - state.cursor) (by
      rw [Proxy.skipUsed] at hlt
      omega)
    rw [getElem?_drop] at hoffset
    rwa [Nat.add_sub_cancel' (Nat.not_lt.mp hbefore)] at hoffset

theorem findNamed_eq_some (hmarks : state.Marks boundaries done)
    {responseId : Option String} {matched : RequestBoundary} {index : Nat}
    (hfind : findNamed boundaries state.used responseId =
      some (matched, index)) :
    boundaries[index]? = some matched ∧ responseId.isSome ∧
      matched.responseId = responseId ∧ ¬ Held done matched := by
  obtain ⟨respId, rfl, hfind⟩ := Option.bind_eq_some_iff.mp hfind
  have hindex : boundaries[index]? = some matched :=
    mem_zipIdx_iff_getElem?.mp (mem_of_find?_eq_some hfind)
  have hboth := find?_some hfind
  simp only [Bool.and_eq_true, Bool.not_eq_true', decide_eq_true_eq] at hboth
  refine ⟨hindex, rfl, hboth.2, ?_⟩
  rw [← hmarks.used index matched hindex]
  intro hused
  rw [getD_eq_getElem?_getD, hused] at hboth
  cases hboth.1

theorem findNamed_eq_none (hmarks : state.Marks boundaries done)
    (hfind : findNamed boundaries state.used usage.responseId = none) :
    ∀ other ∈ boundaries, Matches usage other → Held done other := by
  rintro other hother ⟨hsome, hsame⟩
  obtain ⟨respId, hrespId⟩ := Option.isSome_iff_exists.mp hsome
  rw [hrespId] at hfind hsame
  obtain ⟨index, hindex⟩ := getElem?_of_mem hother
  have hnone := find?_eq_none.mp hfind (other, index)
    (mem_zipIdx_iff_getElem?.mpr hindex)
  have hlt : index < state.used.length := by
    rw [hmarks.length]
    exact (List.getElem?_eq_some_iff.mp hindex).1
  rw [← hmarks.used index other hindex]
  simpa [hsame, getD_eq_getElem?_getD, getElem?_eq_getElem hlt]
    using hnone

section

variable (hfirsts : (boundaries.map RequestBoundary.firstSourceIndex).Nodup)
include hfirsts

/-- One turn of the loop. -/
theorem attached_attachOne (hmarks : state.Marks boundaries done)
    (usage : CompletedRequestUsage) :
    Attached boundaries done usage (attachOne boundaries state usage).1 ∧
      (attachOne boundaries state usage).2.Marks boundaries
        (done ++ [(attachOne boundaries state usage).1]) := by
  unfold attachOne
  cases hsource : usage.sourceIndex with
  | some sourceIndex =>
    dsimp only
    cases hfind : boundaries.findIdx? fun boundary =>
        boundary.firstSourceIndex = sourceIndex with
    | some index =>
      obtain ⟨hlt, hfirst, -⟩ := findIdx?_eq_some_iff_getElem.mp hfind
      refine ⟨.anchored hsource, ?_⟩
      have hindex : boundaries[index]? = some boundaries[index] :=
        getElem?_eq_getElem hlt
      refine hmarks.set hfirsts hindex ?_ fun passed hpassed hlength =>
        Or.inr (hmarks.passed passed hpassed hlength)
      rw [hsource]
      exact congrArg some (of_decide_eq_true hfirst).symm
    | none =>
      refine ⟨.anchored hsource, hmarks.keep ?_ hmarks.passed⟩
      intro boundary hmem hfirst
      have hother := findIdx?_eq_none_iff.mp hfind boundary hmem
      rw [hsource] at hfirst
      simp [Option.some.inj hfirst] at hother
  | none =>
    dsimp only
    cases hfind : findNamed boundaries state.used usage.responseId with
    | some entry =>
      obtain ⟨matched, index⟩ := entry
      obtain ⟨hindex, hsome, hsame, hfree⟩ := findNamed_eq_some hmarks hfind
      refine ⟨.named hsource (mem_of_getElem? hindex) ⟨hsome, hsame⟩
        hfree, ?_⟩
      exact hmarks.set hfirsts hindex rfl fun passed hpassed hlength =>
        Or.inr (hmarks.passed passed hpassed hlength)
    | none =>
      have hnamed := findNamed_eq_none hmarks hfind
      obtain ⟨hpassed, hstop⟩ := hmarks.skipUsed
      dsimp only
      cases hcursor : boundaries[skipUsed state]? with
      | some matched =>
        obtain ⟨hlt, hvalue⟩ := List.getElem?_eq_some_iff.mp hcursor
        have hsplit : boundaries = boundaries.take (skipUsed state) ++
            matched :: boundaries.drop (skipUsed state + 1) := by
          rw [← hvalue, cons_getElem_drop_succ,
            take_append_drop]
        refine ⟨.next hsource hnamed hsplit ?_ ?_, ?_⟩
        · intro other hother
          obtain ⟨index, hindex⟩ := getElem?_of_mem hother
          rw [getElem?_take] at hindex
          split at hindex
          · rename_i hbefore
            rw [← hmarks.used index other hindex]
            exact hpassed index hbefore
              (List.getElem?_eq_some_iff.mp hindex).1
          · cases hindex
        · rw [← hmarks.used _ matched hcursor]
          exact hstop
        · refine hmarks.set hfirsts hcursor rfl ?_
          intro passed hbefore hlength
          rcases Nat.lt_succ_iff_lt_or_eq.mp hbefore with hbefore | rfl
          · exact Or.inr (hpassed passed hbefore hlength)
          · exact Or.inl rfl
      | none =>
        have hbeyond := List.getElem?_eq_none_iff.mp hcursor
        have hheld : ∀ other ∈ boundaries, Held done other := by
          intro other hother
          obtain ⟨index, hindex⟩ := getElem?_of_mem hother
          have hlt := (List.getElem?_eq_some_iff.mp hindex).1
          rw [← hmarks.used index other hindex]
          exact hpassed index (Nat.lt_of_lt_of_le hlt hbeyond) hlt
        dsimp only
        cases hlast : boundaries.getLast? with
        | some last =>
          refine ⟨.last hsource hheld hlast, hmarks.keep ?_ hpassed⟩
          intro boundary hmem _
          exact hheld boundary hmem
        | none =>
          have hnone := getLast?_eq_none_iff.mp hlast
          refine ⟨.unbound hsource hnone, hmarks.keep ?_ hpassed⟩
          intro boundary hmem _
          exact hheld boundary hmem

theorem attachFrom_snoc (usages : List CompletedRequestUsage)
    (usage : CompletedRequestUsage) (hmarks : state.Marks boundaries done) :
    ∃ out, attachFrom boundaries state (usages ++ [usage]) =
        attachFrom boundaries state usages ++ [out] ∧
      Attached boundaries (done ++ attachFrom boundaries state usages) usage
        out := by
  induction usages generalizing state done with
  | nil =>
    have hattached := (attached_attachOne hfirsts hmarks usage).1
    exact ⟨_, rfl, by simpa [attachFrom] using hattached⟩
  | cons first rest ih =>
    have hmarks' := (attached_attachOne hfirsts hmarks first).2
    obtain ⟨out, heq, hattached⟩ := ih hmarks'
    refine ⟨out, ?_, ?_⟩
    · rw [cons_append, attachFrom, heq, attachFrom, cons_append]
    · rw [attachFrom]
      simpa using hattached

/-- The pass over one more usage. -/
theorem attach_snoc (usages : List CompletedRequestUsage)
    (usage : CompletedRequestUsage) :
    ∃ out, attachUsageToRequestBoundaries (usages ++ [usage]) boundaries =
        attachUsageToRequestBoundaries usages boundaries ++ [out] ∧
      Attached boundaries (attachUsageToRequestBoundaries usages boundaries)
        usage out :=
  attachFrom_snoc hfirsts usages usage (marks_start boundaries)

end

theorem length_attachFrom (boundaries : List RequestBoundary)
    (state : AttachState) (usages : List CompletedRequestUsage) :
    (attachFrom boundaries state usages).length = usages.length := by
  induction usages generalizing state with
  | nil => rfl
  | cons usage rest ih => simp [attachFrom, ih]

end Vellum.Proxy

/-
A forest given by a partial parent function, and the breadth-first traversal of
an index of children.  On an index that agrees with the parents of an acyclic
forest the traversal meets every node below its root once.
-/
import Mathlib

namespace Vellum

open List Option

namespace Forest

universe u

variable {K : Type u}

/-- The first node is strictly below the second. -/
def Below (parent : K → Option K) : K → K → Prop :=
  Relation.TransGen fun child above => parent child = some above

/-- The first node is the second or below it. -/
def AtOrBelow (parent : K → Option K) (node above : K) : Prop :=
  node = above ∨ Below parent node above

def Acyclic (parent : K → Option K) : Prop := ∀ node, ¬ Below parent node node

theorem acyclic_none : Acyclic fun _ : K => none := by
  intro node hbelow
  cases hbelow with
  | single hedge => cases hedge
  | tail _ hedge => cases hedge

variable {parent : K → Option K} {limit : Nat} {child node above : K}

theorem Below.mono {parent' : K → Option K}
    (hsub : ∀ child above, parent' child = some above →
      parent child = some above) (hbelow : Below parent' node above) :
    Below parent node above :=
  Relation.TransGen.mono hsub _ _ hbelow

/-- Taking edges away closes no cycle. -/
theorem Acyclic.mono {parent' : K → Option K} (hacyclic : Acyclic parent)
    (hsub : ∀ child above, parent' child = some above →
      parent child = some above) : Acyclic parent' := by
  intro node hbelow
  exact hacyclic node (hbelow.mono hsub)

theorem AtOrBelow.cons (hedge : parent child = some node)
    (hnode : AtOrBelow parent node above) : Below parent child above := by
  rcases hnode with rfl | hbelow
  · exact .single hedge
  · exact .head hedge hbelow

theorem AtOrBelow.tail (hnode : AtOrBelow parent child node)
    (hedge : parent node = some above) : Below parent child above := by
  rcases hnode with rfl | hbelow
  · exact .single hedge
  · exact .tail hbelow hedge

theorem Below.of_parent {root : K} (hbelow : Below parent child root)
    (hedge : parent child = some above) : AtOrBelow parent above root := by
  induction hbelow using Relation.TransGen.head_induction_on with
  | single hroot =>
    rw [hedge] at hroot
    exact Or.inl (some.inj hroot)
  | head hnext hrest ih =>
    rw [hedge] at hnext
    obtain rfl := some.inj hnext
    exact Or.inr hrest

theorem not_below_of_none (hnone : parent node = none) :
    ¬ Below parent node above := by
  intro hbelow
  obtain ⟨next, hedge, _⟩ := Relation.TransGen.head'_iff.mp hbelow
  rw [hnone] at hedge
  cases hedge

section Link

variable {parent parent' : K → Option K} {child above : K}
  (hlink : parent' child = some above)
  (hkeep : ∀ node, node ≠ child → parent' node = parent node)

include hlink hkeep

/-- A path with the new edge goes up to the child and on from its parent. -/
theorem Below.of_link {low high : K} (hbelow : Below parent' low high) :
    Below parent low high ∨
      (AtOrBelow parent low child ∧ AtOrBelow parent above high) := by
  induction hbelow with
  | single hedge =>
    by_cases hlow : low = child
    · subst hlow
      rw [hlink] at hedge
      exact Or.inr ⟨Or.inl rfl, Or.inl (some.inj hedge)⟩
    · rw [hkeep low hlow] at hedge
      exact Or.inl (.single hedge)
  | @tail node top _ hedge ih =>
    by_cases hnode : node = child
    · subst hnode
      rw [hlink] at hedge
      obtain rfl := some.inj hedge
      rcases ih with hbelow | ⟨hlow, _⟩
      · exact Or.inr ⟨Or.inr hbelow, Or.inl rfl⟩
      · exact Or.inr ⟨hlow, Or.inl rfl⟩
    · rw [hkeep node hnode] at hedge
      rcases ih with hbelow | ⟨hlow, habove⟩
      · exact Or.inl (hbelow.tail hedge)
      · exact Or.inr ⟨hlow, Or.inr (habove.tail hedge)⟩

/-- A new edge closes no cycle if its upper end is not at or below the lower
one. -/
theorem Acyclic.link (hacyclic : Acyclic parent)
    (hfree : ¬ AtOrBelow parent above child) : Acyclic parent' := by
  intro node hbelow
  rcases hbelow.of_link hlink hkeep with hcycle | ⟨hlow, hhigh⟩
  · exact hacyclic node hcycle
  · apply hfree
    rcases hhigh with rfl | hhigh
    · exact hlow
    · rcases hlow with rfl | hlow
      · exact Or.inr hhigh
      · exact Or.inr (hhigh.trans hlow)

end Link

/-! ### Breadth first -/

/-- Why a traversal stops early. -/
inductive Stop where
  | repeated
  | exceeded

structure Frontier (K : Type u) where
  visited : List K
  result : List K
  queue : List K

variable [DecidableEq K]

/-- Visit the children of a node one after the other. -/
def visitAll (limit : Nat) : List K → Frontier K → Except Stop (Frontier K)
  | [], frontier => .ok frontier
  | child :: rest, frontier =>
    if child ∈ frontier.visited then .error .repeated
    else if limit ≤ frontier.result.length then .error .exceeded
    else
      visitAll limit rest
        { visited := child :: frontier.visited
          result := frontier.result ++ [child]
          queue := frontier.queue ++ [child] }

/-- A visit that succeeds appends all children to the result and the queue. -/
theorem visitAll_ok {kids : List K} {frontier next : Frontier K}
    (hvisit : visitAll limit kids frontier = .ok next) :
    next.result = frontier.result ++ kids ∧
      next.queue = frontier.queue ++ kids ∧
      (kids = [] ∨ frontier.result.length + kids.length ≤ limit) := by
  induction kids generalizing frontier with
  | nil =>
    obtain rfl := Except.ok.inj hvisit
    simp
  | cons child rest ih =>
    rw [visitAll] at hvisit
    split at hvisit
    · cases hvisit
    · split at hvisit
      · cases hvisit
      · rename_i hroom
        obtain ⟨hresult, hqueue, hlength⟩ := ih hvisit
        refine ⟨by simp [hresult], by simp [hqueue], Or.inr ?_⟩
        rcases hlength with rfl | hlength
        · simp only [length_cons, length_nil]
          omega
        · simp only [length_append, length_cons, length_nil]
            at hlength ⊢
          omega

/-- Empty the queue. -/
def traverseFrom (children : K → List K) (limit : Nat)
    (frontier : Frontier K) : Except Stop (List K) :=
  match hqueue : frontier.queue with
  | [] => .ok frontier.result
  | current :: queue =>
    match hvisit : visitAll limit (children current)
        { frontier with queue } with
    | .error stop => .error stop
    | .ok next =>
      have : next.queue.length + (limit - next.result.length) <
          frontier.queue.length + (limit - frontier.result.length) := by
        obtain ⟨hresult, hnext, hlength⟩ := visitAll_ok hvisit
        rw [hresult, hnext, hqueue]
        simp only [List.length_append, List.length_cons] at hlength ⊢
        rcases hlength with hnil | hlength
        · rw [hnil]
          simp only [List.length_nil]
          omega
        · omega
      traverseFrom children limit next
termination_by frontier.queue.length + (limit - frontier.result.length)

/-- The nodes below a root, nearest first. -/
def traverse (children : K → List K) (limit : Nat) (root : K) :
    Except Stop (List K) :=
  traverseFrom children limit ⟨[root], [], [root]⟩

theorem traverseFrom_of_empty {children : K → List K} {frontier : Frontier K}
    (hqueue : frontier.queue = []) :
    traverseFrom children limit frontier = .ok frontier.result := by
  rw [traverseFrom]
  split
  · rfl
  · rename_i current queue hcons
    rw [hqueue] at hcons
    cases hcons

theorem traverseFrom_of_cons {children : K → List K} {frontier : Frontier K}
    {current : K} {queue : List K}
    (hqueue : frontier.queue = current :: queue) :
    traverseFrom children limit frontier =
      (visitAll limit (children current) { frontier with queue }).bind
        (traverseFrom children limit) := by
  rw [traverseFrom]
  split
  · rename_i hnil
    rw [hqueue] at hnil
    cases hnil
  · rename_i first rest hcons
    rw [hqueue] at hcons
    obtain ⟨rfl, rfl⟩ := List.cons.inj hcons
    split
    · rename_i stop hstop
      rw [hstop]
      rfl
    · rename_i next hnext
      exact (congrArg (fun visited => visited.bind
        (traverseFrom children limit)) hnext).symm

/-- Children that are new are visited as far as there is room. -/
theorem visitAll_fresh {kids : List K} {frontier : Frontier K}
    (hnodup : kids.Nodup) (hfresh : ∀ child ∈ kids, child ∉ frontier.visited) :
    visitAll limit kids frontier =
      if kids = [] ∨ frontier.result.length + kids.length ≤ limit then
        .ok ⟨kids.reverse ++ frontier.visited, frontier.result ++ kids,
          frontier.queue ++ kids⟩
      else .error .exceeded := by
  induction kids generalizing frontier with
  | nil => simp [visitAll]
  | cons child rest ih =>
    obtain ⟨hchild, hrest⟩ := nodup_cons.mp hnodup
    rw [visitAll, if_neg (hfresh child mem_cons_self)]
    have hlater : ∀ other ∈ rest, other ∉ child :: frontier.visited := by
      intro other hother hmem
      rcases mem_cons.mp hmem with rfl | hmem
      · exact hchild hother
      · exact hfresh other (mem_cons_of_mem child hother) hmem
    by_cases hroom : limit ≤ frontier.result.length
    · rw [if_pos hroom, if_neg]
      rintro (hnil | hlength)
      · cases hnil
      · rw [length_cons] at hlength
        omega
    · rw [if_neg hroom, ih hrest hlater]
      simp only [length_append, length_cons, length_nil,
        reverse_cons, append_assoc, singleton_append,
        reduceCtorEq, false_or]
      by_cases hnil : rest = []
      · subst hnil
        rw [if_pos (Or.inl rfl), if_pos]
        simp only [length_nil]
        omega
      · by_cases hlength :
            frontier.result.length + (rest.length + 1) ≤ limit
        · rw [if_pos hlength, if_pos]
          right
          omega
        · rw [if_neg hlength, if_neg]
          rintro (hrest | hrest)
          · exact hnil hrest
          · omega

section Traverse

variable {parent : K → Option K} {children : K → List K} {limit : Nat}
  {root : K}

/-- What is known while the queue is emptied: what was taken from it is
`done`, and the children of those are in the result. -/
structure Explored (parent : K → Option K) (limit : Nat) (root : K)
    (frontier : Frontier K) (done : List K) : Prop where
  split : root :: frontier.result = done ++ frontier.queue
  nodup : (root :: frontier.result).Nodup
  visited : ∀ node, node ∈ frontier.visited ↔ node ∈ root :: frontier.result
  below : ∀ node ∈ frontier.result, Below parent node root
  closed : ∀ node child, node ∈ done → parent child = some node →
    child ∈ frontier.result
  origin : ∀ node ∈ frontier.result, ∃ above ∈ done, parent node = some above
  room : frontier.result.length ≤ limit

omit [DecidableEq K] in
theorem explored_start : Explored parent limit root ⟨[root], [], [root]⟩ [] where
  split := rfl
  nodup := nodup_singleton root
  visited := fun _ => Iff.rfl
  below := by rintro _ ⟨⟩
  closed := by rintro _ _ ⟨⟩
  origin := by rintro _ ⟨⟩
  room := Nat.zero_le limit

variable {frontier : Frontier K} {done : List K}

omit [DecidableEq K] in
theorem Explored.atOrBelow
    (hexplored : Explored parent limit root frontier done) {node : K}
    (hnode : node ∈ done ++ frontier.queue) : AtOrBelow parent node root := by
  rw [← hexplored.split] at hnode
  rcases mem_cons.mp hnode with rfl | hnode
  · exact Or.inl rfl
  · exact Or.inr (hexplored.below node hnode)

variable (hacyclic : Acyclic parent)
  (hindex : ∀ child above, child ∈ children above ↔ parent child = some above)

include hacyclic hindex

omit [DecidableEq K] in
/-- The children of the next node are new. -/
theorem Explored.fresh {queue : List K} {current : K}
    (hexplored : Explored parent limit root frontier done)
    (hqueue : frontier.queue = current :: queue) {child : K}
    (hchild : child ∈ children current) : child ∉ root :: frontier.result := by
  have hparent := (hindex child current).mp hchild
  have hcurrent : current ∈ done ++ frontier.queue := by
    rw [hqueue]
    exact mem_append_right done mem_cons_self
  intro hmem
  rcases mem_cons.mp hmem with rfl | hmem
  · -- the root would be below itself
    exact hacyclic child
      (AtOrBelow.cons hparent (hexplored.atOrBelow hcurrent))
  · -- its only parent is the current node, which was not taken before
    obtain ⟨above, hdone, habove⟩ := hexplored.origin child hmem
    rw [hparent] at habove
    obtain rfl := some.inj habove
    have hnodup := hexplored.nodup
    rw [hexplored.split, hqueue, nodup_append] at hnodup
    exact hnodup.2.2 current hdone current mem_cons_self rfl

omit [DecidableEq K] in
theorem Explored.next {queue : List K} {current : K}
    (hexplored : Explored parent limit root frontier done)
    (hqueue : frontier.queue = current :: queue)
    (hnodup : (children current).Nodup)
    (hroom : frontier.result.length + (children current).length ≤ limit) :
    Explored parent limit root
      ⟨(children current).reverse ++ frontier.visited,
        frontier.result ++ children current, queue ++ children current⟩
      (done ++ [current]) where
  split := by
    rw [append_assoc, singleton_append, ← cons_append,
      ← cons_append, ← append_assoc, ← hqueue, ← hexplored.split]
  nodup := by
    rw [← cons_append]
    apply hexplored.nodup.append hnodup
    intro child hmem hchild
    exact hexplored.fresh hacyclic hindex hqueue hchild hmem
  visited := by
    intro node
    rw [mem_append, mem_reverse, hexplored.visited,
      ← cons_append, mem_append]
    exact or_comm
  below := by
    intro node hnode
    rcases mem_append.mp hnode with hold | hnew
    · exact hexplored.below node hold
    · apply AtOrBelow.cons ((hindex node current).mp hnew)
      apply hexplored.atOrBelow
      rw [hqueue]
      exact mem_append_right done mem_cons_self
  closed := by
    intro node child hnode hparent
    rcases mem_append.mp hnode with hold | hnew
    · exact mem_append_left _ (hexplored.closed node child hold hparent)
    · rw [mem_singleton] at hnew
      subst hnew
      exact mem_append_right _ ((hindex child node).mpr hparent)
  origin := by
    intro node hnode
    rcases mem_append.mp hnode with hold | hnew
    · obtain ⟨above, habove, hparent⟩ := hexplored.origin node hold
      exact ⟨above, mem_append_left _ habove, hparent⟩
    · exact ⟨current, mem_append_right _ (mem_singleton_self current),
        (hindex node current).mp hnew⟩
  room := by
    rw [length_append]
    exact hroom

/-- The result of a traversal: every node below the root once, or more of them
than there is room for. -/
structure Traversed (parent : K → Option K) (limit : Nat) (root : K)
    (result : Except Stop (List K)) : Prop where
  complete : ∀ found, result = .ok found →
    found.Nodup ∧ (∀ node, node ∈ found ↔ Below parent node root) ∧
      found.length ≤ limit
  stopped : ∀ stop, result = .error stop → stop = .exceeded ∧
    ∃ found : List K, found.Nodup ∧ limit < found.length ∧
      ∀ node ∈ found, Below parent node root

omit [DecidableEq K] hacyclic hindex in
/-- With an empty queue everything below the root has been found. -/
theorem Explored.complete (hexplored : Explored parent limit root frontier done)
    (hqueue : frontier.queue = []) (node : K) :
    node ∈ frontier.result ↔ Below parent node root := by
  have hdone : done = root :: frontier.result := by
    rw [hexplored.split, hqueue, append_nil]
  constructor
  · exact hexplored.below node
  · intro hbelow
    induction hbelow using Relation.TransGen.head_induction_on with
    | single hedge =>
      apply hexplored.closed root _ _ hedge
      rw [hdone]
      exact mem_cons_self
    | head hedge _ ih =>
      apply hexplored.closed _ _ _ hedge
      rw [hdone]
      exact mem_cons_of_mem root ih

theorem Explored.traversed (hnodup : ∀ node, (children node).Nodup)
    (frontier : Frontier K) (done : List K)
    (hexplored : Explored parent limit root frontier done) :
    Traversed parent limit root (traverseFrom children limit frontier) := by
  induction hsize : frontier.queue.length + (limit - frontier.result.length)
      using Nat.strongRecOn generalizing frontier done with
  | _ size ih =>
    cases hqueue : frontier.queue with
    | nil =>
      rw [traverseFrom_of_empty hqueue]
      constructor
      · intro found hfound
        obtain rfl := Except.ok.inj hfound
        exact ⟨(nodup_cons.mp hexplored.nodup).2,
          hexplored.complete hqueue, hexplored.room⟩
      · intro stop hstop
        cases hstop
    | cons current queue =>
      have hfresh : ∀ child ∈ children current, child ∉
          (Frontier.mk frontier.visited frontier.result queue).visited := by
        intro child hchild hvisited
        exact hexplored.fresh hacyclic hindex hqueue hchild
          ((hexplored.visited child).mp hvisited)
      rw [traverseFrom_of_cons hqueue,
        visitAll_fresh (hnodup current) hfresh]
      have hroomy := hexplored.room
      split
      · rename_i hroom
        have hlength : frontier.result.length + (children current).length ≤
            limit := by
          rcases hroom with hnil | hlength
          · rw [hnil]
            exact hroomy
          · exact hlength
        apply ih _ _ _ _
          (hexplored.next hacyclic hindex hqueue (hnodup current) hlength) rfl
        rw [← hsize, hqueue]
        simp only [length_append, length_cons]
        omega
      · rename_i hfull
        constructor
        · intro found hfound
          cases hfound
        · intro stop hstop
          obtain rfl := Except.error.inj hstop
          refine ⟨rfl, frontier.result ++ children current, ?_, ?_, ?_⟩
          · apply (nodup_cons.mp hexplored.nodup).2.append
              (hnodup current)
            intro child hmem hchild
            exact hexplored.fresh hacyclic hindex hqueue hchild
              (mem_cons_of_mem root hmem)
          · rw [length_append]
            by_contra hle
            exact hfull (Or.inr (Nat.le_of_not_lt hle))
          · intro node hnode
            rcases mem_append.mp hnode with hold | hnew
            · exact hexplored.below node hold
            · apply AtOrBelow.cons ((hindex node current).mp hnew)
              apply hexplored.atOrBelow
              rw [hqueue]
              exact mem_append_right done mem_cons_self

theorem traversed_traverse (hnodup : ∀ node, (children node).Nodup) :
    Traversed parent limit root (traverse children limit root) :=
  Explored.traversed hacyclic hindex hnodup _ _ explored_start

end Traverse

end Forest

end Vellum

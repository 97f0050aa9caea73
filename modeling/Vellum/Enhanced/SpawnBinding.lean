/-
Spawned threads over several launches.  A child takes its binding from its
parent's binding as the launch serves it, and a later notification about the
same child computes that binding again; it is compared with the stored one.
-/
import Vellum.Enhanced.ThreadRouting

namespace Vellum.Enhanced

open List

/-- What a lifecycle notification says: a `thread/started` names the child's
provider, an item perhaps its model. -/
structure Announcement where
  parentThreadId : String
  children : List String
  provider : Option String
  model : Option String
deriving DecidableEq

/-- The announcement of a spawned child, if the notification is one. -/
def announcement (notification : Json) : Option Announcement :=
  (notification.get "params").bind fun params =>
    if stringField "method" notification = some "thread/started" then
      (params.get "thread").bind fun thread =>
        match nonBlank (stringField "parentThreadId" thread),
            requiredString thread "id",
            requiredString thread "modelProvider" with
        | some parent, .ok child, .ok provider =>
          some ⟨parent, [child], some provider, none⟩
        | _, _, _ => none
    else
      match findThreadId params, params.get "item" with
      | some parent, some item =>
        match BridgeState.spawnedThreadIds parent item with
        | .ok (child :: rest) => some ⟨parent, child :: rest, none,
            nonBlank (stringField "model" item)⟩
        | _ => none
      | _, _ => none

namespace BridgeState

/-- An announcement comes from the parent's plane, and names the provider that
the launch gives to children of the parent, or a model of its provider. -/
def Admits (state : BridgeState) (plane : ExecutionPlane)
    (parent : ThreadRuntimeBinding) (announced : Announcement) : Prop :=
  parent.plane = plane ∧
    match announced.provider with
    | some provider => provider = state.childProviderForBinding parent
    | none => state.checkRequestedModel announced.parentThreadId parent
        (announced.model.getD parent.modelId) = .ok ()

theorem announcement_children {notification : Json} {announced : Announcement}
    (hannounced : announcement notification = some announced) :
    announced.children ≠ [] := by
  obtain ⟨params, -, hcontent⟩ := Option.bind_eq_some_iff.mp hannounced
  split at hcontent
  · obtain ⟨thread, -, hcontent⟩ := Option.bind_eq_some_iff.mp hcontent
    split at hcontent
    · cases hcontent
      exact cons_ne_nil _ _
    · cases hcontent
  · split at hcontent
    · split at hcontent
      · cases hcontent
        exact cons_ne_nil _ _
      · cases hcontent
    · cases hcontent

/-- An announcement is taken up where the parent is bound and admits it, and
fails otherwise. -/
theorem announcedChildren_cases (state : BridgeState) (plane : ExecutionPlane)
    {notification : Json} {announced : Announcement}
    (hannounced : announcement notification = some announced) :
    (∃ parent, state.requireBinding announced.parentThreadId = .ok parent ∧
      state.Admits plane parent announced ∧
      state.announcedChildren plane notification =
        .ok (some (parent, announced.children))) ∨
    ∃ error, state.announcedChildren plane notification = .error error ∧
      ∀ parent, state.requireBinding announced.parentThreadId = .ok parent →
        ¬ state.Admits plane parent announced := by
  obtain ⟨params, hparams, hcontent⟩ := Option.bind_eq_some_iff.mp hannounced
  rw [announcedChildren, hparams]
  dsimp only
  split at hcontent
  · rename_i hmethod
    rw [if_pos hmethod, startedChild]
    obtain ⟨thread, hthread, hcontent⟩ := Option.bind_eq_some_iff.mp hcontent
    rw [hthread]
    dsimp only
    split at hcontent
    · rename_i hparent hchild hprovider
      cases hcontent
      rw [hparent, hchild, hprovider]
      simp only [bind, Except.bind]
      cases hrequire : state.requireBinding _ with
      | error error => exact Or.inr ⟨_, rfl, by rintro _ ⟨⟩⟩
      | ok bound =>
        dsimp only
        split
        · rename_i hplane
          refine Or.inr ⟨_, rfl, ?_⟩
          rintro parent heq ⟨hadmitted, -⟩
          exact hplane (Except.ok.inj heq ▸ hadmitted)
        · rename_i hplane
          split
          · rename_i hname
            refine Or.inr ⟨_, rfl, ?_⟩
            rintro parent heq ⟨-, hadmitted⟩
            exact hname (Except.ok.inj heq ▸ hadmitted)
          · rename_i hname
            exact Or.inl ⟨bound, rfl,
              ⟨of_not_not hplane, of_not_not hname⟩, rfl⟩
    · cases hcontent
  · rename_i hmethod
    rw [if_neg hmethod]
    split at hcontent
    · rename_i hparent hitem
      rw [spawnedChildren, hparent, hitem]
      split at hcontent
      · rename_i child rest hspawned
        cases hcontent
        simp only [bind, Except.bind, hspawned, isEmpty_cons,
          Bool.false_eq_true, ↓reduceIte]
        cases hrequire : state.requireBinding _ with
        | error error => exact Or.inr ⟨_, rfl, by rintro _ ⟨⟩⟩
        | ok bound =>
          dsimp only
          split
          · rename_i hplane
            refine Or.inr ⟨_, rfl, ?_⟩
            rintro parent heq ⟨hadmitted, -⟩
            exact hplane (Except.ok.inj heq ▸ hadmitted)
          · rename_i hplane
            split
            · rename_i hmodel
              refine Or.inr ⟨_, rfl, ?_⟩
              rintro parent heq ⟨-, hadmitted⟩
              rw [← Except.ok.inj heq] at hadmitted
              rw [hmodel] at hadmitted
              cases hadmitted
            · rename_i hmodel
              exact Or.inl ⟨bound, rfl, ⟨of_not_not hplane, hmodel⟩, rfl⟩
      · cases hcontent
    · cases hcontent

end BridgeState

namespace ThreadRuntimeBinding

theorem Same.refl (binding : ThreadRuntimeBinding) : binding.Same binding :=
  ⟨rfl, rfl, rfl, rfl, rfl, rfl⟩

theorem Same.symm {left right : ThreadRuntimeBinding} (hsame : left.Same right) :
    right.Same left := by
  obtain ⟨hversion, hplane, hdigest, hprovider, hmodel, hnative⟩ := hsame
  exact ⟨hversion.symm, hplane.symm, hdigest.symm, hprovider.symm, hmodel.symm,
    hnative.symm⟩

theorem Same.trans {first second third : ThreadRuntimeBinding}
    (hleft : first.Same second) (hright : second.Same third) :
    first.Same third := by
  obtain ⟨hversion, hplane, hdigest, hprovider, hmodel, hnative⟩ := hleft
  obtain ⟨hversion', hplane', hdigest', hprovider', hmodel', hnative'⟩ := hright
  exact ⟨hversion.trans hversion', hplane.trans hplane', hdigest.trans hdigest',
    hprovider.trans hprovider', hmodel.trans hmodel', hnative.trans hnative'⟩

end ThreadRuntimeBinding

namespace BridgeState

/-- Children of two bindings are bound the same when the bindings agree on what
a child takes. -/
theorem childBinding_same_iff {left right : ThreadRuntimeBinding}
    {child : String} {createdAt createdAt' : Int} :
    (childBinding left child createdAt).Same
        (childBinding right child createdAt') ↔
      left.plane = right.plane ∧ left.runtimeDigest = right.runtimeDigest ∧
        left.providerId = right.providerId ∧ left.modelId = right.modelId := by
  constructor
  · rintro ⟨-, hplane, hdigest, hprovider, hmodel, -⟩
    exact ⟨hplane, hdigest, hprovider, hmodel⟩
  · rintro ⟨hplane, hdigest, hprovider, hmodel⟩
    exact ⟨rfl, hplane, hdigest, hprovider, hmodel, rfl⟩

variable {parent : ThreadRuntimeBinding}

/-- After all children were accepted, each is bound as its parent gives. -/
theorem inheritChildBindings_ok {createdAt : String → Int}
    {children : List String} {store : ThreadRuntimeBindingStore}
    (hok : (inheritChildBindings parent createdAt children store).2 = .ok ()) :
    ∀ child ∈ children, ∃ stored,
      (inheritChildBindings parent createdAt children store).1.get child =
        some stored ∧
      stored.Same (childBinding parent child (createdAt child)) := by
  induction children generalizing store with
  | nil =>
    intro child hchild
    cases hchild
  | cons head rest ih =>
    rw [inheritChildBindings, inheritChildBinding] at hok ⊢
    cases hinsert : store.insertImmutable
        (childBinding parent head (createdAt head)) with
    | error error =>
      rw [hinsert] at hok
      cases hok
    | ok after =>
      rw [hinsert] at hok
      dsimp only at hok ⊢
      have hextends := inheritChildBindings_extends parent createdAt rest after
      intro child hchild
      rcases mem_cons.mp hchild with rfl | hrest
      · have hthread : (childBinding parent child
            (createdAt child)).threadId = child := rfl
        rcases ThreadRuntimeBindingStore.insertImmutable_ok hinsert with
          ⟨rfl, stored, hget, hsame⟩ | ⟨-, rfl⟩
        · exact ⟨stored, hextends child stored hget, hsame⟩
        · refine ⟨_, hextends child _ ?_, ThreadRuntimeBinding.Same.refl _⟩
          exact KeyedTable.find?_put_self store
            (childBinding parent child (createdAt child))
      · exact ih hok child hrest

/-- Bound children are accepted again, without a change, exactly when each is
bound as the parent gives now. -/
theorem inheritChildBindings_eq_self_iff {createdAt : String → Int}
    {children : List String} {store : ThreadRuntimeBindingStore}
    (hbound : ∀ child ∈ children, ∃ stored, store.get child = some stored) :
    inheritChildBindings parent createdAt children store = (store, .ok ()) ↔
      ∀ child ∈ children, ∀ stored, store.get child = some stored →
        stored.Same (childBinding parent child (createdAt child)) := by
  induction children with
  | nil => exact ⟨fun _ => by rintro _ ⟨⟩, fun _ => rfl⟩
  | cons head rest ih =>
    obtain ⟨hhead, hrest⟩ := forall_mem_cons.mp hbound
    obtain ⟨stored, hget⟩ := hhead
    have hversion : (childBinding parent head
        (createdAt head)).bindingVersion = bindingVersion := rfl
    have hinsert :=
      ThreadRuntimeBindingStore.insertImmutable_of_get hversion hget
    rw [forall_mem_cons, ← ih hrest, inheritChildBindings,
      inheritChildBinding, hinsert]
    by_cases hsame : stored.Same (childBinding parent head (createdAt head))
    · rw [if_pos hsame]
      have hhead : ∀ other, store.get head = some other →
          other.Same (childBinding parent head (createdAt head)) := by
        intro other hother
        rw [hget] at hother
        cases hother
        exact hsame
      exact ⟨fun h => ⟨hhead, h⟩, fun h => h.2⟩
    · rw [if_neg hsame]
      constructor
      · intro hok
        cases hok
      · rintro ⟨hhead, -⟩
        exact absurd (hhead stored hget) hsame

/-- The states that later launches on the same store pass through. -/
inductive Later (first : BridgeState) : BridgeState → Prop
  | same : Later first first
  | step {state : BridgeState} (later : Later first state)
      (reads : BridgeReads) (event : BridgeEvent) :
      Later first (state.step reads event).1
  | launch {state : BridgeState} (later : Later first state)
      (providers : TrustedProviderSet) (officialDigest enhancedDigest : String)
      (models : TrustedModelProviderMap) :
      Later first (.new state.store providers officialDigest enhancedDigest models)

theorem Later.store_extends {first second : BridgeState}
    (hlater : Later first second) : second.store.Extends first.store := by
  induction hlater with
  | same => exact ThreadRuntimeBindingStore.Extends.refl _
  | step _ reads event ih => exact (step_extends _ reads event).store.trans ih
  | launch _ _ _ _ _ ih => exact ih

/-- The digest a launch gives to children of a bound thread. -/
def servingDigest (state : BridgeState) (binding : ThreadRuntimeBinding) :
    String :=
  if state.bridgeOnly then state.officialDigest else binding.runtimeDigest

theorem effectiveBinding_digest (state : BridgeState)
    (binding : ThreadRuntimeBinding) :
    (state.effectiveBinding binding).runtimeDigest =
      state.servingDigest binding := by
  rw [effectiveBinding, servingDigest]
  split
  · rfl
  · rfl

theorem effectiveBinding_route (state : BridgeState)
    (binding : ThreadRuntimeBinding) :
    (state.effectiveBinding binding).providerId = binding.providerId ∧
      (state.effectiveBinding binding).modelId = binding.modelId := by
  rw [effectiveBinding]
  split
  · exact ⟨rfl, rfl⟩
  · exact ⟨rfl, rfl⟩

/-- Two launches compute the same binding for a child when they serve its parent
on the same plane with the same digest. -/
theorem childBinding_effective_same_iff {first second : BridgeState}
    {child : String} {createdAt createdAt' : Int} :
    (childBinding (first.effectiveBinding parent) child createdAt).Same
        (childBinding (second.effectiveBinding parent) child createdAt') ↔
      second.servingPlane parent = first.servingPlane parent ∧
        second.servingDigest parent = first.servingDigest parent := by
  obtain ⟨hprovider, hmodel⟩ := effectiveBinding_route first parent
  obtain ⟨hprovider', hmodel'⟩ := effectiveBinding_route second parent
  rw [childBinding_same_iff, effectiveBinding_plane, effectiveBinding_plane,
    effectiveBinding_digest, effectiveBinding_digest, hprovider, hmodel,
    hprovider', hmodel']
  exact ⟨fun h => ⟨h.1.symm, h.2.1.symm⟩,
    fun h => ⟨h.1.symm, h.2.symm, rfl, rfl⟩⟩

/-- A notification about children that were announced and bound before, in
this launch or an earlier one, is accepted without a change exactly when the
launch admits it and serves the parent as the binding launch did. -/
theorem spawn_accepted_again_iff {first second : BridgeState}
    {plane plane' : ExecutionPlane} {notification repeated : Json}
    {createdAt createdAt' : String → Int} {announced again : Announcement}
    {parent : ThreadRuntimeBinding}
    (hannounced : announcement notification = some announced)
    (hbound : (first.bindSpawnedAgentThreads createdAt plane notification).2 =
      .ok ())
    (hstored : first.store.get announced.parentThreadId = some parent)
    (hlater : Later
      (first.bindSpawnedAgentThreads createdAt plane notification).1 second)
    (hagain : announcement repeated = some again)
    (hparent : again.parentThreadId = announced.parentThreadId)
    (hchildren : ∀ child ∈ again.children, child ∈ announced.children) :
    second.bindSpawnedAgentThreads createdAt' plane' repeated =
        (second, .ok ()) ↔
      second.Admits plane' (second.effectiveBinding parent) again ∧
        second.servingPlane parent = first.servingPlane parent ∧
        second.servingDigest parent = first.servingDigest parent := by
  have hextends := hlater.store_extends
  have hfirst : first.requireBinding announced.parentThreadId =
      .ok (first.effectiveBinding parent) := by
    rw [requireBinding, hstored]
  have hkept : second.store.get announced.parentThreadId = some parent :=
    hextends _ _ ((bindSpawnedAgentThreads_extends first createdAt plane
      notification).store _ _ hstored)
  have hsecond : second.requireBinding again.parentThreadId =
      .ok (second.effectiveBinding parent) := by
    rw [requireBinding, hparent, hkept]
  -- What the first notification left under each child it announced.
  have hchild : ∀ child ∈ announced.children, ∃ stored,
      second.store.get child = some stored ∧ stored.Same
        (childBinding (first.effectiveBinding parent) child
          (createdAt child)) := by
    rcases announcedChildren_cases first plane hannounced with
      ⟨bound, hrequire, -, htaken⟩ | ⟨error, hfailed, -⟩
    · rw [hfirst] at hrequire
      cases hrequire
      rw [bindSpawnedAgentThreads, htaken] at hbound hextends
      intro child hmem
      obtain ⟨stored, hget, hsame⟩ := inheritChildBindings_ok hbound child hmem
      exact ⟨stored, hextends child stored hget, hsame⟩
    · rw [bindSpawnedAgentThreads, hfailed] at hbound
      cases hbound
  have hnonempty : again.children ≠ [] := announcement_children hagain
  obtain ⟨child, hmem⟩ := exists_mem_of_ne_nil _ hnonempty
  rw [bindSpawnedAgentThreads]
  rcases announcedChildren_cases second plane' hagain with
    ⟨bound, hrequire, hadmits, htaken⟩ | ⟨error, hfailed, hrefused⟩
  · rw [hsecond] at hrequire
    cases hrequire
    rw [htaken]
    dsimp only
    have hstate : ∀ result : ThreadRuntimeBindingStore × Except BridgeError Unit,
        (({ second with store := result.1 } : BridgeState), result.2) =
          (second, .ok ()) ↔ result = (second.store, .ok ()) := by
      rintro ⟨store, result⟩
      constructor
      · intro heq
        obtain ⟨hstate, hresult⟩ := Prod.mk.inj heq
        exact Prod.ext (congrArg BridgeState.store hstate) hresult
      · intro heq
        cases heq
        rfl
    rw [hstate, inheritChildBindings_eq_self_iff fun child hmem =>
      (hchild child (hchildren child hmem)).imp fun _ h => h.1]
    constructor
    · intro hsame
      obtain ⟨stored, hget, hfirst⟩ := hchild child (hchildren child hmem)
      exact ⟨hadmits, childBinding_effective_same_iff.mp
        (hfirst.symm.trans (hsame child hmem stored hget))⟩
    · rintro ⟨-, hserves⟩ other hother stored hget
      obtain ⟨found, hfound, hfirst⟩ := hchild other (hchildren other hother)
      rw [hfound] at hget
      cases hget
      exact hfirst.trans (childBinding_effective_same_iff.mpr hserves)
  · rw [hfailed]
    constructor
    · intro hok
      cases hok
    · rintro ⟨hadmits, -⟩
      exact absurd hadmits (hrefused _ hsecond)

namespace OfficialUpdate

def parentThread : ThreadRuntimeBinding :=
  .new "p" .officialCodex "official-1" "openai" "gpt" "p" 0

def providers : TrustedProviderSet := ⟨[], []⟩

/-- A launch without an Enhanced core, and one thread. -/
def firstLaunch : BridgeState :=
  .new (KeyedTable.put KeyedTable.empty parentThread) providers "official-1" ""
    HashMap.empty

def childStarted : Json :=
  .obj [("method", .str "thread/started"),
    ("params", .obj [("thread", .obj [("id", .str "c"),
      ("parentThreadId", .str "p"), ("modelProvider", .str "vellum-official")])])]

def childActive : Json :=
  .obj [("method", .str "item/started"),
    ("params", .obj [("threadId", .str "p"),
      ("item", .obj [("type", .str "subAgentActivity"),
        ("agentThreadId", .str "c")])])]

def now : String → Int := fun _ => 0

/-- After the child was bound. -/
def bound : BridgeState :=
  (firstLaunch.bindSpawnedAgentThreads now .officialCodex childStarted).1

/-- The next launch, with the Official core of the given digest. -/
def nextLaunch (officialDigest : String) : BridgeState :=
  .new bound.store providers officialDigest "" HashMap.empty

/-- In a launch with the same Official core, the child's item changes
nothing. -/
theorem same_core_accepts :
    (nextLaunch "official-1").bindSpawnedAgentThreads now .officialCodex
      childActive = (nextLaunch "official-1", .ok ()) := by
  have hlater : Later
      (firstLaunch.bindSpawnedAgentThreads now .officialCodex childStarted).1
      (nextLaunch "official-1") :=
    Later.launch Later.same providers "official-1" "" HashMap.empty
  have hstarted : announcement childStarted =
      some ⟨"p", ["c"], some "vellum-official", none⟩ := by decide
  have hactive : announcement childActive = some ⟨"p", ["c"], none, none⟩ := by
    decide
  have hstored : firstLaunch.store.get "p" = some parentThread := by decide
  apply (spawn_accepted_again_iff hstarted (by decide) hstored hlater hactive rfl
    (by decide)).mpr
  refine ⟨⟨rfl, ?_⟩, rfl, rfl⟩
  decide

/-- After an update of the Official core the same notification is refused. -/
theorem updated_core_refuses :
    (firstLaunch.bindSpawnedAgentThreads now .officialCodex childStarted).2 =
        .ok () ∧
      ((nextLaunch "official-2").bindSpawnedAgentThreads now .officialCodex
        childStarted).2 = .error (.binding (.immutable "c")) := by
  decide

end OfficialUpdate

end BridgeState

end Vellum.Enhanced

/-
The durable binding of a thread to the runtime that serves it
(`enhanced_runtime/binding_store.rs`, `router.rs`, `model_provider_map.rs`).
A binding is written once and compared field by field ever after.
-/
import Vellum.Library.HashMap
import Vellum.Library.Json
import Vellum.Library.Text

namespace Vellum.Enhanced

inductive ExecutionPlane where
  | officialCodex
  | enhancedCodex
deriving DecidableEq

def ExecutionPlane.asStr : ExecutionPlane → String
  | .officialCodex => "official-codex"
  | .enhancedCodex => "enhanced-codex"

def bindingVersion : Nat := 1

structure ThreadRuntimeBinding where
  bindingVersion : Nat
  threadId : String
  plane : ExecutionPlane
  runtimeDigest : String
  providerId : String
  modelId : String
  nativeThreadId : String
  createdAt : Int
deriving DecidableEq

/-- `ThreadRuntimeBinding::new`. -/
def ThreadRuntimeBinding.new (threadId : String) (plane : ExecutionPlane)
    (runtimeDigest providerId modelId nativeThreadId : String)
    (createdAt : Int) : ThreadRuntimeBinding :=
  ⟨Enhanced.bindingVersion, threadId, plane, runtimeDigest, providerId, modelId,
    nativeThreadId, createdAt⟩

/-- Everything but the time of creation. -/
def ThreadRuntimeBinding.Same (left right : ThreadRuntimeBinding) : Prop :=
  left.bindingVersion = right.bindingVersion ∧ left.plane = right.plane ∧
    left.runtimeDigest = right.runtimeDigest ∧
    left.providerId = right.providerId ∧ left.modelId = right.modelId ∧
    left.nativeThreadId = right.nativeThreadId

instance (left right : ThreadRuntimeBinding) : Decidable (left.Same right) := by
  unfold ThreadRuntimeBinding.Same
  infer_instance

inductive BindingStoreError where
  | unsupportedVersion (version : Nat)
  | immutable (threadId : String)
deriving DecidableEq

/-- The table of bindings under their thread ids. -/
abbrev ThreadRuntimeBindingStore :=
  KeyedTable ThreadRuntimeBinding.threadId

namespace ThreadRuntimeBindingStore

def get (store : ThreadRuntimeBindingStore) (threadId : String) :
    Option ThreadRuntimeBinding :=
  store.find? threadId

def insertImmutable (store : ThreadRuntimeBindingStore)
    (binding : ThreadRuntimeBinding) :
    Except BindingStoreError ThreadRuntimeBindingStore :=
  if binding.bindingVersion ≠ Enhanced.bindingVersion then
    .error (.unsupportedVersion binding.bindingVersion)
  else
    match store.get binding.threadId with
    | some existing =>
      if existing.Same binding then .ok store
      else .error (.immutable binding.threadId)
    | none => .ok (KeyedTable.put store binding)

/-- Every binding is still there. -/
def Extends (later earlier : ThreadRuntimeBindingStore) : Prop :=
  ∀ threadId binding, earlier.get threadId = some binding →
    later.get threadId = some binding

theorem Extends.refl (store : ThreadRuntimeBindingStore) :
    store.Extends store :=
  fun _ _ hget => hget

theorem Extends.trans {first second third : ThreadRuntimeBindingStore}
    (hlater : third.Extends second) (hearlier : second.Extends first) :
    third.Extends first :=
  fun threadId binding hget => hlater threadId binding
    (hearlier threadId binding hget)

/-- An insertion finds its binding, or puts it where there was none. -/
theorem insertImmutable_ok {store after : ThreadRuntimeBindingStore}
    {binding : ThreadRuntimeBinding}
    (hinsert : store.insertImmutable binding = .ok after) :
    (after = store ∧ ∃ existing, store.get binding.threadId = some existing ∧
      existing.Same binding) ∨
    (store.get binding.threadId = none ∧ after = KeyedTable.put store binding) := by
  rw [insertImmutable] at hinsert
  split at hinsert
  · cases hinsert
  · split at hinsert
    · rename_i existing hget
      split at hinsert
      · rename_i hsame
        exact Or.inl ⟨(Except.ok.inj hinsert).symm, existing, hget, hsame⟩
      · cases hinsert
    · rename_i hget
      exact Or.inr ⟨hget, (Except.ok.inj hinsert).symm⟩

theorem insertImmutable_extends {store after : ThreadRuntimeBindingStore}
    {binding : ThreadRuntimeBinding}
    (hinsert : store.insertImmutable binding = .ok after) :
    after.Extends store := by
  rcases insertImmutable_ok hinsert with ⟨rfl, -⟩ | ⟨hnone, rfl⟩
  · exact Extends.refl _
  · intro threadId existing hget
    have hne : threadId ≠ binding.threadId := by
      rintro rfl
      rw [hnone] at hget
      cases hget
    exact (KeyedTable.find?_put_of_ne store binding hne).trans hget

/-- Where a binding is stored, only the same one is accepted. -/
theorem insertImmutable_of_get {store : ThreadRuntimeBindingStore}
    {binding existing : ThreadRuntimeBinding}
    (hversion : binding.bindingVersion = Enhanced.bindingVersion)
    (hget : store.get binding.threadId = some existing) :
    store.insertImmutable binding =
      if existing.Same binding then .ok store
      else .error (.immutable binding.threadId) := by
  rw [insertImmutable, if_neg (not_not_intro hversion)]
  simp only [hget]

end ThreadRuntimeBindingStore

inductive ProviderClass where
  | official
  | trustedThirdParty

structure TrustedProviderSet where
  official : List String
  thirdParty : List String

/-- `str::trim().is_empty()`. -/
def isBlank (text : String) : Bool := Text.isBlank text.toList

/-- `TrustedProviderSet::classify`; `none` for an untrusted provider. -/
def TrustedProviderSet.classify (providers : TrustedProviderSet)
    (providerId : String) : Option ProviderClass :=
  if isBlank providerId then none
  else if providerId = "openai" ∨ providerId = "openai-official" ∨
      providerId ∈ providers.official then some .official
  else if providerId ∈ providers.thirdParty then some .trustedThirdParty
  else none

structure ModelProviderRoute where
  providerId : String
  childProviderId : String

abbrev TrustedModelProviderMap := HashMap String ModelProviderRoute

def TrustedModelProviderMap.resolve (models : TrustedModelProviderMap)
    (catalogId : String) : Option ModelProviderRoute :=
  HashMap.get models catalogId

def vellumProviderName : String := "vellum"

def vellumOfficialProviderName : String := "vellum-official"

/-- Both names of the Official provider. -/
def isOfficialName (providerId : String) : Bool :=
  providerId = "openai" || providerId = "openai-official"

/-- A request may name the provider a thread is bound to, or the other name of
Official. -/
def staysWithProvider (requested bound : String) : Bool :=
  requested = bound || isOfficialName requested && isOfficialName bound

end Vellum.Enhanced

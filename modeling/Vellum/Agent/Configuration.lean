/-
What a remote host says about its persisted proxy configuration
(`vellum-remote-agent/src/configuration.rs`).  The file is looked at twice: as
any TOML, for the version of its schema, and then strictly, as this build's own
configuration.  The parser and the strict reader are parameters.
-/
import Vellum.Library.Text
import Vellum.Library.Toml

namespace Vellum.Agent

structure ProxyRuntimeIdentity where
  installId : String
  hostId : String
  configHash : String

structure RuntimeRouteConfig where
  credentialId : Option String

structure InboundAccessConfig where
  credentialId : String

structure ProxyRuntimeConfig where
  schemaVersion : UInt32
  identity : ProxyRuntimeIdentity
  models : List RuntimeRouteConfig
  inboundAccess : InboundAccessConfig

def defaultSchemaVersion : UInt32 := 2

def blank (value : String) : Bool := (Text.trim value.toList).isEmpty

def ProxyRuntimeConfig.validate (config : ProxyRuntimeConfig) :
    Except String Unit :=
  if config.schemaVersion ≠ defaultSchemaVersion then
    .error ("unsupported proxy config schema_version " ++
      toString config.schemaVersion ++ "; expected " ++
      toString defaultSchemaVersion)
  else if blank config.identity.installId then
    .error "identity.install_id must not be empty"
  else if blank config.identity.hostId then
    .error "identity.host_id must not be empty"
  else if blank config.inboundAccess.credentialId then
    .error "inbound_access.credential_id must not be empty"
  else .ok ()

/-- The TOML parser, once for any document and once for a configuration. -/
structure TomlCrates where
  parse : String → Except String Toml
  fromTomlStr : String → Except String ProxyRuntimeConfig

def currentSchemaVersion : UInt32 := 2

inductive ConfigurationState where
  | missing
  | current
  | upgradeRequired
  | repairRequired
  | incompatible
  | unreadable
deriving DecidableEq

structure ConfigInspection where
  state : ConfigurationState
  schemaVersion : Option UInt32
  issue : Option String
  detail : Option String
  validConfig : Option ProxyRuntimeConfig := none

/-- `version as u32`: the low bits of the integer. -/
def narrow (version : Int) : UInt32 := UInt32.ofNat version.toNat

def readSchemaVersion (generic : Toml) : Except Unit (Option UInt32) :=
  match generic.get "schema_version" with
  | none => .ok none
  | some value =>
    match value.asInteger with
    | some version =>
      if 0 ≤ version then .ok (some (narrow version)) else .error ()
    | none => .error ()

def inspectCurrent (crates : TomlCrates) (raw : String) (version : UInt32) :
    ConfigInspection :=
  match crates.fromTomlStr raw with
  | .ok config =>
      match config.validate with
      | .ok () => ⟨.current, some version, none, none, some config⟩
      | .error error =>
          ⟨.repairRequired, some version, some "validationFailed",
            some ("invalid persisted proxy config: " ++ error), none⟩
  | .error error =>
      ⟨.repairRequired, some version, some "missingRequiredField",
        some ("invalid persisted proxy config: " ++ error), none⟩

def inspectPersistedConfig (crates : TomlCrates) (raw : String) :
    ConfigInspection :=
  match crates.parse raw with
  | .error error =>
      ⟨.repairRequired, none, some "malformedToml",
        some ("invalid persisted proxy config: " ++ error), none⟩
  | .ok generic =>
      match readSchemaVersion generic with
      | .error () =>
          ⟨.repairRequired, none, some "malformedToml",
            some "schema_version is not a non-negative integer", none⟩
      | .ok schemaVersion =>
          let effective := schemaVersion.getD 1
          let told := "persisted proxy config is schema_version " ++
            toString effective
          if effective < currentSchemaVersion then
            ⟨.upgradeRequired, schemaVersion, none,
              some (told ++ "; this build requires " ++
                toString currentSchemaVersion), none⟩
          else if currentSchemaVersion < effective then
            ⟨.incompatible, schemaVersion, some "futureSchemaVersion",
              some (told ++ "; this build supports " ++
                toString currentSchemaVersion), none⟩
          else inspectCurrent crates raw effective

def maxConfigLoadErrorBytes : Nat := 1024

/-- The longest leading part within a number of bytes. -/
def takeBytes : Nat → List Char → List Char
  | _, [] => []
  | limit, c :: rest =>
      if c.utf8Size ≤ limit then c :: takeBytes (limit - c.utf8Size) rest
      else []

def boundedConfigLoadError (message : String) : String :=
  if message.utf8ByteSize ≤ maxConfigLoadErrorBytes then message
  else
    String.ofList (takeBytes (maxConfigLoadErrorBytes - '…'.utf8Size)
      message.toList) ++ "…"

structure PublicConfigurationStatus where
  present : Bool
  state : ConfigurationState
  schemaVersion : Option UInt32 := none
  requiresReconfigure : Bool := true
  issue : Option String := none
  configHash : Option String := none
  credentialRefs : List String := []
  credentialsReady : Bool := false
  loadError : Option String := none

/-- The secrets of a host that are files, and whether the selected official
account is ready. -/
structure ConfiguredHost where
  secretIsFile : String → Bool
  selectedCredentialReady : Bool

def selectedOfficialCredentialId : String := "official-selected"

def credentialRefs (config : ProxyRuntimeConfig) : List String :=
  ((config.models.filterMap RuntimeRouteConfig.credentialId).insertionSort
    (· ≤ ·)).destutter (· ≠ ·)

def credentialsReady (host : ConfiguredHost) (config : ProxyRuntimeConfig) :
    Bool :=
  ((credentialRefs config).all fun credentialId =>
    if credentialId = selectedOfficialCredentialId then
      host.selectedCredentialReady
    else host.secretIsFile credentialId) &&
  host.secretIsFile config.inboundAccess.credentialId

/-- `proxy.toml` is absent, cannot be read, or holds a text. -/
def publicStatus (crates : TomlCrates) (host : ConfiguredHost)
    (proxyToml : Option (Except String String)) : PublicConfigurationStatus :=
  match proxyToml with
  | none => { present := false, state := .missing }
  | some (.error error) =>
      { present := true
        state := .unreadable
        issue := some "ioError"
        loadError := some (boundedConfigLoadError
          ("cannot read persisted proxy config: " ++ error)) }
  | some (.ok raw) =>
      let inspection := inspectPersistedConfig crates raw
      { present := true
        state := inspection.state
        schemaVersion := inspection.schemaVersion
        requiresReconfigure := inspection.state ≠ .current
        issue := inspection.issue
        configHash := inspection.validConfig.map fun config =>
          config.identity.configHash
        credentialRefs :=
          (inspection.validConfig.map credentialRefs).getD []
        credentialsReady :=
          (inspection.validConfig.map (credentialsReady host)).getD false
        loadError := inspection.detail.map boundedConfigLoadError }

/-- A file of a newer schema is said to be incompatible, whatever else it
holds, and only a file that this build loads is said to be current. -/
structure NeverOffered (crates : TomlCrates) (raw : String)
    (status : PublicConfigurationStatus) : Prop where
  newer : ∀ generic version, crates.parse raw = .ok generic →
    generic.get "schema_version" = some (.integer version) →
    currentSchemaVersion.toNat < version → status.state = .incompatible
  loadable : status.state = .current → ∃ config,
    crates.fromTomlStr raw = .ok config ∧ config.validate = .ok ()

section

variable {crates : TomlCrates} {raw : String}

theorem inspectCurrent_state (version : UInt32) :
    (inspectCurrent crates raw version).state ≠ .incompatible ∧
      ((inspectCurrent crates raw version).state = .current → ∃ config,
        crates.fromTomlStr raw = .ok config ∧ config.validate = .ok ()) := by
  rw [inspectCurrent]
  split
  · rename_i config hconfig
    split
    · rename_i hvalid
      exact ⟨by simp, fun _ => ⟨config, hconfig, hvalid⟩⟩
    · simp
  · simp

/-- What a readable version comes to. -/
theorem incompatible_iff_narrow {generic : Toml} {version : Int}
    (hparse : crates.parse raw = .ok generic)
    (hget : generic.get "schema_version" = some (.integer version))
    (hpos : 0 ≤ version) :
    (inspectPersistedConfig crates raw).state = .incompatible ↔
      currentSchemaVersion < narrow version := by
  have hread : readSchemaVersion generic = .ok (some (narrow version)) := by
    simp [readSchemaVersion, hget, Toml.asInteger, hpos]
  simp only [inspectPersistedConfig, hparse, hread, Option.getD_some]
  split
  · rename_i hbelow
    simp only [reduceCtorEq, false_iff]
    exact UInt32.not_lt.mpr (UInt32.le_of_lt hbelow)
  · split
    · rename_i habove
      simp [habove]
    · rename_i habove
      simp only [habove, iff_false]
      exact (inspectCurrent_state _).1

theorem loadable_of_current
    (hcurrent : (inspectPersistedConfig crates raw).state = .current) :
    ∃ config, crates.fromTomlStr raw = .ok config ∧
      config.validate = .ok () := by
  rw [inspectPersistedConfig] at hcurrent
  split at hcurrent
  · cases hcurrent
  · split at hcurrent
    · cases hcurrent
    · dsimp only at hcurrent
      split at hcurrent
      · cases hcurrent
      · split at hcurrent
        · cases hcurrent
        · exact (inspectCurrent_state _).2 hcurrent

theorem current_lt_narrow_iff (version : Int) :
    currentSchemaVersion < narrow version ↔ 2 < version.toNat % 2 ^ 32 := by
  rw [UInt32.lt_iff_toNat_lt, narrow, UInt32.toNat_ofNat']
  rfl

end

/-- A newer file is never offered for replacement exactly when its version is
newer in its low 32 bits as well. -/
theorem never_offered_iff (crates : TomlCrates) (host : ConfiguredHost)
    (raw : String) :
    NeverOffered crates raw (publicStatus crates host (some (.ok raw))) ↔
      ∀ generic version, crates.parse raw = .ok generic →
        generic.get "schema_version" = some (.integer version) →
        2 < version → 2 < version.toNat % 2 ^ 32 := by
  have hcases {generic : Toml} {version : Int}
      (hparse : crates.parse raw = .ok generic)
      (hget : generic.get "schema_version" = some (.integer version))
      (hnewer : 2 < version) :
      (inspectPersistedConfig crates raw).state = .incompatible ↔
        2 < version.toNat % 2 ^ 32 := by
    rw [incompatible_iff_narrow hparse hget (by omega), current_lt_narrow_iff]
  constructor
  · intro hnever generic version hparse hget hnewer
    exact (hcases hparse hget hnewer).mp
      (hnever.newer generic version hparse hget hnewer)
  · intro hall
    refine ⟨?_, loadable_of_current⟩
    intro generic version hparse hget hnewer
    exact (hcases hparse hget hnewer).mpr
      (hall generic version hparse hget hnewer)

namespace FarFuture

def farText : String := "schema_version = 4294967297\n"

def farCrates : TomlCrates where
  parse text :=
    if text = farText then
      .ok (.table [("schema_version", .integer 4294967297)])
    else .error "not a configuration"
  fromTomlStr _ := .error "missing field listen"

def host : ConfiguredHost where
  secretIsFile _ := false
  selectedCredentialReady := true

def status : PublicConfigurationStatus :=
  publicStatus farCrates host (some (.ok farText))

/-- A version behind 2^32 is taken for an old one and offered for an
upgrade. -/
theorem far_future_is_offered :
    status.state = .upgradeRequired ∧
      ¬ NeverOffered farCrates farText status := by
  have hstate : status.state = .upgradeRequired := rfl
  refine ⟨hstate, ?_⟩
  intro hnever
  have hincompatible := hnever.newer _ 4294967297 rfl rfl (by decide)
  rw [hstate] at hincompatible
  cases hincompatible

end FarFuture

end Vellum.Agent

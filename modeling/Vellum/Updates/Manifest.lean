/-
The part of a release manifest (`updates/manifest.rs`) that selection reads:
version strings and ranges as they are parsed, digests as they are compared,
and which asset of a release a component installs.  The semver crate and the
hash are parameters.
-/
import Vellum.Library.Text

namespace Vellum.Updates

inductive UpdateComponent where
  | desktop
  | remote
  | core
deriving DecidableEq

structure DataFormat where
  irreversibleMigration : Bool

structure AssetRef where
  platform : String
  arch : String
  name : String

structure CoreTarget where
  platform : String
  arch : String
  asset : String

structure CoreManifest where
  targets : List CoreTarget

structure UpdateManifest where
  component : UpdateComponent
  version : String
  releaseTag : String
  sequence : UInt64
  prerelease : Bool
  minDesktopVersion : String
  bridgeApiCompat : String
  remoteProtocolCompat : String
  dataFormat : DataFormat
  assets : List AssetRef
  core : Option CoreManifest

def CoreManifest.target (core : CoreManifest) (platform arch : String) :
    Option CoreTarget :=
  core.targets.find? fun target =>
    target.platform = platform ∧ target.arch = arch

/-- A digest without its scheme, its letters in lower case. -/
def digestDigits (digest : String) : List Char :=
  ((Text.stripPrefix "sha256:".toList digest.toList).getD digest.toList).map
    Char.toLower

/-- `verify_asset_sha256`, over a hash that answers in hexadecimal digits. -/
def verifyAssetSha256 (sha256 : List UInt8 → List Char) (bytes : List UInt8)
    (expected : String) : Bool :=
  sha256 bytes = digestDigits expected

/-- A name with its ASCII letters in lower case. -/
private def lowerName (name : String) : List Char :=
  name.toList.map Char.toLower

private def endsWith (ending : String) (name : List Char) : Bool :=
  ending.toList.isSuffixOf name

def isDesktopInstaller (name platform : String) : Bool :=
  let name := lowerName name
  match platform with
  | "windows" => endsWith "-setup.exe" name
  | "macos" => endsWith ".app.tar.gz" name
  | _ => false

def isRemotePackage (name : String) : Bool :=
  let name := lowerName name
  "vellum-remote-".toList.isPrefixOf name && endsWith ".tar.gz" name

def isCoreArchive (name : String) : Bool :=
  let name := lowerName name
  endsWith ".zip" name || endsWith ".tar.gz" name || endsWith ".tgz" name

/-- The machine an asset will run on. -/
structure AssetTarget where
  platform : String
  arch : String

def selectAsset (manifest : UpdateManifest) (component : UpdateComponent)
    (target : AssetTarget) : Option AssetRef :=
  let coreAsset : Option String :=
    (manifest.core.filter fun _ => component = .core).bind fun core =>
      (core.target target.platform target.arch).map CoreTarget.asset
  manifest.assets.find? fun asset =>
    asset.platform = target.platform && asset.arch = target.arch &&
      match component with
      | .desktop => isDesktopInstaller asset.name asset.platform
      | .remote => isRemotePackage asset.name
      | .core =>
        match coreAsset with
        | some name => asset.name = name
        | none => isCoreArchive asset.name

def hasRemotePackage (manifest : UpdateManifest) : Bool :=
  manifest.assets.any fun asset => isRemotePackage asset.name

/-- A version string with the numbers it leaves out. -/
def normalizeSemver (value : String) : String :=
  let value := (Text.trim value.toList).dropWhile (· = 'v')
  match value.splitOnP (· = '.') with
  | [major] => String.ofList (major ++ ".0.0".toList)
  | [major, minor] => String.ofList (major ++ '.' :: minor ++ ".0".toList)
  | _ => String.ofList value

section Semver

variable {V : Type} [LinearOrder V] (parseSemver : String → Option V)

def parseVersion (value : String) : Option V :=
  parseSemver (normalizeSemver value)

/-- A version meets one comparator of a range. -/
def meetsComparator (version : V) (part : List Char) : Bool :=
  let bounded (rest : List Char) (holds : V → Bool) : Bool :=
    ((parseVersion parseSemver (String.ofList rest)).map holds).getD false
  match Text.stripPrefix ">=".toList part with
  | some rest => bounded rest fun bound => version ≥ bound
  | none =>
  match Text.stripPrefix "<=".toList part with
  | some rest => bounded rest fun bound => version ≤ bound
  | none =>
  match Text.stripPrefix ['<'] part with
  | some rest => bounded rest fun bound => version < bound
  | none =>
  match Text.stripPrefix ['>'] part with
  | some rest => bounded rest fun bound => version > bound
  | none =>
  match Text.stripPrefix ['='] part with
  | some rest => bounded rest fun bound => version = bound
  | none => bounded part fun bound => version = bound

def rangeMatches (spec version : String) : Bool :=
  match parseVersion parseSemver version with
  | none => false
  | some version =>
    let spec := Text.trim spec.toList
    spec = ['*'] || spec.isEmpty ||
      ((spec.splitOnP fun c => c = ',' || Text.isWhitespace c).filter
        fun part => !part.isEmpty).all fun part =>
          meetsComparator parseSemver version (Text.trim part)

end Semver

end Vellum.Updates

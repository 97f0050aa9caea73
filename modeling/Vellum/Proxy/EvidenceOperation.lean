/-
Evidence operations: what a completed tool exchange is read as.  An operation
has a kind, the channel it looked at, the subjects it is about and the evidence
it brought; the predicate of the question it asks is read from its command.
-/
import Vellum.Library.Json
import Vellum.Library.Text

namespace Vellum.Proxy

inductive EvidenceOperationKind where
  | query
  | inspect
  | verify
  | mutate
  | execute
deriving DecidableEq

inductive EvidenceChannel where
  | workspace
  | session
  | vcs
  | database
  | process
  | external
  | unknown
deriving DecidableEq

inductive CanonicalSubjectKind where
  | file
  | symbol
  | taskLiteral
  | errorFamily
  | test
  | sessionState
  | repositoryState
  | other
deriving DecidableEq

inductive FactProvenance where
  | independent
  | selfGeneratedConversation
deriving DecidableEq

inductive ErrorFamily where
  | permissionDenied
  | notFound
  | locked
  | invalidObject
  | parseFailed
  | timeout
  | other
deriving DecidableEq

inductive EvidenceResult where
  | found
  | noResult
  | error (family : ErrorFamily)
  | completed
  | unknown
deriving DecidableEq

inductive EvidenceSignatureLevel where
  | structuredFact
  | normalizedDigest
deriving DecidableEq

inductive InvestigationPredicate where
  | locate
  | exists
  | inspect
  | verify
  | diagnose
  | resolve
  | unknown
deriving DecidableEq

/-! The names the source's debug output has for these. -/

def EvidenceChannel.debug : EvidenceChannel → String
  | .workspace => "Workspace"
  | .session => "Session"
  | .vcs => "Vcs"
  | .database => "Database"
  | .process => "Process"
  | .external => "External"
  | .unknown => "Unknown"

def CanonicalSubjectKind.debug : CanonicalSubjectKind → String
  | .file => "File"
  | .symbol => "Symbol"
  | .taskLiteral => "TaskLiteral"
  | .errorFamily => "ErrorFamily"
  | .test => "Test"
  | .sessionState => "SessionState"
  | .repositoryState => "RepositoryState"
  | .other => "Other"

def ErrorFamily.debug : ErrorFamily → String
  | .permissionDenied => "PermissionDenied"
  | .notFound => "NotFound"
  | .locked => "Locked"
  | .invalidObject => "InvalidObject"
  | .parseFailed => "ParseFailed"
  | .timeout => "Timeout"
  | .other => "Other"

def EvidenceResult.debug : EvidenceResult → String
  | .found => "Found"
  | .noResult => "NoResult"
  | .error family => "Error \x7b family: " ++ family.debug ++ " \x7d"
  | .completed => "Completed"
  | .unknown => "Unknown"

def InvestigationPredicate.debug : InvestigationPredicate → String
  | .locate => "Locate"
  | .exists => "Exists"
  | .inspect => "Inspect"
  | .verify => "Verify"
  | .diagnose => "Diagnose"
  | .resolve => "Resolve"
  | .unknown => "Unknown"

structure CanonicalSubject where
  kind : CanonicalSubjectKind
  key : String
deriving DecidableEq

structure EvidenceSignature where
  level : EvidenceSignatureLevel
  digest : String
  provenance : FactProvenance
  fact : Option String := none
deriving DecidableEq

structure EvidenceOperation where
  sourceIndex : Nat
  operation : EvidenceOperationKind
  channel : EvidenceChannel
  subjects : List CanonicalSubject := []
  result : EvidenceResult := .completed
  stableEvidence : List EvidenceSignature := []
  descriptor : String := ""
  completed : Bool := true

/-! Reading a command. -/

/-- The command behind the bracketed subjects of a descriptor. -/
def commandIdentity (descriptor : String) : String :=
  match (descriptor.toList.splitOnP (· = ']'))[1]? with
  | some part => String.ofList (Text.trim part)
  | none => descriptor

/-- The command with its letters in lower case. -/
def asciiLower (text : String) : List Char := text.toList.map Char.toLower

def mentions (text : List Char) (needle : String) : Bool :=
  containsBlock needle.toList text

def splitWhitespace (text : List Char) : List String :=
  ((text.splitOnP Text.isWhitespace).filter fun part => !part.isEmpty).map
    String.ofList

inductive CommandKind where
  | test
  | build
  | format
  | lint
  | git
  | search
  | read
  | write
  | process
  | other
deriving DecidableEq

/-- The kinds of the shell's own commands, which are matched without regard
to case. -/
def classifyCmdlet (lower : List Char) : String → Option CommandKind
  | "get-childitem" | "gci" | "dir" =>
    if mentions lower "-filter" || mentions lower "-include" ||
        mentions lower "-recurse" then some .search
    else some .read
  | "select-string" | "sls" => some .search
  | "get-content" | "gc" | "type" => some .read
  | "test-path" | "resolve-path" => some .read
  | "set-content" | "add-content" | "new-item" | "remove-item" => some .write
  | _ => none

def classifyScript (sub : String) : CommandKind :=
  match sub with
  | "test" | "t" => .test
  | "build" | "compile" => .build
  | "fmt" | "format" => .format
  | "lint" => .lint
  | _ => .other

def classifyProgram (first second third : String) : CommandKind :=
  match first with
  | "cargo" =>
    match second with
    | "test" | "t" | "nextest" => .test
    | "build" | "b" | "check" | "c" => .build
    | "fmt" => .format
    | "clippy" => .lint
    | _ => .other
  | "pytest" | "ctest" | "jest" | "vitest" | "mocha" => .test
  | "python" | "python3" =>
    if second = "-m" ∧ third = "pytest" then .test else .other
  | "pnpm" | "npm" | "yarn" | "bun" =>
    classifyScript (if second = "run" then third else second)
  | "go" =>
    match second with
    | "test" => .test
    | "build" => .build
    | "fmt" => .format
    | "vet" => .lint
    | _ => .other
  | "dotnet" =>
    match second with
    | "test" => .test
    | "build" => .build
    | "format" => .format
    | _ => .other
  | "rustfmt" | "prettier" | "black" | "gofmt" | "goimports"
  | "clang-format" => .format
  | "ruff" =>
    match second with
    | "format" => .format
    | "check" => .lint
    | _ => .other
  | "eslint" | "flake8" | "pylint" | "golangci-lint" => .lint
  | "git" => .git
  | "rg" | "grep" | "ripgrep" | "find" | "fd" | "ag" | "ack" => .search
  | "cat" | "head" | "tail" | "sed" | "awk" | "less" | "more" | "bat" => .read
  | "cp" | "mv" | "rm" | "mkdir" | "touch" => .write
  | "ps" | "kill" | "pkill" | "top" | "htop" => .process
  | "make" | "ninja" | "cmake" => .build
  | _ => .other

/-- A leading `NAME=value` of a command line. -/
def isEnvironmentToken (token : String) : Bool :=
  token.toList.contains '=' && !token.toList.head? == some '-'

def classifyCommand (command : String) : CommandKind :=
  let trimmed := Text.trim command.toList
  if trimmed.isEmpty then .other
  else
    let tokens := (splitWhitespace trimmed).dropWhile isEnvironmentToken
    let lowerTrimmed := trimmed.map Char.toLower
    if mentions lowerTrimmed "| select-string" ||
        mentions lowerTrimmed "| sls" then .search
    else
      let first := tokens[0]?.getD ""
      match classifyCmdlet lowerTrimmed
          (String.ofList (asciiLower first)) with
      | some kind => kind
      | none => classifyProgram first (tokens[1]?.getD "") (tokens[2]?.getD "")

def isQuote (c : Char) : Bool := c = '"' || c = '\''

def firstToken (lower : List Char) : String :=
  let first := ((splitWhitespace lower)[0]?.getD "").toList
  String.ofList ((first.dropWhile isQuote).reverse.dropWhile isQuote).reverse

def isPython (lower : List Char) : Bool :=
  let first := firstToken lower
  first = "python" || first = "python3" || first = "py"

def isHighConfidenceSessionPath (normalized : List Char) : Bool :=
  mentions normalized "sessions/" || mentions normalized "/.codex" ||
    mentions normalized "codex-home" || mentions normalized "codex_home" ||
    (mentions normalized "rollout-" && mentions normalized ".jsonl")

def isHeuristicSessionProbe (lower : List Char) : Bool :=
  if !isPython lower then false
  else
    let inspectOrParse :=
      mentions lower "inspect_" || mentions lower "inspect-" ||
        mentions lower "parse_" || mentions lower "parse-"
    let sessionStore :=
      mentions lower "session" || mentions lower "rollout" ||
        mentions lower "transcript"
    inspectOrParse && sessionStore

def forwardSlashes (text : List Char) : List Char :=
  text.map fun c => if c = '\\' then '/' else c

def isSessionCommand (lower : List Char) : Bool :=
  let normalized := forwardSlashes lower
  isHighConfidenceSessionPath normalized || isHeuristicSessionProbe normalized

def looksLikeDatabase (lower : List Char) : Bool :=
  mentions lower ".sqlite" || mentions lower ".db" ||
    mentions lower "sqlite3" ||
    (mentions lower "select " && mentions lower " from ")

def classifyChannel (command : String) (kind : CommandKind) :
    EvidenceChannel :=
  let lower := forwardSlashes (asciiLower command)
  if isSessionCommand lower then .session
  else if looksLikeDatabase lower then .database
  else if kind = .git || firstToken lower = "git" then .vcs
  else if kind = .process then .process
  else if mentions lower "curl " || mentions lower "wget " ||
      mentions lower "invoke-webrequest" then .external
  else
    match kind with
    | .search | .read | .write | .test => .workspace
    | _ => if isPython lower then .workspace else .unknown

def predicateForOperation (operation : EvidenceOperationKind)
    (command : String) : InvestigationPredicate :=
  if mentions (asciiLower command) "test-path" then .exists
  else
    let channel := classifyChannel command (classifyCommand command)
    if (channel = .session || channel = .vcs || channel = .database) &&
        (operation = .query || operation = .inspect) then .locate
    else
      match operation with
      | .query => .locate
      | .inspect => .inspect
      | .verify => .verify
      | .mutate => .resolve
      | .execute => .diagnose

end Vellum.Proxy

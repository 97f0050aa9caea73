/-
The harness contract of a route (`vellum-proxy-runtime/src/harness/`): what a
profile lets the adapter do, what a catalog entry may advertise, and the
instructions that are generated from the profile, the shell of the executor and
the tools of a request.
-/
import Vellum.Proxy.ChatResponse

namespace Vellum.Proxy

/-- `a.eq_ignore_ascii_case(b)` compares these. -/
def lowerAscii (text : String) : List Char := text.toList.map Char.toLower

inductive RuntimeWireFormat where
  | responses
  | chat
deriving DecidableEq

inductive RuntimeProviderKind where
  | official
  | openAiCompatible
  | grokCli
deriving DecidableEq

inductive HarnessProfileKind where
  | codexOfficialNative
  | grokSolTranslatedDirect
  | genericResponses
  | genericChat
deriving DecidableEq

inductive PromptFamily where
  | codexOfficialNative
  | solCompatibleGrok
  | genericTranslated
deriving DecidableEq

inductive PatchContract where
  | nativeFreeform
  | translatedExactFunction
  | unsupported
deriving DecidableEq

inductive ShellContract where
  | codexNativeShellCommand
  | translatedExecAndShell
  | translatedShellOnly
deriving DecidableEq

inductive ParallelPolicy where
  | providerNative
  | promptAdvisoryReadOnly
  | serialized
deriving DecidableEq

inductive ToolHistoryContract where
  | native
  | losslessTranslated

inductive MultiAgentPolicy where
  | providerNative
  | nativeV2
  | nativeV1
  | vellumDelegated
  | singleAgent
deriving DecidableEq

structure HarnessProfile where
  kind : HarnessProfileKind
  promptFamily : PromptFamily
  patchContract : PatchContract
  shellContract : ShellContract
  parallelPolicy : ParallelPolicy
  historyContract : ToolHistoryContract
  multiAgentPolicy : MultiAgentPolicy

namespace HarnessProfileKind

def asStr : HarnessProfileKind → String
  | .codexOfficialNative => "codexOfficialNative"
  | .grokSolTranslatedDirect => "grokSolTranslatedDirect"
  | .genericResponses => "genericResponses"
  | .genericChat => "genericChat"

def isTranslated (kind : HarnessProfileKind) : Bool :=
  kind ≠ .codexOfficialNative

end HarnessProfileKind

namespace HarnessProfile

def generic (wire : RuntimeWireFormat) : HarnessProfile where
  kind := match wire with
    | .responses => .genericResponses
    | .chat => .genericChat
  promptFamily := .genericTranslated
  patchContract := .translatedExactFunction
  shellContract := .translatedShellOnly
  parallelPolicy := .serialized
  historyContract := .losslessTranslated
  multiAgentPolicy := .singleAgent

def advertisesResponsesLite (profile : HarnessProfile) : Bool :=
  profile.kind = .codexOfficialNative

def advertisesParallelToolCalls (profile : HarnessProfile) : Bool :=
  profile.parallelPolicy = .providerNative

def mismatch (crates : Crates) (profile : HarnessProfile) (field : String)
    (advertised : Json) (allowed : Bool) : String :=
  "harness profile mismatch: catalog entry advertises " ++ field ++ "=" ++
    crates.toStr advertised ++ " but profile " ++ profile.kind.asStr ++
    " permits " ++ toString allowed ++ "; refusing to expose a " ++
    "model-visible surface the runtime cannot execute"

/-- A catalog entry must not advertise what the profile does not allow. -/
def verifyCatalogEntry (crates : Crates) (profile : HarnessProfile)
    (entry : Json) : Except String Unit := do
  for (field, allowed) in
      [("use_responses_lite", profile.advertisesResponsesLite),
        ("supports_parallel_tool_calls",
          profile.advertisesParallelToolCalls)] do
    if let some advertised := entry.get field then
      if advertised.asBool = some true && !allowed then
        throw (profile.mismatch crates field advertised allowed)
  if profile.kind.isTranslated then
    if let some advertised := (entry.get "tool_mode").filter (!·.isNull) then
      throw (profile.mismatch crates "tool_mode" advertised false)
    if let some advertised :=
        (entry.get "multi_agent_version").filter (!·.isNull) then
      if advertised.asStr ≠ some "v2" then
        throw (profile.mismatch crates "multi_agent_version" advertised true)

end HarnessProfile

/-- `ultra` includes the delegation of tasks. -/
def isDelegatingEffort (effort : String) : Bool :=
  lowerAscii effort = "ultra".toList

/-- The tools of the delegation runtime. -/
def delegationNamespace : Json :=
  .obj [("type", .str "namespace"), ("name", .str "multi_agent"),
    ("description", .str
      "Delegate a scoped sub-task to a child agent and collect its result."),
    ("tools", .arr [.obj [("type", .str "function"), ("name", .str "spawn"),
      ("description", .str <|
        "Run a scoped sub-task on a child agent and return its result. " ++
        "The child has no tools: give it a question to answer or material " ++
        "to analyse, not work to perform. Name the model explicitly — it is " ++
        "never substituted, and only models on this route are available. " ++
        "This call completes the child before it returns."),
      ("parameters", .obj [("type", .str "object"),
        ("properties", .obj [("model", .obj [("type", .str "string")]),
          ("reasoning_effort", .obj [("type", .str "string")]),
          ("instructions", .obj [("type", .str "string")])]),
        ("required", .arr [.str "model", .str "instructions"]),
        ("additionalProperties", .bool false)])]])]

/-! The shell of the executor. -/

inductive RuntimePlatform where
  | windows
  | linux
  | macos

inductive RuntimeShellKind where
  | pwsh
  | powershell
  | gitBash
  | cmd
  | bash
  | zsh
deriving DecidableEq

inductive RuntimePathStyle where
  | windows
  | posix

inductive RuntimeAmpersandSemantics where
  | posixBackground
  | powershellCore
  | windowsPowershell
  | cmdSeparator

/-- The executor's contract; the shell record that the prompt reads has the
same fields. -/
structure ExecutionEnvironment where
  platform : RuntimePlatform
  shell : RuntimeShellKind
  shellVersion : Option String
  supportsAndAnd : Bool
  hasUnixUtilities : Bool
  pathStyle : RuntimePathStyle
  ampersandSemantics : RuntimeAmpersandSemantics

def RuntimeShellKind.asStr : RuntimeShellKind → String
  | .pwsh => "pwsh"
  | .powershell => "powershell"
  | .gitBash => "git-bash"
  | .cmd => "cmd"
  | .bash => "bash"
  | .zsh => "zsh"

def RuntimeShellKind.isPowershellFamily (shell : RuntimeShellKind) : Bool :=
  shell = .pwsh || shell = .powershell

namespace ExecutionEnvironment

def posixReference : ExecutionEnvironment where
  platform := .linux
  shell := .bash
  shellVersion := none
  supportsAndAnd := true
  hasUnixUtilities := true
  pathStyle := .posix
  ampersandSemantics := .posixBackground

def guidance (environment : ExecutionEnvironment) : String :=
  let shellLabel := match environment.shellVersion with
    | some version => environment.shell.asStr ++ " " ++ version
    | none => environment.shell.asStr
  let platform := match environment.platform with
    | .windows => "Windows"
    | .linux => "Linux"
    | .macos => "macOS"
  let style := match environment.pathStyle with
    | .windows => "Windows"
    | .posix => "POSIX"
  let ampersand := match environment.ampersandSemantics with
    | .posixBackground => "`&` backgrounds a job."
    | .powershellCore | .windowsPowershell =>
      "`&` is the call operator, not a separator: invoke quoted " ++
      "executables as `& \"C:\\Program Files\\app.exe\" arg`."
    | .cmdSeparator => "`&` separates commands unconditionally."
  " ".intercalate <|
    ["Shell: " ++ shellLabel ++ " on " ++ platform ++ ". Paths use " ++
      style ++ " style; all I/O is UTF-8."] ++
    (if environment.supportsAndAnd then [] else
      ["This shell has no `&&` / `||` chain operators. Run one statement " ++
        "per call, or separate statements with `;` and check `$?` " ++
        "explicitly."]) ++
    (if environment.hasUnixUtilities then [] else
      ["Unix utilities (grep, sed, awk, head, tail, wc, which) are not " ++
        "available. Use the dedicated search/read tools, or PowerShell " ++
        "cmdlets such as Select-String, Get-Content -TotalCount, and " ++
        "Select-Object."]) ++
    [ampersand] ++
    (if environment.shell.isPowershellFamily then
      ["Use single-quoted here-strings (@'...'@, closing delimiter at " ++
        "column 0) for multi-line literals; do not use backtick line " ++
        "continuations."] else []) ++
    (if environment.shell = .gitBash then
      ["MSYS rewrites arguments that look like POSIX paths. Set " ++
        "MSYS_NO_PATHCONV=1 (or MSYS2_ARG_CONV_EXCL=*) for commands " ++
        "passing switches such as /nologo or /t:Build."] else [])

end ExecutionEnvironment

/-! The generated instructions. -/

/-- A tool as the model sees it. -/
structure ToolSnapshot where
  name : String
  origin : String
  mutating : Bool
  description : String
  parameters : Json
deriving DecidableEq

def baseIdentity : String :=
  "You are Codex, a coding agent. You and the user share the same workspace " ++
  "and collaborate to achieve the user's goals."

def parallelInspectionGuidance : String :=
  "When several read-only inspections are already known to be necessary and " ++
  "independent, batch those tool calls in the same turn instead of issuing " ++
  "them sequentially. Do not batch speculative or high-volume searches."

variable (profile : HarnessProfile) (environment : ExecutionEnvironment)

/-- The tools a profile guarantees before a request declares any. -/
def baselineToolNames : List String :=
  (if profile.patchContract = .unsupported then [] else [applyPatchToolName]) ++
    (if profile.shellContract = .codexNativeShellCommand then []
      else ["shell"])

def toolNames (tools : List ToolSnapshot) : String :=
  ", ".intercalate (tools.map ToolSnapshot.name)

/-- What is on the table. -/
def toolSections (tools readOnly mutating : List ToolSnapshot) : List String :=
  if tools.isEmpty then
    let baseline := baselineToolNames profile
    if baseline.isEmpty then []
    else
      ["Tools available on this route: " ++ ", ".intercalate baseline ++
        ". Only call tools that appear in the current request."]
  else
    ["\n".intercalate <|
      ["Tools available in this request:"] ++
      (if readOnly.isEmpty then []
        else ["- read-only: " ++ toolNames readOnly]) ++
      (if mutating.isEmpty then []
        else ["- state-changing: " ++ toolNames mutating]) ++
      ["Every tool listed has an exact schema. Send exactly the declared " ++
        "fields — no extras, no renamed fields."]]

def editingSection (hasPatchTool : Bool) : String :=
  if hasPatchTool then
    "\n".intercalate
      ["Editing files:",
        "- Use `" ++ applyPatchToolName ++ "` for every local file change. " ++
          "It is the authoritative edit API on this route.",
        "- Do not write files through the shell: no output redirection, no " ++
          "`Set-Content`/`Out-File`, no `sed -i`, no here-doc writes.",
        "- Do not create a temporary Python or PowerShell script to perform " ++
          "a simple read or edit. A one-line change is one patch, not a " ++
          "script.",
        "- If a patch is rejected, read the parser error, fix that specific " ++
          "problem, and send a corrected patch. Do not switch to shell " ++
          "editing because a patch failed."]
  else
    "This route exposes no patch tool. Make file changes only through tools " ++
    "explicitly declared in the request."

def migrationSection : String :=
  "\n".intercalate
    ["Large or repetitive migrations:",
      "- Never apply an unanchored regex across many files. Use an " ++
        "AST/codemod, or exact anchored replacements, one file at a time.",
      "- Before a bulk change, state the intended file list and the exact " ++
        "replacement; after each batch, parse/typecheck the touched files.",
      "- If a batch breaks parsing or type checking, revert that batch " ++
        "immediately and fall back to per-file exact edits. Do not push " ++
        "forward through a broken tree."]

def readingSection (readOnly : List ToolSnapshot) : String :=
  let searchTools := readOnly.filter fun tool =>
    containsBlock "search".toList tool.name.toList ||
      containsBlock "grep".toList tool.name.toList
  "\n".intercalate <|
    ["Reading and searching:"] ++
    (if searchTools.isEmpty then [] else
      ["- Prefer the dedicated search tools (" ++ toolNames searchTools ++
        ") over shell text processing."]) ++
    (if environment.hasUnixUtilities then
      ["- When you do search from the shell, use `rg` rather than " ++
        "`grep`/`find`; it is faster and respects ignore files."]
    else
      ["- `rg` is preferred if it is installed; otherwise use " ++
        "`Select-String`. Do not assume `grep`, `sed`, `awk`, `head`, " ++
        "`tail`, or `wc` exist."]) ++
    ["- Read a file before editing it. Do not infer file contents from a " ++
      "filename or from an earlier summary."]

def shellSection : String :=
  "\n".intercalate
    ["Shell:",
      "- " ++ environment.guidance,
      "- Prefer the argv array form of `command`, one argument per element: " ++
        "it reaches the process without passing through a quoting layer, so " ++
        "spaces and non-ASCII paths survive. Use a single command string " ++
        "only for genuine shell work — pipelines, redirection, or shell " ++
        "builtins — and quote it yourself.",
      "- The shell is for running programs (git, package managers, build " ++
        "and test commands). It is not the default file editor."]

def parallelSections (parallelGuidance : Bool) :
    ParallelPolicy → List String
  | .promptAdvisoryReadOnly =>
    ["Parallelism: independent read-only calls (reads, searches, status " ++
      "queries) may be issued together in one turn." ++
      (if parallelGuidance then " " ++ parallelInspectionGuidance else "") ++
      " Anything that changes state — patches, writes, installs, commits " ++
      "— must be issued one at a time and its result read before the next " ++
      "one."]
  | .serialized =>
    ["Parallelism: issue one tool call at a time and read its result " ++
      "before the next."]
  | .providerNative => []

def failureSection : String :=
  "\n".intercalate
    ["When something fails:",
      "- Read the actual error text before retrying. Name what you are " ++
        "changing before you try again.",
      "- Never run the same failing command a third time with the same " ++
        "strategy. After two consecutive failures on one step, change " ++
        "approach: different tool, smaller scope, or verify an assumption " ++
        "first.",
      "- Do not re-run an unchanged verification that already passed. " ++
        "Re-run it only after the inputs changed."]

def executionSection : String :=
  "\n".intercalate
    ["Execution:",
      "- Do not keep gathering context after you have enough evidence for a " ++
        "small reversible change.",
      "- Prefer edit → verify → refine over exhaustive investigation.",
      "- Additional research is justified only when you can name the " ++
        "specific unknown that blocks the next change.",
      "- A plausible implementation should be tested by acting, not by " ++
        "searching indefinitely for certainty."]

def workspaceSection : String :=
  "\n".intercalate
    ["Workspace:",
      "- The user's working tree may already be dirty. Preserve unrelated " ++
        "uncommitted changes; never revert, stash, or clean them to make " ++
        "your own work easier.",
      "- Track any temporary file you create and remove it before you finish.",
      "- After a context compaction, continue the task already in progress. " ++
        "Do not restart from the beginning, re-derive settled decisions, or " ++
        "re-run completed work."]

def finishingSection : String :=
  "\n".intercalate
    ["Finishing:",
      "- Work through the requested scope in full. Do not stop early because " ++
        "context is filling up or the task is long — say what is left " ++
        "instead.",
      "- Before claiming completion, re-read the request's checklist and " ++
        "confirm every required gate actually passed: the diff was " ++
        "inspected, type checking, tests, and build ran and succeeded, and " ++
        "no unintended generated or temporary files remain.",
      "- A finished tool call is not a finished task. If a required gate did " ++
        "not pass, say plainly what is incomplete and why; never describe " ++
        "unverified work as done."]

/-- The instructions of a translated route.  The tools are sorted by name, so
their order in the request makes no difference. -/
def instructionsWithOptions (tools : List ToolSnapshot)
    (parallelGuidance actionBiasGuidance : Bool) : String :=
  if profile.promptFamily = .codexOfficialNative then baseIdentity
  else
    let sorted := tools.insertionSort fun left right => left.name ≤ right.name
    let readOnly := sorted.filter fun tool => !tool.mutating
    let mutating := sorted.filter fun tool => tool.mutating
    let hasPatchTool := profile.patchContract ≠ .unsupported &&
      (tools.isEmpty || tools.any fun tool => tool.name = applyPatchToolName)
    "\n\n".intercalate <|
      [baseIdentity] ++ toolSections profile tools readOnly mutating ++
      [editingSection hasPatchTool, migrationSection,
        readingSection environment readOnly] ++
      (if profile.shellContract = .codexNativeShellCommand then []
        else [shellSection environment]) ++
      parallelSections parallelGuidance profile.parallelPolicy ++
      [failureSection] ++
      (if actionBiasGuidance then [executionSection] else []) ++
      [workspaceSection, finishingSection]

/-- The instructions a catalog is written with. -/
def instructions : String :=
  instructionsWithOptions profile environment [] false true

end Vellum.Proxy

/-
The tools a translated provider is shown
(`vellum-proxy-runtime/src/harness/tools.rs` and the tool half of
`profile_adapter.rs`).  Each Codex declaration becomes function tools of the
wire, or none; declarations of one name are merged.
-/
import Vellum.Library.JsonEq
import Vellum.Proxy.Harness

namespace Vellum.Proxy

/-! What a declaration is turned into. -/

inductive BuiltinDecision where
  | exactSchema (description : String) (parameters : Json) (mutating : Bool)
  | unsupported (reason : String)

/-- A schema that is only a type. -/
def typeSchema (type : String) : Json := .obj [("type", .str type)]

/-- A closed object schema. -/
def closedObject (properties : List (String × Json))
    (required : List String) : Json :=
  .obj [("type", .str "object"), ("properties", .obj properties),
    ("required", .arr (required.map Json.str)),
    ("additionalProperties", .bool false)]

def shellParameters : Json :=
  closedObject
    [("command", .obj [("description", .str <|
        "Either the program and its arguments, one array element per " ++
        "argument, or a single shell script string."),
      ("anyOf", .arr [.obj [("type", .str "array"),
        ("items", typeSchema "string")], typeSchema "string"])]),
      ("workdir", .obj [("type", .str "string"), ("description", .str
        "Absolute working directory for this command.")]),
      ("timeout_ms", .obj [("type", .str "integer"), ("description", .str
        "Hard timeout in milliseconds.")]),
      ("with_escalated_permissions", typeSchema "boolean"),
      ("justification", typeSchema "string")]
    ["command"]

/-- A built-in of Codex has an exact schema or is not shown. -/
def builtinTool (kind : String) : BuiltinDecision :=
  if kind ∈ ["shell", "local_shell", "shell_command"] then
    .exactSchema
      ("Run a command. Prefer the argv array form and pass each argument as " ++
        "its own element, so quoting, spaces, and non-ASCII paths survive " ++
        "exactly; use the single-string form only for genuine shell scripts " ++
        "(pipelines, redirection, builtins). Use this for command execution " ++
        "only — never as a file editor.")
      shellParameters true
  else if kind = "web_search" then
    .exactSchema "Search the web and return ranked results. Read-only."
      (closedObject [("query", typeSchema "string")] ["query"]) false
  else if kind = "x_search" then
    .exactSchema "Search X/Twitter posts. Read-only."
      (closedObject [("query", typeSchema "string"),
        ("limit", typeSchema "integer")] ["query"]) false
  else if kind = "file_search" then
    .exactSchema
      ("Search the indexed files attached to this conversation. Read-only; " ++
        "does not read the working tree.")
      (closedObject [("query", typeSchema "string")] ["query"]) false
  else if kind ∈ ["code_execution", "code_interpreter", "python"] then
    .unsupported ("no Vellum runtime backs Codex's hosted code " ++
      "interpreter; use the shell tool instead")
  else if kind = "mcp" then
    .unsupported ("MCP tool schemas are defined by the connected server and " ++
      "cannot be synthesised")
  else if kind ∈ ["computer", "computer_use"] then
    .unsupported "computer-use has no translated runtime on this route"
  else if kind = "image_generation" then
    .unsupported "image generation is not available on translated routes"
  else
    .unsupported ("unknown Codex built-in `" ++ kind ++
      "` has no exact translated contract")

def isMutatingTool (name : String) : Bool :=
  name ∉ ["web_search", "x_search", "file_search", "read_file",
    "search_files", "list_dir", "grep", "git_diff", "git_status",
    "tool_search", "view_image"]

def applyPatchDescription : String :=
  "\n".intercalate
    ["Apply a patch to local files. This is the only supported way to edit " ++
        "files on disk: do not use shell redirection, sed, Set-Content, or " ++
        "temporary Python/PowerShell scripts to write files.",
      "`patch` must be one complete document:",
      "*** Begin Patch",
      "*** Update File: relative/path.ts",
      "@@ optional context header",
      " unchanged line (leading space)",
      "-removed line",
      "+added line",
      "*** Add File: relative/new.ts",
      "+every line of the new file, each prefixed with +",
      "*** Delete File: relative/old.ts",
      "*** End Patch",
      "Paths are relative to the workspace root and use forward slashes. " ++
        "Context lines keep their leading space. One call may contain " ++
        "several file sections. Prefer several small, exact patches over " ++
        "one broad rewrite."]

def applyPatchParameters : Json :=
  closedObject
    [("patch", .obj [("type", .str "string"), ("description", .str <|
      "Complete patch document beginning with *** Begin Patch and ending " ++
      "with *** End Patch")])]
    ["patch"]

/-- Whether a schema reads as an object. -/
def declaresObjectType (schema : Json) : Bool :=
  schema.isObject &&
    match schema.get "type" with
    | some (.str name) => name = "object"
    | some (.arr names) => names.any fun name => name.asStr = some "object"
    | some _ => false
    | none =>
      (schema.get "properties").isSome ||
        !((schema.get "anyOf").isSome || (schema.get "oneOf").isSome ||
          (schema.get "items").isSome)

/-- Put a field into an object that does not have it yet. -/
def orInsert (fields : List (String × Json)) (field : String × Json) :
    List (String × Json) :=
  if ((Json.obj fields).get field.1).isSome then fields else fields ++ [field]

/-- The strings of a list of names. -/
def nameList (names : Option Json) : List String :=
  ((names.bind Json.asArr).getD []).filterMap Json.asStr

/-- The properties of the root and of the object branches of a union. -/
def unionProperties (root : List (String × Json)) (branches : List Json) :
    List (String × Json) :=
  branches.foldl
    (fun properties branch =>
      (((branch.get "properties").bind Json.asObj).getD []).foldl orInsert
        properties)
    root

/-- What every object branch requires, and what the root does. -/
def unionRequired (root : List String) (branches : List Json) : List String :=
  let shared := branches.foldl
    (fun required branch =>
      let names := nameList (branch.get "required")
      match required with
      | none => some names
      | some current => some (current.filter fun name => name ∈ names))
    (none : Option (List String))
  root.foldl
    (fun required name =>
      if name ∈ required then required else required ++ [name])
    (shared.getD [])

/-- A parameter schema with an object root; a union keeps its object
branches. -/
def objectRootedToolParameters (schema : Json) : Option Json :=
  match schema with
  | .obj fields =>
    match ((schema.get "anyOf").or (schema.get "oneOf")).bind Json.asArr with
    | none => if declaresObjectType schema then some schema else none
    | some branches =>
      let rootIsObject := declaresObjectType schema
      let objects := branches.filter declaresObjectType
      if objects.isEmpty && !rootIsObject then none
      else
        let root := if rootIsObject then fields else []
        let typed := Json.insertField "type" (.str "object")
          (Json.removeField "oneOf" (Json.removeField "anyOf" root))
        let annotated :=
          ["description", "title", "$defs", "definitions"].foldl
            (fun merged key =>
              match schema.get key with
              | some value => Json.insertField key value merged
              | none => merged)
            typed
        let properties := unionProperties
          ((((Json.obj annotated).get "properties").bind
            Json.asObj).getD []) objects
        let stripped := Json.removeField "properties" annotated
        let required := unionRequired
          (nameList ((Json.obj stripped).get "required")) objects
        let merged := Json.insertField "properties" (.obj properties)
          (Json.removeField "required" stripped)
        some (.obj
          (if required.isEmpty then merged
            else Json.insertField "required"
              (.arr (required.map Json.str)) merged))
  | _ => some (typeSchema "object")

def namespacedDescription (namespaceName : String)
    (namespaceDescription childDescription : Option String) : String :=
  let part (text : Option String) : List String :=
    (text.toList.map fun text => String.ofList (Text.trim text.toList)).filter
      (· ≠ "")
  " ".intercalate
    (["[" ++ namespaceName ++ "]"] ++ part namespaceDescription ++
      part childDescription)

inductive ToolShape where
  | responses
  | chat

namespace ToolShape

def debug : ToolShape → String
  | .responses => "Responses"
  | .chat => "Chat"

/-- A function tool of the wire. -/
def tool (shape : ToolShape) (name description parameters : Json) : Json :=
  let function := [("name", name), ("description", description),
    ("parameters", parameters)]
  match shape with
  | .responses => .obj (("type", .str "function") :: function)
  | .chat => .obj [("type", .str "function"), ("function", .obj function)]

/-- Where the wire keeps the name and the schema of a function tool. -/
def function (shape : ToolShape) (tool : Json) : Json :=
  match shape with
  | .responses => tool
  | .chat => (tool.get "function").getD tool

end ToolShape

section

variable (shape : ToolShape) (tool : Json)

/-- The function of a declaration, with an object schema. -/
def declaredFunction : Option Json :=
  let source := (tool.get "function").getD tool
  let declared := ((source.get "parameters").or
    (source.get "input_schema")).getD (typeSchema "object")
  (objectRootedToolParameters declared).map fun parameters =>
    shape.tool ((source.get "name").getD (.str "unnamed_tool"))
      ((source.get "description").getD (.str "")) parameters

def normalizeFunctionTool : Json → Option Json := declaredFunction .chat

def toolKind : Option String :=
  (tool.get "type").bind Json.asStr

def toolText (field : String) : Option String :=
  (tool.get field).bind Json.asStr

/-- The function of a free-form tool.  The two wires describe its input
differently. -/
def customFunction (profile : HarnessProfile) (tool : Json) : List Json :=
  let name := (toolText tool "name").getD "custom_tool"
  if isApplyPatch name then
    if profile.patchContract = .unsupported then []
    else
      [shape.tool (.str applyPatchToolName) (.str applyPatchDescription)
        applyPatchParameters]
  else
    match shape with
    | .responses =>
      [shape.tool (.str name) ((tool.get "description").getD (.str ""))
        (closedObject [("input", typeSchema "string")] ["input"])]
    | .chat =>
      [shape.tool (.str name)
        ((tool.get "description").getD (.str
          "Codex free-form tool. Preserve the raw input exactly."))
        (closedObject [("input", .obj [("type", .str "string"),
          ("description", .str
            "Raw input for the original Codex custom tool")])] ["input"])]

def searchFunction : Json :=
  shape.tool (.str "tool_search") (.str "Search for available tools")
    ((tool.get "parameters").getD (typeSchema "object"))

def builtinFunction (kind : String) : List Json :=
  match builtinTool kind with
  | .exactSchema description parameters _ =>
    [shape.tool (.str kind) (.str description) parameters]
  | .unsupported _ => []

/-- The children of a namespace declaration. -/
def namespaceChildren : List Json :=
  (((tool.get "tools").or (tool.get "functions")).bind Json.asArr).getD []

end

/-- A function of a namespace, under its flattened name. -/
def flattenedFields (namespaceName : String)
    (namespaceDescription : Option String) (name : String)
    (fields : List (String × Json)) : List (String × Json) :=
  let named := Json.insertField "name"
    (.str (flattenNamespaceName namespaceName name)) fields
  Json.insertField "description"
    (.str (namespacedDescription namespaceName namespaceDescription
      (toolText (.obj named) "description"))) named

/-- A child in the Responses form. -/
def flattenChild (tool child : Json) : Json :=
  match child with
  | .obj fields =>
    .obj (flattenedFields ((toolText tool "name").getD "namespace")
      (toolText tool "description")
      ((toolText child "name").getD "tool") fields)
  | other => other

mutual

/-- `grok_function_tools`: a declaration in the Responses form.  The fields of
an object are walked so that a namespace in a namespace is translated too. -/
def grokFunctionTools (profile : HarnessProfile) : Json → List Json
  | .obj fields =>
    let tool := Json.obj fields
    match toolKind tool with
    | none => []
    | some kind =>
      if kind = "function" then (declaredFunction .responses tool).toList
      else if kind = "namespace" then
        let translated := grokFields profile fields
        ((((translated.lookup "tools").or
          (translated.lookup "functions")).join).getD []).map
            (flattenChild tool)
      else if kind = "custom" then customFunction .responses profile tool
      else if kind = "tool_search" then [searchFunction .responses tool]
      else builtinFunction .responses kind
  | _ => []

/-- The translated declarations of each field that is a list. -/
def grokFields (profile : HarnessProfile) :
    List (String × Json) → List (String × Option (List Json))
  | [] => []
  | (name, value) :: rest =>
    (name, grokList profile value) :: grokFields profile rest

def grokList (profile : HarnessProfile) : Json → Option (List Json)
  | .arr items => some (grokItems profile items)
  | _ => none

def grokItems (profile : HarnessProfile) : List Json → List Json
  | [] => []
  | item :: rest => grokFunctionTools profile item ++ grokItems profile rest

end

/-- A child in the Chat form; a namespace without a name leaves the name
alone. -/
def flattenChatChild (tool child : Json) : Json :=
  let named := (toolText tool "name").filter fun name => !isBlank name
  match named, child.get "function", child with
  | some namespaceName, some (.obj function), .obj fields =>
    let description := toolText tool "description"
    let flattened :=
      match toolText (.obj function) "name" with
      | some name =>
        flattenedFields namespaceName description name function
      | none =>
        Json.insertField "description"
          (.str (namespacedDescription namespaceName description
            (toolText (.obj function) "description"))) function
    .obj (Json.insertField "function" (.obj flattened) fields)
  | _, _, _ => child

/-- `chat_tools`: a declaration in the Chat form. -/
def chatTools (profile : HarnessProfile) (tool : Json) : List Json :=
  match toolKind tool with
  | none => []
  | some kind =>
    if kind = "function" then (normalizeFunctionTool tool).toList
    else if kind = "custom" then customFunction .chat profile tool
    else if kind = "namespace" then
      ((namespaceChildren tool).filterMap normalizeFunctionTool).map
        (flattenChatChild tool)
    else if kind = "tool_search" then [searchFunction .chat tool]
    else builtinFunction .chat kind

section

variable (crates : Crates) (shape : ToolShape)

/-- The translator of a wire. -/
def ToolShape.translate (profile : HarnessProfile) (tool : Json) : List Json :=
  match shape with
  | .responses => grokFunctionTools profile tool
  | .chat => chatTools profile tool

/-! Merging the declarations of a request. -/

def functionToolName (tool : Json) : Option String :=
  (((tool.get "name").or ((tool.get "function").bind (Json.get "name"))).bind
    Json.asStr).filter fun name => !isBlank name

/-- The first six bytes of the hash of a value's text. -/
def shortJsonHash (value : Json) : String :=
  String.ofList (((crates.sha256 (crates.toStr value)).take 6).flatMap hexByte)

/-- One function for each name; two schemas under one name are an error.
`seen` holds the schemas of the names that were met. -/
def deduplicateFrom (crates : Crates) (shape : ToolShape)
    (seen : List (String × Json)) : List Json → Except String (List Json)
  | [] => .ok []
  | tool :: rest =>
    let function := shape.function tool
    match (toolText function "name").filter (fun name => !isBlank name) with
    | none => .error "function tool is missing a name"
    | some name =>
      let schema := ((function.get "parameters").or
        (function.get "input_schema")).getD (typeSchema "object")
      match seen.lookup name with
      | some previous =>
        if previous.eqValue schema then
          deduplicateFrom crates shape seen rest
        else
          .error ("conflicting duplicate function definition '" ++
            name ++ "' has different parameter schemas (wire=" ++
            shape.debug ++ ", first_schema=" ++
            shortJsonHash crates previous ++ ", second_schema=" ++
            shortJsonHash crates schema ++ ")")
      | none =>
        (deduplicateFrom crates shape ((name, schema) :: seen) rest).map
          (tool :: ·)

def deduplicateFunctionTools (tools : List Json) : Except String (List Json) :=
  deduplicateFrom crates shape [] tools

def isCustomTool (tool : Json) : Bool := toolKind tool = some "custom"

/-- Whether a function has none of the names. -/
def unnamedIn (names : List String) (tool : Json) : Bool :=
  (functionToolName tool).all fun name => name ∉ names

/-- The functions of the request's own declarations.  A free-form tool takes
precedence over a wrapper of its name. -/
def expandedTopLevel (profile : HarnessProfile) (raw : List Json) : List Json :=
  let customNames := (raw.filter isCustomTool).filterMap functionToolName
  ((raw.filter (!isCustomTool ·)).flatMap (shape.translate profile)).filter
      (unnamedIn customNames) ++
    (raw.filter isCustomTool).flatMap (shape.translate profile)

/-- The functions of a request: declarations embedded in its input only fill
names that its own declarations leave free. -/
def mergedTools (profile : HarnessProfile) (raw embedded : List Json) :
    Except String (List Json) := do
  let tools ← deduplicateFunctionTools crates shape
    (expandedTopLevel shape profile raw)
  let canonicalNames := tools.filterMap functionToolName
  let extra ← deduplicateFunctionTools crates shape
    ((embedded.flatMap (shape.translate profile)).filter
      (unnamedIn canonicalNames))
  return tools ++ extra

/-- The delegation tools, once their runtime has been proven. -/
def delegationTools (profile : HarnessProfile) : List Json :=
  if profile.multiAgentPolicy = .vellumDelegated then
    shape.translate profile delegationNamespace
  else []

end

/-! The tools the prompt speaks of. -/

/-- Put a field at its place in a sorted object. -/
def insertSorted (field : String × Json) :
    List (String × Json) → List (String × Json)
  | [] => [field]
  | first :: rest =>
    if field.1 ≤ first.1 then field :: first :: rest
    else first :: insertSorted field rest

mutual

/-- The value with the fields of every object sorted. -/
def canonicalize : Json → Json
  | .obj fields => .obj (canonicalFields fields)
  | .arr items => .arr (canonicalItems items)
  | value => value

def canonicalFields : List (String × Json) → List (String × Json)
  | [] => []
  | (name, value) :: rest =>
    insertSorted (name, canonicalize value) (canonicalFields rest)

def canonicalItems : List Json → List Json
  | [] => []
  | item :: rest => canonicalize item :: canonicalItems rest

end

/-- A tool that is not shown, and why. -/
structure UnsupportedTool where
  name : String
  reason : String
deriving DecidableEq

/-- A function as the prompt sees it. -/
def toolSnapshot (origin : String) (entry : Json) : Option ToolSnapshot :=
  let function := (entry.get "function").getD entry
  (toolText function "name").map fun name =>
    { name, origin
      mutating := isMutatingTool name
      description := (toolText function "description").getD ""
      parameters := canonicalize
        ((function.get "parameters").getD (typeSchema "object")) }

/-- A declaration is unsupported, or the functions it stands for are seen. -/
def visibleTool (shape : ToolShape) (profile : HarnessProfile) (tool : Json) :
    List ToolSnapshot × List UnsupportedTool :=
  let origin := (toolKind tool).getD "function"
  let seen := ((shape.translate profile tool).filterMap (toolSnapshot origin),
    [])
  if origin ∈ ["function", "custom", "namespace", "tool_search"] then seen
  else
    match builtinTool origin with
    | .unsupported reason => ([], [⟨origin, reason⟩])
    | .exactSchema .. => seen

def RuntimeWireFormat.shape : RuntimeWireFormat → ToolShape
  | .responses => .responses
  | .chat => .chat

def modelVisibleTools (body : Json) (wire : RuntimeWireFormat)
    (profile : HarnessProfile) : List ToolSnapshot × List UnsupportedTool :=
  let visible := (requestTools body).map (visibleTool wire.shape profile)
  (visible.flatMap Prod.fst, visible.flatMap Prod.snd)

end Vellum.Proxy

import MochiPort.ChatTurns
import MochiPort.ItemJson

namespace MochiPort

def applyPatchToolName : String := "apply_patch"
def applyPatchInputDescription : String := "The entire apply_patch patch body."

def applyPatchDescription : String :=
  "\n".intercalate [
    "Apply file changes using a structured patch format. This is ideal for multi-file or multi-hunk edits " ++
      "where shell-based file writes would be brittle.",
    "The patch language is a stripped-down, file-oriented diff format designed to be easy to parse and safe to " ++
      "apply. A patch must use this envelope:",
    "",
    "*** Begin Patch",
    "[ one or more file sections ]",
    "*** End Patch",
    "",
    "Within that envelope, each file operation starts with one of these headers:",
    "",
    "*** Add File: <path> - create a new file. Every following line is a + line.",
    "*** Delete File: <path> - remove an existing file. Nothing follows.",
    "*** Update File: <path> - patch an existing file in place, optionally followed by *** Move to: <new path>.",
    "",
    "Update hunks start with @@ and contain lines prefixed with a space, -, or +.",
    "Use *** Move to: <new path> after an *** Update File header to rename or move a file.",
    "Use *** End of File after update lines when you need an EOF-only insertion.",
    "Prefer workspace-relative paths. Absolute paths are accepted by Codex, but use them only when the user " ++
      "explicitly asks to edit that exact absolute path and permissions allow it.",
    "",
    "Call this tool with JSON arguments matching \x7b\"input\":\"<the entire patch body>\"\x7d. The `input` " ++
      "value must contain only the patch body and its final non-whitespace line must be exactly `*** End Patch`.",
    "",
    "Important rules:",
    "- For *** Add File, every content line must start with +. Blank lines must be written as +.",
    "- Do not write raw file content after an Add File header.",
    "- For *** Update File, context lines start with one space, removed lines with -, and added lines with +.",
    "- If apply_patch returns a format error, fix the patch and retry apply_patch before using shell commands " ++
      "to write files.",
    "",
    "Few-shot examples:",
    "",
    "Add a markdown file:",
    "*** Begin Patch",
    "*** Add File: notes.md",
    "+# Notes",
    "+",
    "+- First item",
    "+- Second item",
    "*** End Patch",
    "",
    "Update a file:",
    "*** Begin Patch",
    "*** Update File: src/example.txt",
    "@@",
    "old line kept as context",
    "-old value",
    "+new value",
    "*** End Patch",
    "",
    "Move and update a file:",
    "*** Begin Patch",
    "*** Update File: old/path.txt",
    "*** Move to: new/path.txt",
    "@@",
    "-old name",
    "+new name",
    "*** End Patch",
    "",
    "Delete a file:",
    "*** Begin Patch",
    "*** Delete File: old.txt",
    "*** End Patch",
    "",
    "Update multiple files in one patch:",
    "*** Begin Patch",
    "*** Update File: src/lib.rs",
    "@@",
    "-pub mod old;",
    "+pub mod new;",
    "*** Update File: README.md",
    "@@",
    "-Old heading",
    "+New heading",
    "*** End Patch",
    "",
    "Insert at end of file:",
    "*** Begin Patch",
    "*** Update File: notes.md",
    "@@",
    "existing final line",
    "*** End of File",
    "+appended line",
    "*** End Patch"]

structure ToolsRequest extends GatewayRequest where
  tools : List JsonValue := []
  toolChoice : Option JsonValue := none

/-- A function that the request advertises; `declared` is no part of it, but says which tool it was built from. -/
structure ChatTool where
  function : List (String × JsonValue)
  declared : ToolCallTarget
  deriving DecidableEq

namespace ChatTool

def toJson (tool : ChatTool) : JsonValue :=
  .object [("type", .string "function"), ("function", .object tool.function)]

def name (tool : ChatTool) : Option String := (tool.function.lookup "name").bind JsonValue.asStr

end ChatTool

/-- An object, whose type is `object` if it has none. -/
def normalizeChatFunctionParameters (parameters : Option JsonValue) : JsonValue :=
  let schema := ((parameters.bind JsonValue.asObject).getD [])
  if (schema.lookup "type").all (· = .null) then .object (insertField "type" (.string "object") schema)
  else .object schema

/-- A member that is missing is taken from the tool. -/
def fillMember (key : String) (tool function : List (String × JsonValue)) : List (String × JsonValue) :=
  if (function.lookup key).isSome then function
  else
    match tool.lookup key with
    | some value => insertField key value function
    | none => function

section

variable (sha256 : List UInt8 → Vector UInt8 32)

def buildChatFunctionObject (tool : List (String × JsonValue)) (nameSpace : Option String)
    (toolNameMap : ToolNameMap) : ToolNameMap × Option ChatTool :=
  let function := ((tool.lookup "function").bind JsonValue.asObject).getD []
  let function := fillMember "name" tool function
  let function := fillMember "description" tool function
  let function := fillMember "parameters" tool function
  let function := fillMember "strict" tool function
  let parameters := normalizeChatFunctionParameters (function.lookup "parameters")
  let function := insertField "parameters" parameters (removeField "parameters" function)
  match (function.lookup "name").bind JsonValue.asStr with
  | none => (toolNameMap, none)
  | some name =>
    let (toolNameMap, encoded) := toolNameMap.encodeName sha256 (.ofFunction nameSpace name)
    (toolNameMap, some {
      function := insertField "name" (.string encoded) function
      declared := .ofFunction nameSpace name })

/-- The name is always the same, whichever one the map gives. -/
def buildChatToolSearchObject (tool : List (String × JsonValue)) (toolNameMap : ToolNameMap) :
    ToolNameMap × Option ChatTool :=
  let function := [("name", JsonValue.string toolSearchName)] ++
    optionalField "description" (tool.lookup "description") ++
    [("parameters", normalizeChatFunctionParameters (tool.lookup "parameters"))]
  ((toolNameMap.encodeName sha256 .toolSearch).1, some { function := function, declared := .toolSearch })

def customToolInputDescription (name : String) : String :=
  if name = applyPatchToolName then applyPatchInputDescription else "Freeform input for the custom tool."

def customToolParameters (name : String) : JsonValue :=
  .object [("type", .string "object"),
    ("properties", .object [("input", .object [("type", .string "string"),
      ("description", .string (customToolInputDescription name))])]),
    ("required", .array [.string "input"]), ("additionalProperties", .bool false)]

def buildChatCustomToolObject (tool : List (String × JsonValue)) (toolNameMap : ToolNameMap) :
    ToolNameMap × Option ChatTool :=
  match (tool.lookup "name").bind JsonValue.asStr with
  | none => (toolNameMap, none)
  | some name =>
    let (toolNameMap, encoded) := toolNameMap.encodeName sha256 (.custom name)
    let described :=
      if name = applyPatchToolName then
        [("description", .string applyPatchDescription), ("strict", .bool false)]
      else optionalField "description" (tool.lookup "description")
    (toolNameMap, some {
      function := ("name", .string encoded) :: (described ++ [("parameters", customToolParameters name)])
      declared := .custom name })

/-- Builds the tools of one value after the other, each with the map that the one before left. -/
def buildInTurn {α : Type*} (build : α → ToolNameMap → ToolNameMap × List ChatTool) :
    List α → ToolNameMap → ToolNameMap × List ChatTool
  | [], toolNameMap => (toolNameMap, [])
  | value :: values, toolNameMap =>
    let (toolNameMap, tools) := build value toolNameMap
    let (toolNameMap, later) := buildInTurn build values toolNameMap
    (toolNameMap, tools ++ later)

def typeIs (fields : List (String × JsonValue)) (typeName : String) : Bool :=
  decide ((fields.lookup "type").bind JsonValue.asStr = some typeName)

def convertNamespaceItem (nameSpace : String) (item : JsonValue) (toolNameMap : ToolNameMap) :
    ToolNameMap × List ChatTool :=
  match item.asObject with
  | none => (toolNameMap, [])
  | some fields =>
    if typeIs fields "function" then
      let (toolNameMap, tool) := buildChatFunctionObject sha256 fields (some nameSpace) toolNameMap
      (toolNameMap, tool.toList)
    else (toolNameMap, [])

def convertTool (tool : JsonValue) (toolNameMap : ToolNameMap) : ToolNameMap × List ChatTool :=
  match tool.asObject with
  | none => (toolNameMap, [])
  | some fields =>
    match (fields.lookup "type").bind JsonValue.asStr with
    | some "namespace" =>
      let nameSpace := ((fields.lookup "name").bind JsonValue.asStr).getD ""
      buildInTurn (convertNamespaceItem sha256 nameSpace)
        (((fields.lookup "tools").bind JsonValue.asArray).getD []) toolNameMap
    | some "function" =>
      let (toolNameMap, tool) := buildChatFunctionObject sha256 fields none toolNameMap
      (toolNameMap, tool.toList)
    | some "tool_search" =>
      let (toolNameMap, tool) := buildChatToolSearchObject sha256 fields toolNameMap
      (toolNameMap, tool.toList)
    | some "custom" =>
      let (toolNameMap, tool) := buildChatCustomToolObject sha256 fields toolNameMap
      (toolNameMap, tool.toList)
    | _ => (toolNameMap, [])

end

def firstOfName : List String → List ChatTool → List ChatTool
  | _, [] => []
  | seenNames, tool :: tools =>
    match tool.name with
    | none => tool :: firstOfName seenNames tools
    | some name =>
      if name ∈ seenNames then firstOfName seenNames tools else tool :: firstOfName (name :: seenNames) tools

def toolSearchOutputTools (items : List ResponseItem) : List JsonValue :=
  (items.filter fun item => item.itemType = .toolSearchOutput).flatMap fun item => item.tools.getD []

def convertToolsToChatTools (sha256 : List UInt8 → Vector UInt8 32) (request : ToolsRequest)
    (toolNameMap : ToolNameMap) : ToolNameMap × List ChatTool :=
  let tools := request.tools ++ toolSearchOutputTools request.input
  let (toolNameMap, converted) := buildInTurn (convertTool sha256) tools toolNameMap
  (toolNameMap, firstOfName [] converted)

def namedFunction (name : String) : JsonValue :=
  .object [("type", .string "function"), ("function", .object [("name", .string name)])]

def convertToolChoiceToChat (sha256 : List UInt8 → Vector UInt8 32) (toolChoice : JsonValue)
    (toolNameMap : ToolNameMap) : ToolNameMap × JsonValue :=
  match toolChoice.asObject with
  | none => (toolNameMap, toolChoice)
  | some fields =>
    match (fields.lookup "mode").bind JsonValue.asStr with
    | some mode => (toolNameMap, .string mode)
    | none =>
      if typeIs fields "function" then
        let nameSpace := ((fields.lookup "namespace").bind JsonValue.asStr).filter fun value => RustText.trim value ≠ ""
        match buildChatFunctionObject sha256 fields nameSpace toolNameMap with
        | (toolNameMap, some tool) => (toolNameMap, tool.toJson)
        | (toolNameMap, none) => (toolNameMap, toolChoice)
      else if typeIs fields "tool_search" then
        let (toolNameMap, encoded) := toolNameMap.encodeName sha256 .toolSearch
        (toolNameMap, namedFunction encoded)
      else if typeIs fields "custom" then
        match (fields.lookup "name").bind JsonValue.asStr with
        | some name =>
          let (toolNameMap, encoded) := toolNameMap.encodeName sha256 (.custom name)
          (toolNameMap, namedFunction encoded)
        | none => (toolNameMap, toolChoice)
      else (toolNameMap, toolChoice)

structure ChatBody where
  messages : List ChatRequestMessage
  tools : List ChatTool
  toolChoice : Option JsonValue

def buildChatRequestWithToolNames (ext : RequestExternals) (request : ToolsRequest) (deepseekMode : Bool) :
    Except String (ChatBody × ToolNameMap) :=
  let start := InputState.start request.instructions
  match InputState.convertInputToMessages ext request.input.length 0 request.input start,
    buildChatMessages ext request.toGatewayRequest deepseekMode with
  | .ok s, .ok messages =>
    let (toolNameMap, tools) := convertToolsToChatTools ext.sha256 request s.toolNameMap
    match request.toolChoice with
    | none => .ok ({ messages := messages, tools := tools, toolChoice := none }, toolNameMap)
    | some toolChoice =>
      let (toolNameMap, toolChoice) := convertToolChoiceToChat ext.sha256 toolChoice toolNameMap
      .ok ({ messages := messages, tools := tools, toolChoice := some toolChoice }, toolNameMap)
  | .error e, _ => .error e
  | _, .error e => .error e

end MochiPort

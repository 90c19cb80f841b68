import MochiPort.JsonValues

namespace MochiPort

inductive ItemType where
  | message
  | inputText
  | inputImage
  | functionCall
  | functionCallOutput
  | toolSearchCall
  | toolSearchOutput
  | customToolCall
  | customToolCallOutput
  | webSearchCall
  | imageGenerationCall
  | reasoning
  | outputText
  | unknown
  deriving DecidableEq

inductive JsonString where
  | string (text : String)
  | value (value : JsonValue)
  deriving DecidableEq

structure ContentPart where
  partType : String
  text : Option String := none
  imageUrl : Option String := none
  detail : Option String := none
  annotations : Option (List JsonValue) := none
  deriving DecidableEq

def ContentPart.outputText (text : String) : ContentPart :=
  { partType := "output_text", text := some text, annotations := some [] }

inductive ItemContent where
  | text (text : String)
  | parts (parts : List ContentPart)
  deriving DecidableEq

structure FunctionCallOutputContentItem where
  itemType : String
  text : Option String := none
  imageUrl : Option String := none
  encryptedContent : Option String := none
  detail : Option JsonValue := none
  deriving DecidableEq

inductive FunctionCallOutput where
  | text (text : String)
  | contentItems (items : List FunctionCallOutputContentItem)
  deriving DecidableEq

structure SummaryPart where
  partType : String
  text : String
  deriving DecidableEq

/-- An item of a request or of a response; a field that is `none` is left out of its JSON. -/
structure ResponseItem where
  itemType : ItemType
  id : Option String := none
  role : Option String := none
  content : Option ItemContent := none
  text : Option String := none
  name : Option String := none
  nameSpace : Option String := none
  callId : Option String := none
  arguments : Option JsonString := none
  input : Option String := none
  output : Option FunctionCallOutput := none
  status : Option String := none
  execution : Option String := none
  tools : Option (List JsonValue) := none
  imageUrl : Option String := none
  detail : Option String := none
  action : Option JsonValue := none
  summary : Option (List SummaryPart) := none
  encryptedContent : Option String := none
  deriving DecidableEq

structure InputTokensDetails where
  cachedTokens : Int
  cacheCreationTokens : Int := 0
  cacheCreation5mTokens : Int := 0
  cacheCreation1hTokens : Int := 0
  deriving DecidableEq

structure OutputTokensDetails where
  reasoningTokens : Int
  deriving DecidableEq

structure Usage where
  inputTokens : Int
  outputTokens : Int
  totalTokens : Int
  inputTokensDetails : Option InputTokensDetails
  outputTokensDetails : Option OutputTokensDetails
  deriving DecidableEq

structure ResponseObject where
  id : String
  objectType : String
  model : String
  createdAt : Int
  status : String
  output : List ResponseItem
  usage : Option Usage
  error : Option JsonValue
  incompleteDetails : Option JsonValue
  deriving DecidableEq

/-- An addition of `i64` values, which wraps around. -/
def i64Add (a b : Int) : Int := Int.bmod (a + b) 0x10000000000000000

end MochiPort

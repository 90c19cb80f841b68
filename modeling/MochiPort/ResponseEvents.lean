import MochiPort.GatewayModel
import MochiPort.ItemLedgers

namespace MochiPort

/-- The events of a Responses stream, without their sequence numbers. -/
inductive ResponseEvent where
  | created (response : ResponseObject)
  | inProgress (response : ResponseObject)
  | outputItemAdded (outputIndex : Nat) (item : ResponseItem)
  | outputItemDone (outputIndex : Nat) (item : ResponseItem)
  | reasoningSummaryPartAdded (itemId : String) (outputIndex : Nat)
  | reasoningSummaryTextDelta (itemId : String) (outputIndex : Nat) (delta : String)
  | reasoningSummaryTextDone (itemId : String) (outputIndex : Nat) (text : String)
  | reasoningSummaryPartDone (itemId : String) (outputIndex : Nat) (text : String)
  | contentPartAdded (itemId : String) (outputIndex contentIndex : Nat)
  | outputTextDelta (itemId : String) (outputIndex contentIndex : Nat) (delta : String)
  | outputTextAnnotationAdded (itemId : String) (outputIndex annotationIndex : Nat) (value : JsonValue)
  | outputTextDone (itemId : String) (outputIndex contentIndex : Nat) (text : String)
  | contentPartDone (itemId : String) (outputIndex contentIndex : Nat) (part : ContentPart)
  | functionCallArgumentsDelta (itemId : String) (outputIndex : Nat) (delta : String)
  | functionCallArgumentsDone (itemId : String) (outputIndex : Nat) (name arguments : String)
  | customToolCallInputDelta (itemId : String) (outputIndex : Nat) (delta : String)
  | customToolCallInputDone (itemId : String) (outputIndex : Nat) (input : String)
  | webSearchCallInProgress (itemId : String) (outputIndex : Nat)
  | webSearchCallSearching (itemId : String) (outputIndex : Nat)
  | webSearchCallCompleted (itemId : String) (outputIndex : Nat)
  | completed (response : ResponseObject)
  | incomplete (response : ResponseObject)
  | failed (response : ResponseObject)
  deriving DecidableEq

structure StreamEvent where
  sequenceNumber : Nat
  event : ResponseEvent
  deriving DecidableEq

namespace ResponseItem

/-- Only one of these items may be open at a time. -/
def isActive (item : ResponseItem) : Bool := item.itemType = .message || item.itemType = .reasoning

/-- The text of a message or of a reasoning item, or the arguments of a function call. -/
def wholeText (item : ResponseItem) : Option String :=
  match item.itemType with
  | .message =>
    match item.content with
    | some (.parts parts) => some (String.join (parts.map fun part => part.text.getD ""))
    | some (.text text) => some text
    | none => some ""
  | .reasoning => some (String.join ((item.summary.getD []).map fun part => part.text))
  | .functionCall =>
    match item.arguments with
    | some (.string text) => some text
    | _ => none
  | _ => none

end ResponseItem

namespace ResponseEvent

def itemAct : ResponseEvent → ItemLedger.Act (Option String)
  | outputItemAdded outputIndex item => .added outputIndex item.id item.isActive
  | outputItemDone outputIndex item => .done outputIndex item.id item.wholeText
  | reasoningSummaryPartAdded itemId outputIndex => .mention outputIndex (some itemId) none
  | reasoningSummaryTextDelta itemId outputIndex delta => .delta outputIndex (some itemId) delta
  | reasoningSummaryTextDone itemId outputIndex text => .mention outputIndex (some itemId) (some text)
  | reasoningSummaryPartDone itemId outputIndex text => .mention outputIndex (some itemId) (some text)
  | contentPartAdded itemId outputIndex _ => .mention outputIndex (some itemId) none
  | outputTextDelta itemId outputIndex _ delta => .delta outputIndex (some itemId) delta
  | outputTextAnnotationAdded itemId outputIndex _ _ => .mention outputIndex (some itemId) none
  | outputTextDone itemId outputIndex _ text => .mention outputIndex (some itemId) (some text)
  | contentPartDone itemId outputIndex _ part => .mention outputIndex (some itemId) part.text
  | functionCallArgumentsDelta itemId outputIndex delta => .delta outputIndex (some itemId) delta
  | functionCallArgumentsDone itemId outputIndex _ arguments =>
    .mention outputIndex (some itemId) (some arguments)
  | customToolCallInputDelta itemId outputIndex delta => .delta outputIndex (some itemId) delta
  | customToolCallInputDone itemId outputIndex _ => .mention outputIndex (some itemId) none
  | webSearchCallInProgress itemId outputIndex => .mention outputIndex (some itemId) none
  | webSearchCallSearching itemId outputIndex => .mention outputIndex (some itemId) none
  | webSearchCallCompleted itemId outputIndex => .mention outputIndex (some itemId) none
  | created _ => .other
  | inProgress _ => .other
  | completed _ => .other
  | incomplete _ => .other
  | failed _ => .other

def isTerminal : ResponseEvent → Bool
  | completed _ => true
  | incomplete _ => true
  | failed _ => true
  | _ => false

end ResponseEvent

def itemsAfter (events : List StreamEvent) : Option (ItemLedger.State (Option String)) :=
  Runs.run ItemLedger.step ItemLedger.start (events.map fun e => e.event.itemAct)

def EndsOnce (events : List StreamEvent) : Prop :=
  ∃ before last, events = before ++ [last] ∧ last.event.isTerminal = true ∧
    ∀ e ∈ before, e.event.isTerminal = false

end MochiPort

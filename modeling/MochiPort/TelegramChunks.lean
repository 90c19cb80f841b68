import MochiPort.CustomToolInput
import MochiPort.ProgressTexts

namespace MochiPort

open RustText

def telegramMaxMessageChars : Nat := 4096
def telegramContinuationOverhead : Nat := 30
/-- For the fence lines added around a piece; a language has at most 24 characters. -/
def telegramFenceReserve : Nat := 32

def trimEndList (text : List Char) : List Char := text.rdropWhile isWhitespace

/-- `str::rfind` of one character. -/
def rfind (text : List Char) (c : Char) : Option Nat :=
  if c ∈ text then some ((text.rdropWhile (· ≠ c)).length - 1) else none

/-- Behind the last newline of the search area, or else its last space, if that is not before its middle. -/
def bestSplitPoint (searchArea : List Char) (hardSplit contentLimit : Nat) : Nat :=
  match (rfind searchArea '\n').filter (contentLimit / 2 ≤ ·) with
  | some pos => pos + 1
  | none =>
    match (rfind searchArea ' ').filter (contentLimit / 2 ≤ ·) with
    | some pos => pos + 1
    | none => hardSplit

/-- The loop of `split_message_for_telegram`; `none` after `fuel` rounds. -/
def splitLoop (contentLimit : Nat) : Nat → List Char → Option (List (List Char))
  | _, [] => some []
  | 0, _ :: _ => none
  | fuel + 1, remaining =>
    if remaining.length ≤ contentLimit then some [remaining]
    else
      let chunkEnd := bestSplitPoint (remaining.take contentLimit) contentLimit contentLimit
      (splitLoop contentLimit fuel (trimStartList (remaining.drop chunkEnd))).map fun chunks =>
        trimEndList (remaining.take chunkEnd) :: chunks

def splitMessageForTelegram (fuel : Nat) (message : List Char) (maxChars : Nat) : Option (List (List Char)) :=
  splitLoop (maxChars - telegramContinuationOverhead) fuel message

def fence : List Char := ['`', '`', '`']

def isFenceLine (line : List Char) : Bool := fence.isPrefixOf (trimStartList line)

def isLanguageChar (c : Char) : Bool := c.isAlphanum || c = '-' || c = '_' || c = '+'

def fenceLanguage (line : List Char) : Option (List Char) :=
  if isFenceLine line then
    let info := trimEndList (trimStartList ((trimStartList line).drop 3))
    let language := ((((info.splitOnP isWhitespace).find? (· ≠ [])).getD []).filter isLanguageChar).take 24
    if language = [] then none else some language
  else none

def chunkLines (chunk : List Char) : List (List Char) := (RustText.lines (String.ofList chunk)).map String.toList

def openLanguageAfter (openLanguage : Option (List Char)) (line : List Char) : Option (List Char) :=
  if isFenceLine line then
    match openLanguage with
    | some _ => none
    | none => fenceLanguage line
  else openLanguage

/-- A chunk with the fence lines that it needs, and the language that is open after it. -/
def rebalanceChunk (openLanguage : Option (List Char)) (chunk : List Char) : List Char × Option (List Char) :=
  let opening :=
    match openLanguage with
    | some language => fence ++ language ++ ['\n']
    | none => []
  let lines := (chunkLines chunk).flatMap (· ++ ['\n'])
  let next := (chunkLines chunk).foldl openLanguageAfter openLanguage
  let body := opening ++ lines ++ if next.isSome then fence else []
  (trimEndList body, next)

def rebalanceCodeFences : Option (List Char) → List (List Char) → List (List Char)
  | _, [] => []
  | openLanguage, chunk :: chunks =>
    let (body, next) := rebalanceChunk openLanguage chunk
    body :: rebalanceCodeFences next chunks

def markChunk (continuesMarker continuedMarker : String) (chunkCount index : Nat) (chunk : List Char) : String :=
  if index = 0 then String.ofList chunk ++ "\n\n" ++ continuesMarker
  else if index + 1 = chunkCount then continuedMarker ++ "\n\n" ++ String.ofList chunk
  else continuedMarker ++ "\n\n" ++ String.ofList chunk ++ "\n\n" ++ continuesMarker

/-- What `split_message_for_telegram` may use of the limit. -/
def effectiveMax (trimmed : String) (maxChars : Nat) : Nat :=
  if contains trimmed "```" then maxChars - telegramFenceReserve else maxChars

def telegramTextChunksWithLimit (fuel : Nat) (text : String) (maxChars : Nat)
    (continuesMarker continuedMarker : String) : Option (List String) :=
  let trimmed := trim text
  if trimmed = "" then some [" "]
  else if charCount trimmed ≤ maxChars then some [trimmed]
  else
    (splitMessageForTelegram fuel trimmed.toList (effectiveMax trimmed maxChars)).map fun chunks =>
      let chunks := rebalanceCodeFences none chunks
      chunks.mapIdx (markChunk continuesMarker continuedMarker chunks.length)

def telegramTextChunks (fuel : Nat) (text continuesMarker continuedMarker : String) : Option (List String) :=
  telegramTextChunksWithLimit fuel text telegramMaxMessageChars continuesMarker continuedMarker

def turnCompletedMaxChars (header : String) : Nat :=
  let reservedChars := charCount (trim header) + charCount telegramCardSeparator + 4
  max (telegramMaxMessageChars - reservedChars) (telegramContinuationOverhead + 1)

def telegramTurnCompletedChunks (fuel : Nat) (text header continuesMarker continuedMarker : String) :
    Option (List String) :=
  telegramTextChunksWithLimit fuel text (turnCompletedMaxChars header) continuesMarker continuedMarker

def userMessageMaxChars (creditText : String) : Nat :=
  let reservedChars := charCount (trim creditText) + 2
  max (telegramMaxMessageChars - reservedChars) (telegramContinuationOverhead + 1)

def telegramUserMessageChunks (fuel : Nat) (text creditText continuesMarker continuedMarker : String) :
    Option (List String) :=
  telegramTextChunksWithLimit fuel text (userMessageMaxChars creditText) continuesMarker continuedMarker

end MochiPort

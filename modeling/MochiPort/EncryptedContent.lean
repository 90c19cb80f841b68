import MochiPort.GatewayRouting
import MochiPort.ItemJson
import MochiPort.ToolNames

namespace MochiPort

def markerPrefix : String := "codexhub:enc:v1:"

def footprintBytes : Nat := 6

inductive AnthropicEncryptedContentKind where
  | thinking
  | redactedThinking
  deriving DecidableEq

def AnthropicEncryptedContentKind.marker : AnthropicEncryptedContentKind → String
  | .thinking => "thinking"
  | .redactedThinking => "redacted_thinking"

structure EncryptedContentScope where
  protocol : String
  footprint : String
  deriving DecidableEq

structure EncryptedContentStats where
  decoded : Nat := 0
  filtered : Nat := 0
  legacyPreserved : Nat := 0
  droppedItems : Nat := 0
  deriving DecidableEq

inductive ScopedContent where
  | unmarked
  | matching (content : String)
  | foreign
  deriving DecidableEq

def ProviderType.protocol : ProviderType → String
  | .openAiResponses => "openai"
  | .deepSeekResponses => "deepseek_responses"
  | .grokResponses => "grok"
  | .chatCompletions => "chat_completions"
  | .anthropicMessages => "anthropic"

def stripStart (s start : String) : Option String :=
  if start.toList <+: s.toList then some (String.ofList (s.toList.drop start.toList.length)) else none

def startsWithMarker (content : String) : Bool := (stripStart content markerPrefix).isSome

namespace EncryptedContentScope

def forProvider (sha256 : List UInt8 → Vector UInt8 32) (provider : ProviderConfig) : EncryptedContentScope where
  protocol := provider.providerType.protocol
  footprint := hexEncode ((sha256 (providerRouteId provider).toUTF8.toList).toList.take footprintBytes)

def encode (scope : EncryptedContentScope) (content : String) : String :=
  if startsWithMarker content then content
  else markerPrefix ++ (scope.protocol ++ ":" ++ (scope.footprint ++ ":" ++ content))

/-- The marked text is split at its first two colons. -/
def decode (scope : EncryptedContentScope) (content : String) : ScopedContent :=
  match stripStart content markerPrefix with
  | none => .unmarked
  | some encoded =>
    match RustText.splitOnce encoded ":" with
    | none => .foreign
    | some (protocol, rest) =>
      match RustText.splitOnce rest ":" with
      | none => .foreign
      | some (footprint, content) =>
        if protocol = scope.protocol ∧ footprint = scope.footprint then .matching content else .foreign

def decodeMatching (scope : EncryptedContentScope) (content : String) : Option String :=
  match scope.decode content with
  | .matching content => some content
  | .unmarked => none
  | .foreign => none

def encodeAnthropic (scope : EncryptedContentScope) (kind : AnthropicEncryptedContentKind) (content : String) :
    String :=
  if startsWithMarker content then content else scope.encode (kind.marker ++ ":" ++ content)

def decodeAnthropic (scope : EncryptedContentScope) (content : String) :
    Option (AnthropicEncryptedContentKind × String) :=
  if scope.protocol ≠ "anthropic" then none
  else
    (scope.decodeMatching content).bind fun payload =>
      (((stripStart payload "thinking").bind (stripStart · ":")).map fun content =>
          (AnthropicEncryptedContentKind.thinking, content)).or
        (((stripStart payload "redacted_thinking").bind (stripStart · ":")).map fun content =>
          (AnthropicEncryptedContentKind.redactedThinking, content))

end EncryptedContentScope

def isProviderPrivateItem (object : List (String × JsonValue)) : Bool :=
  ((object.lookup "type").bind JsonValue.asStr).any fun itemType =>
    ["reasoning", "compaction", "compaction_summary", "context_compaction"].contains itemType

/-- Scopes the state of an item for the client, and says whether it did. -/
def encodeResponseObject (object : List (String × JsonValue)) (scope : EncryptedContentScope) :
    List (String × JsonValue) × Bool :=
  if scope.protocol ≠ "anthropic" || !isProviderPrivateItem object then (object, false)
  else
    let anthropicKind :=
      if (object.lookup "summary").any (· ≠ .null) then AnthropicEncryptedContentKind.thinking
      else .redactedThinking
    match (object.lookup "encrypted_content").bind JsonValue.asStr with
    | none => (object, false)
    | some content =>
      if content = "" || startsWithMarker content then (object, false)
      else (insertField "encrypted_content" (.string (scope.encodeAnthropic anthropicKind content)) object, true)

def isReplayableField (field : String × JsonValue) : Bool :=
  if ["type", "id", "status", "internal_chat_message_metadata_passthrough"].contains field.1 then false
  else if field.1 = "summary" || field.1 = "content" then
    field.2 ≠ .null && field.2 ≠ .array [] && field.2 ≠ .string ""
  else true

def hasReplayableContent (object : List (String × JsonValue)) : Bool := object.any isReplayableField

def removePrivateTransport (object : List (String × JsonValue)) : List (String × JsonValue) × Bool :=
  let object := removeField "status" (removeField "id" (removeField "encrypted_content" object))
  let object := if object.lookup "content" = some .null then removeField "content" object else object
  (object, hasReplayableContent object)

def prepareInputItem (scope : EncryptedContentScope) (dropUnmarked dropAll : Bool) (stats : EncryptedContentStats)
    (item : JsonValue) : EncryptedContentStats × JsonValue × Bool :=
  match item.asObject with
  | none => (stats, item, true)
  | some object =>
    if !isProviderPrivateItem object then (stats, item, true)
    else
      let (stripped, keep) := removePrivateTransport object
      let filtered := ({ stats with filtered := stats.filtered + 1 }, JsonValue.object stripped, keep)
      match (object.lookup "encrypted_content").bind JsonValue.asStr with
      | none => (stats, item, true)
      | some content =>
        if dropAll then filtered
        else
          match scope.decode content with
          | .matching decoded =>
            ({ stats with decoded := stats.decoded + 1 },
              .object (insertField "encrypted_content" (.string decoded) object), true)
          | .foreign => filtered
          | .unmarked =>
            if dropUnmarked then filtered
            else ({ stats with legacyPreserved := stats.legacyPreserved + 1 }, item, true)

def retainInputItem (scope : EncryptedContentScope) (dropUnmarked dropAll : Bool)
    (done : EncryptedContentStats × List JsonValue) (item : JsonValue) : EncryptedContentStats × List JsonValue :=
  match prepareInputItem scope dropUnmarked dropAll done.1 item with
  | (stats, item, true) => (stats, done.2 ++ [item])
  | (stats, _, false) => ({ stats with droppedItems := stats.droppedItems + 1 }, done.2)

def prepareInput (value : JsonValue) (scope : EncryptedContentScope) (dropUnmarked dropAll : Bool) :
    JsonValue × EncryptedContentStats :=
  match value.asObject with
  | none => (value, {})
  | some body =>
    match body.lookup "input" with
    | some (.array items) =>
      let (stats, kept) := items.foldl (retainInputItem scope dropUnmarked dropAll) ({}, [])
      if kept = [] then (.object (removeField "input" body), stats)
      else (.object (insertField "input" (.array kept) body), stats)
    | some (.object item) =>
      match prepareInputItem scope dropUnmarked dropAll {} (.object item) with
      | (stats, item, true) => (.object (insertField "input" item body), stats)
      | (stats, _, false) =>
        (.object (removeField "input" body), { stats with droppedItems := stats.droppedItems + 1 })
    | _ => (value, {})

def prepareResponsesRequest (value : JsonValue) (scope : EncryptedContentScope) : JsonValue × EncryptedContentStats :=
  prepareInput value scope false false

section

variable {content : String} {scope : EncryptedContentScope}

theorem stripStart_append (start rest : String) : stripStart (start ++ rest) start = some rest := by
  have hstart : start.toList <+: (start ++ rest).toList := by
    rw [String.toList_append]
    exact List.prefix_append _ _
  rw [stripStart, if_pos hstart, String.toList_append, List.drop_left, String.ofList_toList]

theorem stripStart_of_not {s start : String} (h : ¬ start.toList <+: s.toList) : stripStart s start = none :=
  if_neg h

theorem startsWithMarker_append (rest : String) : startsWithMarker (markerPrefix ++ rest) = true := by
  rw [startsWithMarker, stripStart_append]
  rfl

namespace EncryptedContentScope

/-- A scope that can be read back: its parts have no colon. -/
structure Readable (scope : EncryptedContentScope) : Prop where
  protocol : ':' ∉ scope.protocol.toList
  footprint : ':' ∉ scope.footprint.toList

theorem hexEncode_free {c : Char} (hc : c ∉ "0123456789abcdef".toList) (bytes : List UInt8) :
    c ∉ (hexEncode bytes).toList := by
  intro h
  rw [hexEncode, String.toList_ofList] at h
  obtain ⟨b, -, hb⟩ := List.mem_flatMap.mp h
  rcases List.mem_cons.mp hb with rfl | hb
  · exact hc (RustText.hexDigit_mem _)
  · rw [List.mem_singleton.mp hb] at hc
    exact hc (RustText.hexDigit_mem _)

theorem forProvider_readable (sha256 : List UInt8 → Vector UInt8 32) (provider : ProviderConfig) :
    (forProvider sha256 provider).Readable := by
  have hname : ∀ providerType : ProviderType, ':' ∉ providerType.protocol.toList := by
    intro providerType
    cases providerType with
    | openAiResponses | deepSeekResponses | grokResponses | chatCompletions | anthropicMessages => decide
  exact ⟨hname provider.providerType, hexEncode_free (by decide) _⟩

theorem encode_of_unmarked (h : startsWithMarker content = false) :
    scope.encode content = markerPrefix ++ (scope.protocol ++ ":" ++ (scope.footprint ++ ":" ++ content)) := by
  rw [encode, if_neg (by rw [h]; exact Bool.false_ne_true)]

theorem decode_marked (hs : scope.Readable) (other : EncryptedContentScope) (content : String) :
    other.decode (markerPrefix ++ (scope.protocol ++ ":" ++ (scope.footprint ++ ":" ++ content))) =
      if other = scope then .matching content else .foreign := by
  have hcolon : ":".toList = [':'] := rfl
  rw [decode, stripStart_append]
  dsimp only
  rw [RustText.splitOnce_append hcolon hs.protocol]
  dsimp only
  rw [RustText.splitOnce_append hcolon hs.footprint]
  dsimp only
  by_cases h : other = scope
  · rw [if_pos h, h, if_pos ⟨rfl, rfl⟩]
  · have hne : ¬ (scope.protocol = other.protocol ∧ scope.footprint = other.footprint) := by
      rintro ⟨hprotocol, hfootprint⟩
      exact h (by cases other; cases scope; simp_all)
    rw [if_neg h, if_neg hne]

theorem kind_not_marked (kind : AnthropicEncryptedContentKind) (content : String) :
    startsWithMarker (kind.marker ++ ":" ++ content) = false := by
  have hhead : ∀ c cs, kind.marker.toList = c :: cs → c ≠ 'c' := by
    cases kind with
    | thinking | redactedThinking =>
      intro c cs h
      rw [← (List.cons.inj h).1]
      decide
  have hnot : ¬ markerPrefix.toList <+: (kind.marker ++ ":" ++ content).toList := by
    rintro ⟨rest, hrest⟩
    cases hkind : kind.marker.toList with
    | nil => cases kind <;> exact absurd hkind (by decide)
    | cons c cs =>
      rw [String.toList_append, String.toList_append, hkind] at hrest
      exact hhead c cs hkind (List.cons.inj hrest).1.symm
  rw [startsWithMarker, stripStart_of_not hnot]
  rfl

theorem encodeAnthropic_of_unmarked (h : startsWithMarker content = false) (kind : AnthropicEncryptedContentKind) :
    scope.encodeAnthropic kind content =
      markerPrefix ++ (scope.protocol ++ ":" ++ (scope.footprint ++ ":" ++ (kind.marker ++ ":" ++ content))) := by
  rw [encodeAnthropic, if_neg (by rw [h]; exact Bool.false_ne_true), encode_of_unmarked (kind_not_marked kind content)]

theorem decodeAnthropic_encodeAnthropic (hs : scope.Readable) (hprotocol : scope.protocol = "anthropic")
    (h : startsWithMarker content = false) (kind : AnthropicEncryptedContentKind) :
    scope.decodeAnthropic (scope.encodeAnthropic kind content) = some (kind, content) := by
  have hmatching : scope.decodeMatching (scope.encodeAnthropic kind content) =
      some (kind.marker ++ ":" ++ content) := by
    rw [decodeMatching, encodeAnthropic_of_unmarked h, decode_marked hs, if_pos rfl]
  rw [decodeAnthropic, if_neg (not_not.mpr hprotocol), hmatching, Option.bind_some, String.append_assoc]
  cases kind with
  | thinking =>
    rw [AnthropicEncryptedContentKind.marker, stripStart_append, Option.bind_some, stripStart_append]
    rfl
  | redactedThinking =>
    have hnot : ¬ "thinking".toList <+: ("redacted_thinking" ++ (":" ++ content)).toList := by
      rintro ⟨rest, hrest⟩
      rw [String.toList_append] at hrest
      exact absurd (List.cons.inj hrest).1 (by decide)
    rw [AnthropicEncryptedContentKind.marker, stripStart_of_not hnot, stripStart_append, Option.bind_some,
      stripStart_append]
    rfl

theorem decode_encodeAnthropic_of_ne (hs : scope.Readable) (h : startsWithMarker content = false)
    (kind : AnthropicEncryptedContentKind) {other : EncryptedContentScope} (hne : other ≠ scope) :
    other.decode (scope.encodeAnthropic kind content) = .foreign := by
  rw [encodeAnthropic_of_unmarked h, decode_marked hs, if_neg hne]

theorem decodeAnthropic_of_ne (hs : scope.Readable) (h : startsWithMarker content = false)
    (kind : AnthropicEncryptedContentKind) {other : EncryptedContentScope} (hne : other ≠ scope) :
    other.decodeAnthropic (scope.encodeAnthropic kind content) = none := by
  have hnone : other.decodeMatching (scope.encodeAnthropic kind content) = none := by
    rw [decodeMatching, decode_encodeAnthropic_of_ne hs h kind hne]
  rw [decodeAnthropic, hnone]
  split
  next => rfl
  next => rfl

end EncryptedContentScope

end

end MochiPort

import MochiPort.AnthropicReassembly

/-! Messages that are put together again from their streams. -/

namespace MochiPort

open JsonEvents List Option
open AnthropicStreamState (blockIndex)

/-- The lines of an event, before the line that ends it. -/
structure SseFrame where
  lines : List (List Char)
  ending : List Char

namespace SseFrame

def text (frame : SseFrame) : List Char := (frame.lines ++ [frame.ending]).flatMap fun line => line ++ ['\n']

def dataTexts (lines : List (List Char)) : List String :=
  lines.filterMap fun line =>
    (stripStart (trimEndCr (String.ofList line)) "data:").map fun data => (stripStart data " ").getD data

structure Framed (frame : SseFrame) : Prop where
  oneLine : ∀ line ∈ frame.lines ++ [frame.ending], '\n' ∉ line
  written : ∀ line ∈ frame.lines, trimEndCr (String.ofList line) ≠ ""
  ended : trimEndCr (String.ofList frame.ending) = ""

structure Holds (codec : JsonCodec) (frame : SseFrame) (event : JsonValue) : Prop extends Framed frame where
  some_data : dataTexts frame.lines ≠ []
  not_done : RustText.trim ("\n".intercalate (dataTexts frame.lines)) ≠ "[DONE]"
  parsed : codec.parse ("\n".intercalate (dataTexts frame.lines)) = some event

/-- A frame of comments alone says no event, and neither does a further empty line. -/
def Says (codec : JsonCodec) (frame : SseFrame) : Option JsonValue → Prop
  | none => frame.Framed ∧ dataTexts frame.lines = []
  | some event => frame.Holds codec event

theorem Says.framed {codec : JsonCodec} {frame : SseFrame} {said : Option JsonValue} (h : frame.Says codec said) :
    frame.Framed := by
  cases said with
  | none => exact h.1
  | some event => exact h.toFramed

end SseFrame

def SseText (codec : JsonCodec) (raw : List Char) (events : List JsonValue) : Prop :=
  ∃ (frames : List SseFrame) (said : List (Option JsonValue)), raw = frames.flatMap SseFrame.text ∧
    List.Forall₂ (SseFrame.Says codec) frames said ∧ said.reduceOption = events

variable {codec : JsonCodec} {raw : List Char} {events : List JsonValue}

theorem cut_lines (lines : List (List Char)) (h : ∀ line ∈ lines, '\n' ∉ line) (rest : List Char) :
    ByteLines.cut '\n' ((lines.flatMap fun line => line ++ ['\n']) ++ rest) =
      (lines ++ (ByteLines.cut '\n' rest).1, (ByteLines.cut '\n' rest).2) := by
  induction lines with
  | nil => rfl
  | cons line lines ih =>
    have hrest := ih fun l hl => h l (mem_cons_of_mem _ hl)
    rw [flatMap_cons, append_assoc, append_assoc, singleton_append,
      ByteLines.cut_line (h line mem_cons_self), hrest]
    rfl

theorem readLine_data (codec : JsonCodec) (lines : List (List Char))
    (h : ∀ line ∈ lines, trimEndCr (String.ofList line) ≠ "") (r : JsonEvents) :
    (lines.map fun line => trimEndCr (String.ofList line)).foldl (readLine codec) r =
      ⟨r.dataLines ++ SseFrame.dataTexts lines, r.events⟩ := by
  induction lines generalizing r with
  | nil => rw [SseFrame.dataTexts, filterMap_nil, append_nil]; rfl
  | cons line lines ih =>
    have hline : r.readLine codec (trimEndCr (String.ofList line)) =
        ⟨r.dataLines ++ SseFrame.dataTexts [line], r.events⟩ := by
      rw [readLine, if_neg (h line mem_cons_self), SseFrame.dataTexts, filterMap_cons]
      cases stripStart (trimEndCr (String.ofList line)) "data:" with
      | none => rw [map_none, filterMap_nil, append_nil]
      | some data => rfl
    rw [map_cons, foldl_cons, hline, ih fun l hl => h l (mem_cons_of_mem _ hl), append_assoc]
    rw [SseFrame.dataTexts, SseFrame.dataTexts, SseFrame.dataTexts, ← filterMap_append, singleton_append]

theorem parseSseJsonEvents_of_text (h : SseText codec raw events) : parseSseJsonEvents codec raw = events := by
  obtain ⟨frames, said, rfl, hframes, rfl⟩ := h
  have hlines : ∀ frames : List SseFrame, (∀ f ∈ frames, ∀ line ∈ f.lines ++ [f.ending], '\n' ∉ line) →
      ByteLines.cut '\n' (frames.flatMap SseFrame.text) = (frames.flatMap fun f => f.lines ++ [f.ending], []) := by
    intro frames hframes
    induction frames with
    | nil => rfl
    | cons f frames ih =>
      have hrest := ih fun g hg => hframes g (mem_cons_of_mem _ hg)
      rw [flatMap_cons, SseFrame.text, cut_lines _ (hframes f mem_cons_self), hrest, flatMap_cons]
  have hone : ∀ f ∈ frames, ∀ line ∈ f.lines ++ [f.ending], '\n' ∉ line := by
    intro f hf
    obtain ⟨i, hi, rfl⟩ := mem_iff_getElem.mp hf
    exact ((forall₂_iff_get.mp hframes).2 i hi (by rw [← hframes.length_eq]; exact hi)).framed.oneLine
  have hfold : ∀ done : List JsonValue,
      ((frames.flatMap fun f => f.lines ++ [f.ending]).map fun line => trimEndCr (String.ofList line)).foldl
        (readLine codec) ⟨[], done⟩ = ⟨[], done ++ said.reduceOption⟩ := by
    clear hone hlines
    induction hframes with
    | nil => intro done; exact congrArg _ (append_nil done).symm
    | @cons f event frames said hf rest ih =>
      intro done
      have hend : (mk (SseFrame.dataTexts f.lines) done).readLine codec
          (trimEndCr (String.ofList f.ending)) = ⟨[], done ++ event.toList⟩ := by
        rw [hf.framed.ended, readLine, if_pos rfl, flush]
        cases event with
        | none => rw [if_pos hf.2, hf.2, toList_none, append_nil]
        | some event =>
          rw [if_neg hf.some_data]
          dsimp only
          rw [if_neg hf.not_done, hf.parsed]
      rw [flatMap_cons, map_append, foldl_append, map_append, foldl_append,
        readLine_data codec f.lines hf.framed.written, map_cons, map_nil, foldl_cons, foldl_nil]
      rw [nil_append, hend, ih, append_assoc]
      cases event <;> rfl
  unfold parseSseJsonEvents rawLines
  dsimp only
  rw [hlines frames hone]
  rw [if_pos rfl, hfold]
  rfl

theorem trimEndCr_of_not_mem {s : String} (h : '\r' ∉ s.toList) : trimEndCr s = s := by
  have hkeep : s.toList.reverse.dropWhile (· = '\r') = s.toList.reverse := by
    cases hlist : s.toList.reverse with
    | nil => rfl
    | cons c cs =>
      have hc : c ∈ s.toList := mem_reverse.mp (by rw [hlist]; exact mem_cons_self)
      have hne : c ≠ '\r' := fun heq => h (heq ▸ hc)
      rw [dropWhile_cons, if_neg (by simpa using hne)]
  rw [trimEndCr, hkeep, reverse_reverse, String.ofList_toList]

def SseFrame.data (text : String) : SseFrame := ⟨[("data: " ++ text).toList], []⟩

variable {text : String}

theorem SseFrame.holds_data {event : JsonValue} (hline : '\n' ∉ text.toList) (hreturn : '\r' ∉ text.toList)
    (hdone : RustText.trim text ≠ "[DONE]") (hparse : codec.parse text = some event) :
    SseFrame.Holds codec (.data text) event := by
  have htoList : ("data: " ++ text).toList = "data: ".toList ++ text.toList := String.toList_append
  have hkept : trimEndCr ("data: " ++ text) = "data: " ++ text := by
    refine trimEndCr_of_not_mem ?_
    rw [htoList]
    exact fun hmem => (mem_append.mp hmem).elim (fun h => absurd h (by decide)) hreturn
  have hdata : SseFrame.dataTexts [("data: " ++ text).toList] = [text] := by
    have hsplit : "data: " ++ text = "data:" ++ (" " ++ text) := by
      rfl
    rw [SseFrame.dataTexts, filterMap_cons, String.ofList_toList, hkept, hsplit, stripStart_append,
      map_some, stripStart_append]
    rfl
  have hjoin : "\n".intercalate [text] = text := by
    rw [← String.toList_inj, String.toList_intercalate]
    exact flatten_singleton
  refine ⟨⟨?_, ?_, rfl⟩, ?_, ?_, ?_⟩
  · intro line hmem
    rcases mem_append.mp hmem with hmem | hmem
    · rw [mem_singleton.mp hmem, htoList]
      exact fun h => (mem_append.mp h).elim (fun h => absurd h (by decide)) hline
    · rw [mem_singleton.mp hmem]
      exact not_mem_nil
  · intro line hmem
    rw [mem_singleton.mp hmem, String.ofList_toList, hkept]
    intro hempty
    exact absurd (congrArg String.toList hempty) (by rw [htoList]; exact cons_ne_nil _ _)
  · rw [SseFrame.data, hdata]
    exact cons_ne_nil _ _
  · rw [SseFrame.data, hdata, hjoin]
    exact hdone
  · rw [SseFrame.data, hdata, hjoin]
    exact hparse

/-- A content block as it is streamed: what it starts with, and the deltas that follow. -/
structure BlockStream where
  start : List (String × JsonValue)
  deltas : List JsonValue

def deltaPieces (deltaType member : String) (deltas : List JsonValue) : List String :=
  deltas.filterMap fun delta => if stringMember delta "type" = some deltaType then stringMember delta member else none

def deltaCitations (deltas : List JsonValue) : List JsonValue :=
  deltas.filterMap fun delta =>
    if stringMember delta "type" = some "citations_delta" then delta.get "citation" else none

def inputPieces (deltas : List JsonValue) : List String :=
  deltas.filterMap fun delta =>
    if stringMember delta "type" = some "input_json_delta" then some ((stringMember delta "partial_json").getD "")
    else none

def joinPieces (pieces : List String) : String := pieces.foldr (· ++ ·) ""

inductive Streams (codec : JsonCodec) (b : BlockStream) (block : List (String × JsonValue)) : Prop
  | text {text : String} (htype : b.start.lookup "type" = some (.string "text"))
      (hdeltas : ∀ d ∈ b.deltas,
        stringMember d "type" = some "text_delta" ∨ stringMember d "type" = some "citations_delta")
      (hstart : b.start.lookup "text" = some (.string text))
      (htext : block.lookup "text" =
        some (.string (text ++ joinPieces (deltaPieces "text_delta" "text" b.deltas))))
      (hcitations : block.lookup "citations" =
        if deltaCitations b.deltas = [] then b.start.lookup "citations"
        else some (.array ((((b.start.lookup "citations").bind JsonValue.asArray).getD []) ++
          deltaCitations b.deltas)))
      (hrest : ∀ key, key ≠ "text" → key ≠ "citations" → block.lookup key = b.start.lookup key)
  | thinking {text : String} (htype : b.start.lookup "type" = some (.string "thinking"))
      (hdeltas : ∀ d ∈ b.deltas,
        stringMember d "type" = some "thinking_delta" ∨ stringMember d "type" = some "signature_delta")
      (hstart : b.start.lookup "thinking" = some (.string text))
      (htext : block.lookup "thinking" =
        some (.string (text ++ joinPieces (deltaPieces "thinking_delta" "thinking" b.deltas))))
      (hsignature : block.lookup "signature" =
        ((deltaPieces "signature_delta" "signature" b.deltas).getLast?.map .string).or
          (b.start.lookup "signature"))
      (hrest : ∀ key, key ≠ "thinking" → key ≠ "signature" → block.lookup key = b.start.lookup key)
  | input (htype : b.start.lookup "type" = some (.string "tool_use") ∨
        b.start.lookup "type" = some (.string "server_tool_use"))
      (hdeltas : ∀ d ∈ b.deltas, stringMember d "type" = some "input_json_delta")
      (hfresh : b.start.lookup partialInputField = none)
      (hinput : if joinPieces (inputPieces b.deltas) = "" then block.lookup "input" = b.start.lookup "input"
        else ∃ input, codec.parse (joinPieces (inputPieces b.deltas)) = some (.object input) ∧
          block.lookup "input" = some (.object input))
      (hrest : ∀ key, key ≠ "input" → block.lookup key = b.start.lookup key)
  | whole (hdeltas : b.deltas = []) (hrest : ∀ key, block.lookup key = b.start.lookup key)

def BlockStream.result (codec : JsonCodec) (b : BlockStream) : JsonValue :=
  b.deltas.foldl (applyContentDelta codec) (.object b.start)

def isTold (event : JsonValue) : Bool :=
  ["message_start", "content_block_start", "content_block_delta", "message_delta"].any fun t =>
    stringMember event "type" = some t

structure StartsBlockAt (i : Nat) (start : List (String × JsonValue)) (event : JsonValue) : Prop where
  type_eq : stringMember event "type" = some "content_block_start"
  index_eq : blockIndex event = i
  block_eq : event.get "content_block" = some (.object start)

structure BringsDeltaAt (i : Nat) (delta event : JsonValue) : Prop where
  type_eq : stringMember event "type" = some "content_block_delta"
  index_eq : blockIndex event = i
  delta_eq : event.get "delta" = some delta

inductive BlockEvents : Nat → List BlockStream → List JsonValue → Prop
  | nil {i : Nat} : BlockEvents i [] []
  | cons {i : Nat} {b : BlockStream} {bs : List BlockStream} {start : JsonValue} {deltas events : List JsonValue}
      (hstart : StartsBlockAt i b.start start) (hdeltas : List.Forall₂ (BringsDeltaAt i) b.deltas deltas)
      (rest : BlockEvents (i + 1) bs events) : BlockEvents i (b :: bs) (start :: (deltas ++ events))

theorem modify_concat {α : Type} (done : List α) (a : α) (f : α → α) :
    (done ++ [a]).modify done.length f = done ++ [f a] := by
  induction done with
  | nil => rfl
  | cons b done ih => rw [cons_append, length_cons, modify_succ_cons, ih, cons_append]

namespace MessageParts

variable {parts : MessageParts}

theorem readEvent_start {event : JsonValue} {start : List (String × JsonValue)}
    (h : StartsBlockAt parts.content.length start event) :
    parts.readEvent codec event = { parts with content := parts.content ++ [.object start] } := by
  have hcontent : (ensureContentIndex parts.content (blockIndex event)).set (blockIndex event) (.object start) =
      parts.content ++ [.object start] := by
    rw [h.index_eq, ensureContentIndex, Nat.add_sub_cancel_left]
    simp
  simp only [readEvent, h.type_eq, h.block_eq, hcontent]

theorem readEvent_delta {event delta block : JsonValue} {done : List JsonValue}
    (h : BringsDeltaAt done.length delta event) (hcontent : parts.content = done ++ [block]) :
    parts.readEvent codec event = { parts with content := done ++ [applyContentDelta codec block delta] } := by
  have hensure : ensureContentIndex parts.content (blockIndex event) = parts.content := by
    rw [ensureContentIndex, h.index_eq, hcontent, length_append, length_singleton, Nat.sub_self]
    exact append_nil _
  simp only [readEvent, h.type_eq, hensure, h.delta_eq]
  rw [h.index_eq, hcontent, modify_concat]

theorem readEvent_deltas {deltas : List JsonValue} {events : List JsonValue} {done : List JsonValue}
    (h : List.Forall₂ (BringsDeltaAt done.length) deltas events) {block : JsonValue}
    (hcontent : parts.content = done ++ [block]) :
    events.foldl (readEvent codec) parts =
      { parts with content := done ++ [deltas.foldl (applyContentDelta codec) block] } := by
  induction h generalizing parts block with
  | nil =>
    rw [foldl_nil, foldl_nil, ← hcontent]
  | cons hdelta rest ih =>
    rw [foldl_cons, readEvent_delta hdelta hcontent, ih rfl]
    rfl

theorem readEvent_blocks {i : Nat} {bs : List BlockStream} {events : List JsonValue} (h : BlockEvents i bs events)
    (hi : parts.content.length = i) :
    events.foldl (readEvent codec) parts =
      { parts with content := parts.content ++ bs.map (BlockStream.result codec) } := by
  induction h generalizing parts with
  | nil => rw [map_nil, append_nil]; rfl
  | @cons i b bs start deltas events hstart hdeltas rest ih =>
    subst hi
    have hnext : deltas.foldl (readEvent codec) { parts with content := parts.content ++ [.object b.start] } =
        { parts with content := parts.content ++ [b.deltas.foldl (applyContentDelta codec) (.object b.start)] } :=
      readEvent_deltas hdeltas rfl
    rw [foldl_cons, foldl_append, readEvent_start hstart, hnext, ih (by simp)]
    simp [BlockStream.result]

end MessageParts

theorem joinPieces_cons (piece : String) (pieces : List String) :
    joinPieces (piece :: pieces) = piece ++ joinPieces pieces := rfl

variable {d : JsonValue}

theorem inputPieces_cons (h : stringMember d "type" = some "input_json_delta") (deltas : List JsonValue) :
    inputPieces (d :: deltas) = (stringMember d "partial_json").getD "" :: inputPieces deltas := by
  rw [inputPieces, filterMap_cons, if_pos h]
  rfl

/-- An object with the text in a field, and the rest as in another one. -/
structure WithText (field text : String) (fields : List (String × JsonValue)) (block : JsonValue) : Prop where
  object : ∃ left, block = .object left
  text_eq : block.get field = some (.string text)
  rest_eq : ∀ key, key ≠ field → block.get key = fields.lookup key

variable {field text : String} {fields : List (String × JsonValue)} {block : JsonValue} {deltas : List JsonValue}

theorem WithText.append (h : WithText field text fields block) (value : String) :
    WithText field (text ++ value) fields (appendStringField block field value) := by
  unfold appendStringField
  by_cases hempty : value = ""
  · rw [if_pos hempty, hempty, String.append_empty]
    exact h
  · obtain ⟨left, rfl⟩ := h.object
    have htext : left.lookup field = some (.string text) := h.text_eq
    rw [if_neg hempty]
    dsimp only
    rw [htext, getD_some]
    refine ⟨⟨_, rfl⟩, lookup_insertField_self _, fun key hkey => ?_⟩
    exact (lookup_insertField_of_ne _ hkey).trans (h.rest_eq key hkey)

theorem WithText.foldl {deltaType other member : String} (hne : deltaType ≠ other)
    (hadds : ∀ block d, stringMember d "type" = some deltaType →
      applyContentDelta codec block d = appendStringField block field ((stringMember d member).getD ""))
    (hkeeps : ∀ block d, stringMember d "type" = some other → applyContentDelta codec block d = block)
    (hdeltas : ∀ d ∈ deltas, stringMember d "type" = some deltaType ∨ stringMember d "type" = some other)
    (h : WithText field text fields block) :
    WithText field (text ++ joinPieces (deltaPieces deltaType member deltas)) fields
      (deltas.foldl (applyContentDelta codec) block) := by
  induction deltas generalizing text block with
  | nil =>
    rw [deltaPieces, filterMap_nil, joinPieces, foldr_nil, String.append_empty]
    exact h
  | cons d deltas ih =>
    have hrest : ∀ e ∈ deltas, stringMember e "type" = some deltaType ∨ stringMember e "type" = some other :=
      fun e he => hdeltas e (mem_cons_of_mem _ he)
    rw [foldl_cons]
    rcases hdeltas d mem_cons_self with htype | htype
    · rw [hadds block d htype]
      have hnext := ih hrest (h.append ((stringMember d member).getD ""))
      cases hmember : stringMember d member with
      | none =>
        rw [hmember, getD_none, String.append_empty] at hnext
        rw [deltaPieces, filterMap_cons, if_pos htype, hmember]
        exact hnext
      | some piece =>
        rw [hmember, getD_some, String.append_assoc, ← joinPieces_cons] at hnext
        rw [deltaPieces, filterMap_cons, if_pos htype, hmember]
        exact hnext
    · rw [hkeeps block d htype, deltaPieces, filterMap_cons,
        if_neg (by rw [htype]; exact fun heq => hne (Option.some.inj heq).symm)]
      exact ih hrest h

section

variable (codec) (block)

theorem applyContentDelta_text (h : stringMember d "type" = some "text_delta") :
    applyContentDelta codec block d = appendStringField block "text" ((stringMember d "text").getD "") := by
  simp only [applyContentDelta, h]

theorem applyContentDelta_thinking (h : stringMember d "type" = some "thinking_delta") :
    applyContentDelta codec block d = appendStringField block "thinking" ((stringMember d "thinking").getD "") := by
  simp only [applyContentDelta, h]

theorem applyContentDelta_other (h : stringMember d "type" = some "signature_delta" ∨ stringMember d "type" = some "citations_delta") :
    applyContentDelta codec block d = block := by
  have hne : ∀ t : String, t ≠ "signature_delta" → t ≠ "citations_delta" → stringMember d "type" ≠ some t := by
    intro t hsignature hcitations htype
    rw [htype] at h
    rcases h with h | h
    · exact hsignature (Option.some.inj h)
    · exact hcitations (Option.some.inj h)
  unfold applyContentDelta
  split
  next htype => exact absurd htype (hne _ (by decide) (by decide))
  next htype => exact absurd htype (hne _ (by decide) (by decide))
  next htype => exact absurd htype (hne _ (by decide) (by decide))
  next => rfl

end

/-- JSON texts of objects: no beginning of one is a JSON text, but for white space behind it, which is none. -/
def ObjectTexts (codec : JsonCodec) : Prop :=
  ∀ before after object, codec.parse (before ++ after) = some (.object object) →
    codec.parse before = none ∨
      codec.parse before = some (.object object) ∧
        ∀ a piece b, after = a ++ (piece ++ b) → piece ≠ "" → codec.parse piece = none

/-- What has come of a block while its input is read: the text that is not yet an input, and the input. -/
structure Reading (fields : List (String × JsonValue)) (waiting : String) (input : Option JsonValue)
    (block : JsonValue) : Prop where
  object : ∃ left, block = .object left
  waiting_eq : block.get partialInputField = if waiting = "" then none else some (.string waiting)
  input_eq : block.get "input" = input
  rest_eq : ∀ key, key ≠ partialInputField → key ≠ "input" → block.get key = fields.lookup key

variable {waiting : String} {input : Option JsonValue}

theorem Reading.append (h : Reading fields waiting input block) (value : String) :
    Reading fields (waiting ++ value) input (appendStringField block partialInputField value) := by
  unfold appendStringField
  by_cases hempty : value = ""
  · rw [if_pos hempty, hempty, String.append_empty]
    exact h
  · obtain ⟨left, rfl⟩ := h.object
    have hwaiting : (left.lookup partialInputField).getD (.string "") = .string waiting := by
      have heq : left.lookup partialInputField = if waiting = "" then none else some (.string waiting) := h.waiting_eq
      rw [heq]
      by_cases hw : waiting = ""
      · rw [if_pos hw, hw]
        rfl
      · rw [if_neg hw]
        rfl
    have hne : waiting ++ value ≠ "" := by
      intro happend
      have hlist := congrArg String.toList happend
      rw [String.toList_append] at hlist
      exact hempty (String.toList_inj.mp (append_eq_nil_iff.mp hlist).2)
    rw [if_neg hempty]
    dsimp only
    rw [hwaiting]
    refine ⟨⟨_, rfl⟩, ?_, ?_, ?_⟩
    · rw [if_neg hne]
      exact lookup_insertField_self _
    · exact (lookup_insertField_of_ne _ (by decide)).trans h.input_eq
    · intro key hkey hinput
      exact (lookup_insertField_of_ne _ hkey).trans (h.rest_eq key hkey hinput)

variable (codec) in
theorem Reading.step (h : Reading fields waiting input block)
    (htype : stringMember d "type" = some "input_json_delta") :
    Reading fields
      (if waiting ++ (stringMember d "partial_json").getD "" ≠ "" ∧
          (codec.parse (waiting ++ (stringMember d "partial_json").getD "")).isSome then ""
        else waiting ++ (stringMember d "partial_json").getD "")
      (if waiting ++ (stringMember d "partial_json").getD "" ≠ "" then
          (codec.parse (waiting ++ (stringMember d "partial_json").getD "")).or input else input)
      (applyContentDelta codec block d) := by
  have happend := h.append ((stringMember d "partial_json").getD "")
  simp only [applyContentDelta, htype]
  generalize (stringMember d "partial_json").getD "" = piece at happend ⊢
  generalize appendStringField block partialInputField piece = grown at happend ⊢
  by_cases hempty : waiting ++ piece = ""
  · have hnone : stringMember grown partialInputField = none := by
      rw [stringMember, happend.waiting_eq, if_pos hempty]
      rfl
    rw [if_neg (by simp [hempty]), if_neg (by simp [hempty]), hnone]
    exact happend
  · have hsome : stringMember grown partialInputField = some (waiting ++ piece) := by
      rw [stringMember, happend.waiting_eq, if_neg hempty]
      rfl
    rw [hsome, bind_some]
    obtain ⟨left, rfl⟩ := happend.object
    cases hparse : codec.parse (waiting ++ piece) with
    | none =>
      rw [if_neg (by simp), if_pos hempty]
      exact happend
    | some value =>
      rw [if_pos ⟨hempty, rfl⟩, if_pos hempty]
      refine ⟨⟨_, rfl⟩, ?_, ?_, ?_⟩
      · rw [if_pos rfl]
        exact lookup_removeField_self
      · exact (lookup_removeField_of_ne (by decide)).trans (lookup_insertField_self _)
      · intro key hkey hinput
        exact ((lookup_removeField_of_ne hkey).trans (lookup_insertField_of_ne _ hinput)).trans
          (happend.rest_eq key hkey hinput)

/-- Once the text is a JSON text, nothing more comes. -/
def settles (codec : JsonCodec) : String → List String → Bool
  | _, [] => true
  | read, piece :: pieces =>
    if read ++ piece ≠ "" ∧ (codec.parse (read ++ piece)).isSome then joinPieces pieces = ""
    else settles codec (read ++ piece) pieces

variable {object : List (String × JsonValue)}

theorem Reading.foldl_settled (hdeltas : ∀ d ∈ deltas, stringMember d "type" = some "input_json_delta")
    (hnone : ∀ piece b, waiting ++ joinPieces (inputPieces deltas) = piece ++ b → piece ≠ "" →
      codec.parse piece = none) (h : Reading fields waiting (some (.object object)) block) :
    Reading fields (waiting ++ joinPieces (inputPieces deltas)) (some (.object object))
      (deltas.foldl (applyContentDelta codec) block) := by
  induction deltas generalizing waiting block with
  | nil =>
    rw [inputPieces, filterMap_nil, joinPieces, foldr_nil, String.append_empty]
    exact h
  | cons d deltas ih =>
    have hstep := h.step codec (hdeltas d mem_cons_self)
    rw [inputPieces_cons (hdeltas d mem_cons_self), joinPieces_cons, ← String.append_assoc] at hnone ⊢
    generalize (stringMember d "partial_json").getD "" = piece at hstep hnone ⊢
    have hparse : waiting ++ piece ≠ "" → codec.parse (waiting ++ piece) = none := hnone _ _ rfl
    have hnext : Reading fields (waiting ++ piece) (some (.object object)) (applyContentDelta codec block d) := by
      by_cases hempty : waiting ++ piece = ""
      · rwa [if_neg (by simp [hempty]), if_neg (by simp [hempty])] at hstep
      · rwa [if_neg (by simp [hparse hempty]), if_pos hempty, hparse hempty, none_or] at hstep
    exact ih (fun e he => hdeltas e (mem_cons_of_mem _ he)) hnone hnext

theorem Reading.foldl (hcodec : ObjectTexts codec) (hdeltas : ∀ d ∈ deltas, stringMember d "type" = some "input_json_delta")
    (hwaiting : waiting = "" ∨ codec.parse waiting = none) (hne : waiting ++ joinPieces (inputPieces deltas) ≠ "")
    (hparse : codec.parse (waiting ++ joinPieces (inputPieces deltas)) = some (.object object))
    (h : Reading fields waiting input block) :
    ∃ left, Reading fields left (some (.object object)) (deltas.foldl (applyContentDelta codec) block) ∧
      (left = "" ↔ settles codec waiting (inputPieces deltas) = true) := by
  induction deltas generalizing waiting block with
  | nil =>
    rw [inputPieces, filterMap_nil, joinPieces, foldr_nil, String.append_empty] at hne hparse
    rcases hwaiting with hempty | hnone
    · exact absurd hempty hne
    · rw [hnone] at hparse
      cases hparse
  | cons d deltas ih =>
    have hstep := h.step codec (hdeltas d mem_cons_self)
    have hrest : ∀ e ∈ deltas, stringMember e "type" = some "input_json_delta" :=
      fun e he => hdeltas e (mem_cons_of_mem _ he)
    rw [inputPieces_cons (hdeltas d mem_cons_self), joinPieces_cons, ← String.append_assoc] at hne hparse
    rw [inputPieces_cons (hdeltas d mem_cons_self), settles]
    generalize (stringMember d "partial_json").getD "" = piece at hstep hne hparse ⊢
    by_cases hdone : waiting ++ piece ≠ "" ∧ (codec.parse (waiting ++ piece)).isSome
    · rcases hcodec _ _ _ hparse with hnone | ⟨hsome, hbehind⟩
      · rw [hnone] at hdone
        exact absurd hdone.2 Bool.false_ne_true
      · rw [if_pos hdone, if_pos hdone.1, hsome, some_or] at hstep
        have hlast := hstep.foldl_settled hrest fun p b heq hp => hbehind "" p b
          (by rw [String.empty_append] at heq ⊢; exact heq) hp
        refine ⟨_, hlast, ?_⟩
        rw [if_pos hdone]
        exact decide_eq_true_iff.symm
    · rw [if_neg hdone] at hstep ⊢
      have hnone : waiting ++ piece = "" ∨ codec.parse (waiting ++ piece) = none := by
        by_cases hempty : waiting ++ piece = ""
        · exact .inl hempty
        · refine .inr (isNone_iff_eq_none.mp (isSome_eq_false_iff.mp ?_))
          exact Bool.eq_false_iff.mpr fun hsome => hdone ⟨hempty, hsome⟩
      have hinput : (if waiting ++ piece ≠ "" then (codec.parse (waiting ++ piece)).or input else input) = input := by
        rcases hnone with hempty | hnone
        · rw [if_neg (by simp [hempty])]
        · rw [hnone, none_or, ite_self]
      rw [hinput] at hstep
      exact ih hrest hnone hne hparse hstep

theorem append_eq_empty {s t : String} (h : s ++ t = "") : s = "" ∧ t = "" := by
  have hlist := congrArg String.toList h
  rw [String.toList_append] at hlist
  obtain ⟨hs, ht⟩ := append_eq_nil_iff.mp hlist
  exact ⟨String.toList_inj.mp hs, String.toList_inj.mp ht⟩

variable (codec) in
theorem Reading.foldl_empty (hdeltas : ∀ d ∈ deltas, stringMember d "type" = some "input_json_delta")
    (hempty : joinPieces (inputPieces deltas) = "") (h : Reading fields "" input block) :
    Reading fields "" input (deltas.foldl (applyContentDelta codec) block) ∧
      settles codec "" (inputPieces deltas) = true := by
  induction deltas generalizing block with
  | nil => exact ⟨h, rfl⟩
  | cons d deltas ih =>
    have hstep := h.step codec (hdeltas d mem_cons_self)
    rw [inputPieces_cons (hdeltas d mem_cons_self), joinPieces_cons] at hempty
    obtain ⟨hpiece, hrest⟩ := append_eq_empty hempty
    rw [hpiece, String.append_empty, if_neg (by simp), if_neg (by simp)] at hstep
    obtain ⟨hread, hsettles⟩ := ih (fun e he => hdeltas e (mem_cons_of_mem _ he)) hrest hstep
    refine ⟨hread, ?_⟩
    rw [inputPieces_cons (hdeltas d mem_cons_self), settles, hpiece, String.append_empty, if_neg (by simp)]
    exact hsettles

def listedMembers : List String := ["type", "text", "thinking", "signature", "data", "id", "name", "input"]

def SameListed (block : List (String × JsonValue)) (result : JsonValue) : Prop :=
  ∀ key ∈ listedMembers, result.get key = block.lookup key

def SameExactly (block : List (String × JsonValue)) (result : JsonValue) : Prop :=
  ∀ key, result.get key = block.lookup key

namespace BlockStream

/-- No delta brings a signature that the block did not start with. -/
def signatureKept (b : BlockStream) : Bool :=
  (deltaPieces "signature_delta" "signature" b.deltas).getLast?.all fun signature =>
    b.start.lookup "signature" = some (.string signature)

/-- No delta brings a citation, and none comes behind the text of an input. -/
def exactlyKept (codec : JsonCodec) (b : BlockStream) : Bool :=
  b.signatureKept && deltaCitations b.deltas = [] && settles codec "" (inputPieces b.deltas)

end BlockStream

theorem deltaPieces_eq_nil {deltaType member : String}
    (h : ∀ d ∈ deltas, stringMember d "type" ≠ some deltaType) : deltaPieces deltaType member deltas = [] := by
  refine filterMap_eq_nil_iff.mpr fun d hd => ?_
  rw [if_neg (h d hd)]

theorem inputPieces_eq_nil (h : ∀ d ∈ deltas, stringMember d "type" ≠ some "input_json_delta") :
    inputPieces deltas = [] := by
  refine filterMap_eq_nil_iff.mpr fun d hd => ?_
  rw [if_neg (h d hd)]

theorem deltaCitations_eq_nil (h : ∀ d ∈ deltas, stringMember d "type" ≠ some "citations_delta") :
    deltaCitations deltas = [] := by
  refine filterMap_eq_nil_iff.mpr fun d hd => ?_
  rw [if_neg (h d hd)]

theorem ne_of_types {s t u : String} (h : stringMember d "type" = some s ∨ stringMember d "type" = some t)
    (hs : s ≠ u) (ht : t ≠ u) : stringMember d "type" ≠ some u := by
  intro hu
  rw [hu] at h
  rcases h with h | h
  · exact hs (Option.some.inj h).symm
  · exact ht (Option.some.inj h).symm

variable {b : BlockStream} {whole : List (String × JsonValue)}

theorem same_text (hdeltas : ∀ d ∈ b.deltas,
      stringMember d "type" = some "text_delta" ∨ stringMember d "type" = some "citations_delta")
    (hstart : b.start.lookup "text" = some (.string text))
    (htext : whole.lookup "text" = some (.string (text ++ joinPieces (deltaPieces "text_delta" "text" b.deltas))))
    (hcitations : whole.lookup "citations" =
      if deltaCitations b.deltas = [] then b.start.lookup "citations"
      else some (.array ((((b.start.lookup "citations").bind JsonValue.asArray).getD []) ++ deltaCitations b.deltas)))
    (hrest : ∀ key, key ≠ "text" → key ≠ "citations" → whole.lookup key = b.start.lookup key) :
    (SameListed whole (b.result codec) ↔ b.signatureKept = true) ∧
      (SameExactly whole (b.result codec) ↔ b.exactlyKept codec = true) := by
  have hbegin : WithText "text" text b.start (.object b.start) := ⟨⟨_, rfl⟩, hstart, fun _ _ => rfl⟩
  have hapart : "text_delta" ≠ "citations_delta" := by decide
  have hresult := hbegin.foldl hapart
    (fun block d h => applyContentDelta_text codec block h)
    (fun block d h => applyContentDelta_other codec block (.inr h)) hdeltas
  change WithText _ _ _ (b.result codec) at hresult
  have hsignature : b.signatureKept = true := by
    rw [BlockStream.signatureKept,
      deltaPieces_eq_nil fun d hd => ne_of_types (hdeltas d hd) (by decide) (by decide)]
    rfl
  have hsettles : settles codec "" (inputPieces b.deltas) = true := by
    rw [inputPieces_eq_nil fun d hd => ne_of_types (hdeltas d hd) (by decide) (by decide)]
    rfl
  have hsame : ∀ key, key ≠ "citations" → (b.result codec).get key = whole.lookup key := by
    intro key hkey
    by_cases hfield : key = "text"
    · rw [hfield, hresult.text_eq, htext]
    · rw [hresult.rest_eq key hfield, hrest key hfield hkey]
  have hresultCitations : (b.result codec).get "citations" = b.start.lookup "citations" :=
    hresult.rest_eq "citations" (by decide)
  refine ⟨⟨fun _ => hsignature, fun _ key hkey => hsame key fun hne => ?_⟩, ?_⟩
  · rw [hne] at hkey
    exact absurd hkey (by decide)
  · rw [BlockStream.exactlyKept, hsignature, hsettles, Bool.true_and, Bool.and_true, decide_eq_true_iff]
    constructor
    · intro hexactly
      by_contra hne
      have hlist := hresultCitations.symm.trans ((hexactly "citations").trans (hcitations.trans (if_neg hne)))
      generalize hold : ((b.start.lookup "citations").bind JsonValue.asArray).getD [] = old at hlist
      have hboth : old ++ deltaCitations b.deltas = old := by
        rw [hlist] at hold
        exact hold
      exact hne (append_right_eq_self.mp hboth)
    · intro hnil key
      by_cases hkey : key = "citations"
      · rw [hkey, hresultCitations, hcitations, if_pos hnil]
      · exact hsame key hkey

theorem same_thinking (hdeltas : ∀ d ∈ b.deltas,
      stringMember d "type" = some "thinking_delta" ∨ stringMember d "type" = some "signature_delta")
    (hstart : b.start.lookup "thinking" = some (.string text)) (htext : whole.lookup "thinking" =
      some (.string (text ++ joinPieces (deltaPieces "thinking_delta" "thinking" b.deltas))))
    (hsignature : whole.lookup "signature" =
      ((deltaPieces "signature_delta" "signature" b.deltas).getLast?.map .string).or (b.start.lookup "signature"))
    (hrest : ∀ key, key ≠ "thinking" → key ≠ "signature" → whole.lookup key = b.start.lookup key) :
    (SameListed whole (b.result codec) ↔ b.signatureKept = true) ∧
      (SameExactly whole (b.result codec) ↔ b.exactlyKept codec = true) := by
  have hbegin : WithText "thinking" text b.start (.object b.start) := ⟨⟨_, rfl⟩, hstart, fun _ _ => rfl⟩
  have hapart : "thinking_delta" ≠ "signature_delta" := by decide
  have hresult := hbegin.foldl hapart
    (fun block d h => applyContentDelta_thinking codec block h)
    (fun block d h => applyContentDelta_other codec block (.inl h)) hdeltas
  change WithText _ _ _ (b.result codec) at hresult
  have hcitations : deltaCitations b.deltas = [] :=
    deltaCitations_eq_nil fun d hd => ne_of_types (hdeltas d hd) (by decide) (by decide)
  have hsettles : settles codec "" (inputPieces b.deltas) = true := by
    rw [inputPieces_eq_nil fun d hd => ne_of_types (hdeltas d hd) (by decide) (by decide)]
    rfl
  have hexactlyKept : b.exactlyKept codec = b.signatureKept := by
    rw [BlockStream.exactlyKept, hcitations, hsettles, Bool.and_true, decide_eq_true rfl, Bool.and_true]
  have hkept : (b.result codec).get "signature" = whole.lookup "signature" ↔ b.signatureKept = true := by
    rw [hresult.rest_eq "signature" (by decide), hsignature, BlockStream.signatureKept]
    cases (deltaPieces "signature_delta" "signature" b.deltas).getLast? with
    | none => exact iff_of_true rfl rfl
    | some signature =>
      rw [map_some, some_or, all_some, decide_eq_true_iff]
  have hsame : ∀ key, key ≠ "signature" → (b.result codec).get key = whole.lookup key := by
    intro key hkey
    by_cases hfield : key = "thinking"
    · rw [hfield, hresult.text_eq, htext]
    · rw [hresult.rest_eq key hfield, hrest key hfield hkey]
  have hall : b.signatureKept = true → SameExactly whole (b.result codec) := by
    intro hk key
    by_cases hkey : key = "signature"
    · rw [hkey]
      exact hkept.mpr hk
    · exact hsame key hkey
  rw [hexactlyKept]
  exact ⟨⟨fun h => hkept.mp (h "signature" (by decide)), fun hk key _ => hall hk key⟩,
    ⟨fun h => hkept.mp (h "signature"), hall⟩⟩

theorem same_input (hcodec : ObjectTexts codec)
    (hdeltas : ∀ d ∈ b.deltas, stringMember d "type" = some "input_json_delta")
    (hfresh : b.start.lookup partialInputField = none)
    (hinput : if joinPieces (inputPieces b.deltas) = "" then whole.lookup "input" = b.start.lookup "input"
      else ∃ input, codec.parse (joinPieces (inputPieces b.deltas)) = some (.object input) ∧
        whole.lookup "input" = some (.object input))
    (hrest : ∀ key, key ≠ "input" → whole.lookup key = b.start.lookup key) :
    (SameListed whole (b.result codec) ↔ b.signatureKept = true) ∧
      (SameExactly whole (b.result codec) ↔ b.exactlyKept codec = true) := by
  have hbegin : Reading b.start "" (b.start.lookup "input") (.object b.start) :=
    ⟨⟨_, rfl⟩, hfresh, rfl, fun _ _ _ => rfl⟩
  have htypes : ∀ t : String, t ≠ "input_json_delta" → ∀ d ∈ b.deltas, stringMember d "type" ≠ some t := by
    intro t ht d hd h
    rw [hdeltas d hd] at h
    exact ht (Option.some.inj h).symm
  have hsignature : b.signatureKept = true := by
    rw [BlockStream.signatureKept, deltaPieces_eq_nil (htypes "signature_delta" (by decide))]
    rfl
  have hcitations : deltaCitations b.deltas = [] := deltaCitations_eq_nil (htypes "citations_delta" (by decide))
  have hread : ∃ left, Reading b.start left (whole.lookup "input") (b.result codec) ∧
      (left = "" ↔ settles codec "" (inputPieces b.deltas) = true) := by
    by_cases hempty : joinPieces (inputPieces b.deltas) = ""
    · rw [if_pos hempty] at hinput
      obtain ⟨hread, hsettles⟩ := hbegin.foldl_empty codec hdeltas hempty
      exact ⟨"", by rw [hinput]; exact hread, iff_of_true rfl hsettles⟩
    · rw [if_neg hempty] at hinput
      obtain ⟨input, hparse, hwhole⟩ := hinput
      rw [hwhole]
      exact hbegin.foldl hcodec hdeltas (.inl rfl) (by rwa [String.empty_append]) (by rwa [String.empty_append])
  obtain ⟨left, hread, hsettles⟩ := hread
  have hsame : ∀ key, key ≠ partialInputField → (b.result codec).get key = whole.lookup key := by
    intro key hkey
    by_cases hfield : key = "input"
    · rw [hfield, hread.input_eq]
    · rw [hread.rest_eq key hkey hfield, hrest key hfield]
  have hpartial : whole.lookup partialInputField = none := (hrest partialInputField (by decide)).trans hfresh
  refine ⟨⟨fun _ => hsignature, fun _ key hkey => hsame key fun hne => ?_⟩, ?_⟩
  · rw [hne] at hkey
    exact absurd hkey (by decide)
  · rw [BlockStream.exactlyKept, hsignature, hcitations, decide_eq_true rfl, Bool.true_and, Bool.true_and, ← hsettles]
    constructor
    · intro hexactly
      by_contra hne
      have hwaiting := hread.waiting_eq
      rw [hexactly partialInputField, hpartial, if_neg hne] at hwaiting
      cases hwaiting
    · intro hleft key
      by_cases hkey : key = partialInputField
      · rw [hkey, hread.waiting_eq, if_pos hleft, hpartial]
      · exact hsame key hkey

/-- A block is the same when its signature was there from the start, and exactly the same when besides nothing
else of it came in a way that is passed over. -/
theorem Streams.same (hcodec : ObjectTexts codec) (h : Streams codec b whole) :
    (SameListed whole (b.result codec) ↔ b.signatureKept = true) ∧
      (SameExactly whole (b.result codec) ↔ b.exactlyKept codec = true) := by
  cases h with
  | text _ hdeltas hstart htext hcitations hrest => exact same_text hdeltas hstart htext hcitations hrest
  | thinking _ hdeltas hstart htext hsignature hrest => exact same_thinking hdeltas hstart htext hsignature hrest
  | input _ hdeltas hfresh hinput hrest => exact same_input hcodec hdeltas hfresh hinput hrest
  | whole hdeltas hrest =>
    have hresult : b.result codec = .object b.start := by
      rw [BlockStream.result, hdeltas]
      rfl
    have hsame : SameExactly whole (b.result codec) := by
      intro key
      rw [hresult, hrest key]
      rfl
    have hkept : b.signatureKept = true := by
      rw [BlockStream.signatureKept, hdeltas]
      rfl
    have hexactlyKept : b.exactlyKept codec = true := by
      rw [BlockStream.exactlyKept, hkept, hdeltas]
      rfl
    exact ⟨iff_of_true (fun key _ => hsame key) hkept, iff_of_true hsame hexactlyKept⟩

structure MessageStream where
  start : List (String × JsonValue)
  blocks : List BlockStream
  ends : List JsonValue

/-- The events that say something of a message, in the order of its stream. -/
structure MessageEvents (m : MessageStream) (events : List JsonValue) : Prop where
  told : ∃ first body, events.filter isTold = first :: (body ++ m.ends) ∧
    stringMember first "type" = some "message_start" ∧ first.get "message" = some (.object m.start) ∧
    BlockEvents 0 m.blocks body
  ends : ∀ e ∈ m.ends, stringMember e "type" = some "message_delta"
  named : (m.start.map Prod.fst).contains "id" = true

namespace MessageStream

/-- The objects with counts, in the order in which they come. -/
def usages (m : MessageStream) : List (List (String × JsonValue)) :=
  (m.start.filterMap fun field => if field.1 = "usage" then field.2.asObject else none) ++
    m.ends.map fun e => ((e.get "usage").bind JsonValue.asObject).getD []

def usageAt (m : MessageStream) (key : String) : Option JsonValue := m.usages.flatten.reverse.lookup key

def stopReason (m : MessageStream) : Option String :=
  (m.ends.filterMap fun e => (e.get "delta").bind (stringMember · "stop_reason")).getLast?

end MessageStream

namespace MessageParts

variable {parts : MessageParts}

theorem insertAll_append (as bs into : List (String × JsonValue)) :
    insertAll (as ++ bs) into = insertAll bs (insertAll as into) := foldl_append ..

theorem lookup_insertAll (as into : List (String × JsonValue)) (key : String) :
    (insertAll as into).lookup key = (as.reverse.lookup key).or (into.lookup key) := by
  induction as generalizing into with
  | nil => rfl
  | cons a as ih =>
    have hstep : insertAll (a :: as) into = insertAll as (insertField a.1 a.2 into) := rfl
    rw [hstep, ih, reverse_cons, lookup_append, Option.or_assoc]
    congr 1
    by_cases hkey : key = a.1
    · subst hkey
      rw [lookup_insertField_self, lookup_cons_self, some_or]
    · have hne : (key == a.1) = false := by simpa using hkey
      rw [lookup_insertField_of_ne _ hkey, lookup_cons, hne, lookup_nil, none_or]

/-- What the first event leaves: no content, and the counts apart. -/
structure Begun (usage : List (String × JsonValue)) (parts : MessageParts) : Prop where
  content_eq : parts.content = []
  stopReason_eq : parts.stopReason = none
  usage_eq : parts.usage = insertAll usage []
  noContent : parts.message.lookup "content" = none
  noUsage : ∀ value, parts.message.lookup "usage" = some value → value.asObject = none

theorem Begun.startField {usage : List (String × JsonValue)} (h : Begun usage parts) (field : String × JsonValue) :
    Begun (usage ++ ((if field.1 = "usage" then field.2.asObject else none).getD [])) (parts.startField field) := by
  unfold MessageParts.startField
  by_cases hcontent : field.1 = "content"
  · have hne : field.1 ≠ "usage" := by rw [hcontent]; decide
    rw [if_pos hcontent, if_neg hne, getD_none, append_nil]
    exact h
  rw [if_neg hcontent]
  cases hobject : (if field.1 = "usage" then field.2.asObject else none) with
  | some object =>
    refine ⟨h.content_eq, h.stopReason_eq, ?_, h.noContent, h.noUsage⟩
    rw [getD_some, insertAll_append, ← h.usage_eq]
  | none =>
    refine ⟨h.content_eq, h.stopReason_eq, ?_, ?_, ?_⟩
    · rw [getD_none, append_nil]
      exact h.usage_eq
    · exact (lookup_insertField_of_ne _ (Ne.symm hcontent)).trans h.noContent
    · intro value hvalue
      by_cases husage : field.1 = "usage"
      · rw [if_pos husage] at hobject
        rw [husage, lookup_insertField_self] at hvalue
        rw [← Option.some.inj hvalue]
        exact hobject
      · rw [lookup_insertField_of_ne _ (Ne.symm husage)] at hvalue
        exact h.noUsage value hvalue

theorem Begun.start {usage : List (String × JsonValue)} (h : Begun usage parts) (start : List (String × JsonValue)) :
    Begun (usage ++ (start.filterMap fun field => if field.1 = "usage" then field.2.asObject else none).flatten)
      (start.foldl MessageParts.startField parts) := by
  induction start generalizing usage parts with
  | nil => rwa [filterMap_nil, flatten_nil, append_nil]
  | cons field start ih =>
    have hnext := ih (h.startField field)
    rw [append_assoc] at hnext
    rw [filterMap_cons]
    cases hobject : (if field.1 = "usage" then field.2.asObject else none) with
    | none =>
      rw [hobject, getD_none, nil_append] at hnext
      exact hnext
    | some object =>
      rw [hobject, getD_some] at hnext
      exact hnext

theorem readEvent_ends {ends : List JsonValue} (h : ∀ e ∈ ends, stringMember e "type" = some "message_delta")
    (parts : MessageParts) :
    ends.foldl (readEvent codec) parts =
      { parts with
        stopReason :=
          (ends.filterMap fun e => (e.get "delta").bind (stringMember · "stop_reason")).getLast?.or parts.stopReason
        usage := insertAll (ends.map fun e => ((e.get "usage").bind JsonValue.asObject).getD []).flatten
          parts.usage } := by
  induction ends generalizing parts with
  | nil => rfl
  | cons e ends ih =>
    have hstep : parts.readEvent codec e =
        { parts with
          stopReason := ((e.get "delta").bind (stringMember · "stop_reason")).or parts.stopReason
          usage := insertAll (((e.get "usage").bind JsonValue.asObject).getD []) parts.usage } := by
      simp only [readEvent, h e mem_cons_self]
    have hreason : ∀ reasons : List String, ∀ first : Option String, ∀ old : Option String,
        reasons.getLast?.or (first.or old) = ((first.toList ++ reasons).getLast?).or old := by
      intro reasons first old
      rw [List.getLast?_append, Option.or_assoc]
      cases first with
      | none | some reason => rfl
    rw [foldl_cons, hstep, ih fun e he => h e (mem_cons_of_mem _ he), map_cons, flatten_cons,
      insertAll_append, hreason]
    congr 2
    rw [filterMap_cons]
    cases (e.get "delta").bind (stringMember · "stop_reason") with
    | none | some reason => rfl

theorem readEvent_untold {event : JsonValue} (h : isTold event = false) (parts : MessageParts) :
    parts.readEvent codec event = parts := by
  have hne : ∀ t ∈ ["message_start", "content_block_start", "content_block_delta", "message_delta"],
      stringMember event "type" ≠ some t := by
    intro t ht htype
    exact absurd (decide_eq_true htype) (any_eq_false.mp h t ht)
  unfold readEvent
  split
  next htype => exact absurd htype (hne _ (by decide))
  next htype => exact absurd htype (hne _ (by decide))
  next htype => exact absurd htype (hne _ (by decide))
  next htype => exact absurd htype (hne _ (by decide))
  next => rfl

theorem foldl_readEvent_filter (events : List JsonValue) (parts : MessageParts) :
    events.foldl (readEvent codec) parts = (events.filter isTold).foldl (readEvent codec) parts := by
  induction events generalizing parts with
  | nil => rfl
  | cons event events ih =>
    rw [foldl_cons, filter_cons]
    cases htold : isTold event with
    | false => rw [readEvent_untold htold, ih, if_neg Bool.false_ne_true]
    | true => rw [if_pos rfl, foldl_cons, ih]

theorem insertField_ne_nil (key : String) (value : JsonValue) (fields : List (String × JsonValue)) :
    insertField key value fields ≠ [] := by
  intro hnil
  have hlookup : (insertField key value fields).lookup key = some value := lookup_insertField_self value
  rw [hnil] at hlookup
  cases hlookup

theorem startField_message_ne_nil (parts : MessageParts) (field : String × JsonValue)
    (h : parts.message ≠ [] ∨ field.1 = "id") : (parts.startField field).message ≠ [] := by
  unfold startField
  by_cases hcontent : field.1 = "content"
  · rw [if_pos hcontent]
    exact h.resolve_right (by rw [hcontent]; decide)
  rw [if_neg hcontent]
  cases hobject : (if field.1 = "usage" then field.2.asObject else none) with
  | none => exact insertField_ne_nil _ _ _
  | some object =>
    refine h.resolve_right fun hid => ?_
    rw [hid, if_neg (by decide)] at hobject
    cases hobject

theorem start_message_ne_nil {start : List (String × JsonValue)} {parts : MessageParts}
    (h : parts.message ≠ [] ∨ (start.map Prod.fst).contains "id" = true) :
    (start.foldl startField parts).message ≠ [] := by
  induction start generalizing parts with
  | nil => exact h.resolve_right Bool.false_ne_true
  | cons field start ih =>
    refine ih ?_
    rcases h with h | h
    · exact .inl (startField_message_ne_nil parts field (.inl h))
    · rw [map_cons, contains_cons] at h
      rcases (Bool.or_eq_true ..).mp h with hid | hrest
      · exact .inl (startField_message_ne_nil parts field (.inr (beq_iff_eq.mp hid).symm))
      · exact .inr hrest

theorem lookup_insertMissing_of_ne {key k : String} (value : JsonValue) (fields : List (String × JsonValue))
    (h : k ≠ key) : (insertMissing key value fields).lookup k = fields.lookup k := by
  unfold insertMissing
  split
  next => rfl
  next => exact lookup_insertField_of_ne _ h

theorem lookup_insertMissing_self {key : String} (value : JsonValue) {fields : List (String × JsonValue)}
    (h : fields.lookup key = none) : (insertMissing key value fields).lookup key = some value := by
  rw [insertMissing, if_neg (by rw [h]; exact Bool.false_ne_true), lookup_insertField_self]

theorem insertAll_eq_nil {fields : List (String × JsonValue)} (h : insertAll fields [] = []) : fields = [] := by
  cases hfields : fields with
  | nil => rfl
  | cons field rest =>
    have hlookup := lookup_insertAll fields [] field.1
    have hmem : field.1 ∈ fields.reverse.map Prod.fst := by
      rw [hfields]
      simp
    rw [h, lookup_nil, or_none] at hlookup
    obtain ⟨entry, hentry, hkey⟩ := mem_map.mp hmem
    have hnone := lookup_eq_none_iff.mp hlookup.symm entry hentry
    rw [hkey, bne_self_eq_false] at hnone
    cases hnone

/-- What a message says that was read to its end. -/
structure Finished (m : MessageStream) (codec : JsonCodec) (fields : List (String × JsonValue)) : Prop where
  content : fields.lookup "content" = some (.array (m.blocks.map (BlockStream.result codec)))
  stopReason : fields.lookup "stop_reason" = some ((m.stopReason.map .string).getD .null)
  usage : ∀ key, ((fields.lookup "usage").bind (·.get key)) = m.usageAt key

variable (codec) in
theorem finish_of_events {m : MessageStream} {events : List JsonValue} (h : MessageEvents m events) :
    ∃ fields, anthropicMessageOfEvents codec events = .ok (.object fields) ∧ Finished m codec fields := by
  obtain ⟨first, body, htold, hfirst, hmessage, hblocks⟩ := h.told
  have hfresh : Begun [] ⟨[], [], none, []⟩ := ⟨rfl, rfl, rfl, rfl, fun _ hvalue => by cases hvalue⟩
  have hbegun := hfresh.start m.start
  have hne : (m.start.foldl startField ⟨[], [], none, []⟩).message ≠ [] := start_message_ne_nil (.inr h.named)
  have hstart : (MessageParts.mk [] [] none []).readEvent codec first =
      m.start.foldl startField ⟨[], [], none, []⟩ := by
    simp only [readEvent, hfirst, hmessage, bind_some, JsonValue.asObject, getD_some]
  rw [nil_append] at hbegun
  rw [anthropicMessageOfEvents, foldl_readEvent_filter, htold, foldl_cons, foldl_append, hstart]
  generalize m.start.foldl startField ⟨[], [], none, []⟩ = begun at hbegun hne
  rw [readEvent_blocks hblocks (by rw [hbegun.content_eq]; rfl), readEvent_ends h.ends, hbegun.content_eq,
    hbegun.stopReason_eq, hbegun.usage_eq, ← insertAll_append, nil_append]
  have husages : (m.start.filterMap fun field => if field.1 = "usage" then field.2.asObject else none).flatten ++
      (m.ends.map fun e => ((e.get "usage").bind JsonValue.asObject).getD []).flatten = m.usages.flatten := by
    rw [MessageStream.usages, flatten_append]
  rw [husages]
  generalize hcontent : m.blocks.map (BlockStream.result codec) = content
  unfold finish
  rw [if_neg fun hnil => hne hnil.1]
  have hlookup : ∀ key, key ≠ "type" → key ≠ "role" → key ≠ "content" → key ≠ "stop_reason" →
      (insertField "stop_reason" ((((m.ends.filterMap fun e =>
        (e.get "delta").bind (stringMember · "stop_reason")).getLast?.or none).map .string).getD .null)
        (insertMissing "content" (.array content) (insertMissing "role" (.string "assistant")
          (insertMissing "type" (.string "message") begun.message)))).lookup key = begun.message.lookup key := by
    intro key htype hrole hcontent hreason
    rw [lookup_insertField_of_ne _ hreason, lookup_insertMissing_of_ne _ _ hcontent,
      lookup_insertMissing_of_ne _ _ hrole, lookup_insertMissing_of_ne _ _ htype]
  have hcontentAt : ∀ reason, (insertField "stop_reason" reason
      (insertMissing "content" (.array content) (insertMissing "role" (.string "assistant")
        (insertMissing "type" (.string "message") begun.message)))).lookup "content" = some (.array content) := by
    intro reason
    rw [lookup_insertField_of_ne _ (by decide), lookup_insertMissing_self]
    rw [lookup_insertMissing_of_ne _ _ (by decide), lookup_insertMissing_of_ne _ _ (by decide), hbegun.noContent]
  have husageAt : ∀ key, (insertAll m.usages.flatten []).lookup key = m.usageAt key := by
    intro key
    rw [lookup_insertAll, lookup_nil, or_none]
    rfl
  refine ⟨_, rfl, ?_, ?_, ?_⟩
  · rw [hcontent]
    split
    next => exact hcontentAt _
    next =>
      rw [lookup_insertField_of_ne _ (by decide)]
      exact hcontentAt _
  · rw [or_none, ← MessageStream.stopReason]
    split
    next => exact lookup_insertField_self _
    next =>
      rw [lookup_insertField_of_ne _ (by decide)]
      exact lookup_insertField_self _
  · intro key
    split
    next hnil =>
      rw [hlookup "usage" (by decide) (by decide) (by decide) (by decide), MessageStream.usageAt, insertAll_eq_nil hnil]
      cases husage : begun.message.lookup "usage" with
      | none => rfl
      | some value =>
        have hobject := hbegun.noUsage value husage
        cases value with
        | object fields => cases hobject
        | _ => rfl
    next =>
      rw [lookup_insertField_self, bind_some, JsonValue.get, husageAt]

end MessageParts

theorem appendToolResults_content {body fields : List (String × JsonValue)} {messages : List JsonValue}
    {content : JsonValue} (hbody : body.lookup "messages" = some (.array messages))
    (hcontent : fields.lookup "content" = some content) {results : List (String × String)}
    (hresults : groupedToolResultBlocks results ≠ []) :
    (appendToolResults (.object body) (.object fields) results).get "messages" =
      some (.array (messages ++ [.object [("role", .string "assistant"), ("content", content)],
        .object [("role", .string "user"), ("content", .array (groupedToolResultBlocks results))]])) := by
  simp only [appendToolResults, hbody]
  rw [if_neg hresults, JsonValue.get, lookup_insertField_self, JsonValue.get, hcontent, append_assoc]
  rfl

theorem forall₂_iff_of_imp {α β γ : Type} {p : β → γ → Prop} {k : α → Prop} {f : α → γ} {r : α → β → Prop}
    {as : List α} {bs : List β} (h : List.Forall₂ r as bs) (hiff : ∀ a b, r a b → (p b (f a) ↔ k a)) :
    List.Forall₂ p bs (as.map f) ↔ ∀ a ∈ as, k a := by
  induction h with
  | nil => exact iff_of_true .nil fun a ha => absurd ha not_mem_nil
  | cons hab rest ih =>
    rw [map_cons, forall₂_cons, hiff _ _ hab, ih, forall_mem_cons]

/-- A message comes back from its stream when every signature was there from the start of its block; and nothing
else is missing or left over when besides no citation is streamed and nothing follows the text of an input. -/
theorem message_from_sse (hcodec : ObjectTexts codec) (htext : SseText codec raw events) {m : MessageStream}
    (hevents : MessageEvents m events) {wholes : List (List (String × JsonValue))}
    (hblocks : List.Forall₂ (Streams codec) m.blocks wholes) :
    ∃ fields content, anthropicMessageFromSse codec raw = .ok (.object fields) ∧
      fields.lookup "content" = some (.array content) ∧
      fields.lookup "stop_reason" = some ((m.stopReason.map .string).getD .null) ∧
      (∀ key, ((fields.lookup "usage").bind (·.get key)) = m.usageAt key) ∧
      (List.Forall₂ SameListed wholes content ↔ ∀ b ∈ m.blocks, b.signatureKept = true) ∧
      (List.Forall₂ SameExactly wholes content ↔ ∀ b ∈ m.blocks, b.exactlyKept codec = true) ∧
      ∀ body messages results, body.lookup "messages" = some (.array messages) →
        groupedToolResultBlocks results ≠ [] →
        (appendToolResults (.object body) (.object fields) results).get "messages" =
          some (.array (messages ++ [.object [("role", .string "assistant"), ("content", .array content)],
            .object [("role", .string "user"), ("content", .array (groupedToolResultBlocks results))]])) := by
  obtain ⟨fields, hmessage, hfinished⟩ := MessageParts.finish_of_events codec hevents
  refine ⟨fields, m.blocks.map (BlockStream.result codec), ?_, hfinished.content, hfinished.stopReason,
    hfinished.usage, ?_, ?_, ?_⟩
  · rw [anthropicMessageFromSse, parseSseJsonEvents_of_text htext, hmessage]
  · exact forall₂_iff_of_imp hblocks fun b whole h => (h.same hcodec).1
  · exact forall₂_iff_of_imp hblocks fun b whole h => (h.same hcodec).2
  · intro body messages results hbody hresults
    exact appendToolResults_content hbody hfinished.content hresults

theorem objectTexts_table {entries : List (String × JsonValue)} {print : JsonValue → String}
    (h : ∀ s ∈ entries.map Prod.fst, ∀ t ∈ entries.map Prod.fst, s.toList <+: t.toList → s = t) :
    ObjectTexts ⟨fun text => entries.lookup text, print⟩ := by
  have hkey : ∀ text value, entries.lookup text = some value → text ∈ entries.map Prod.fst := by
    intro text value hlookup
    obtain ⟨before, after, heq, -⟩ := List.lookup_eq_some_iff.mp hlookup
    rw [heq]
    simp
  intro before after object hparse
  cases hbefore : entries.lookup before with
  | none => exact .inl hbefore
  | some value =>
    have hstart : before.toList <+: (before ++ after).toList := by
      rw [String.toList_append]
      exact prefix_append _ _
    have hsame := h before (hkey before value hbefore) _ (hkey _ _ hparse) hstart
    have hparse : entries.lookup before = some (.object object) := by
      rw [hsame]
      exact hparse
    refine .inr ⟨hparse, fun a piece b heq hne => ?_⟩
    have hempty : after = "" := by
      have hlist := congrArg String.toList hsame
      rw [String.toList_append] at hlist
      exact String.toList_inj.mp (append_right_eq_self.mp hlist.symm)
    rw [hempty] at heq
    exact absurd (append_eq_empty (append_eq_empty heq.symm).2).1 hne

def messageStartText : String := "\x7b\"type\":\"message_start\",\"message\":\x7b\"id\":\"m\"\x7d\x7d"

def blockText : String :=
  "\x7b\"type\":\"content_block_start\",\"index\":0,\"content_block\":\x7b\"type\":\"thinking\"," ++
    "\"thinking\":\"\"\x7d\x7d"

def signatureText : String :=
  "\x7b\"type\":\"content_block_delta\",\"index\":0,\"delta\":\x7b\"type\":\"signature_delta\"," ++
    "\"signature\":\"s\"\x7d\x7d"

def signedStart : JsonValue :=
  .object [("type", .string "message_start"), ("message", .object [("id", .string "m")])]

def signedBlock : BlockStream where
  start := [("type", .string "thinking"), ("thinking", .string "")]
  deltas := [.object [("type", .string "signature_delta"), ("signature", .string "s")]]

def signedBlockStart : JsonValue :=
  .object [("type", .string "content_block_start"), ("index", .number (.int 0)),
    ("content_block", .object signedBlock.start)]

def signedDelta : JsonValue :=
  .object [("type", .string "content_block_delta"), ("index", .number (.int 0)),
    ("delta", .object [("type", .string "signature_delta"), ("signature", .string "s")])]

def signedEvents : List (String × JsonValue) :=
  [(messageStartText, signedStart), (blockText, signedBlockStart), (signatureText, signedDelta)]

def signedCodec : JsonCodec := ⟨fun text => signedEvents.lookup text, fun _ => ""⟩

/-- A block of thinking whose signature comes at its end. -/
def signedText : List Char :=
  [SseFrame.data messageStartText, .data blockText, .data signatureText].flatMap SseFrame.text

def signedWhole : List (String × JsonValue) :=
  [("type", .string "thinking"), ("thinking", .string ""), ("signature", .string "s")]

theorem streams_signedWhole : Streams signedCodec signedBlock signedWhole := by
  refine @Streams.thinking signedCodec signedBlock signedWhole "" rfl ?_ rfl rfl rfl ?_
  · intro d hd
    rw [mem_singleton.mp hd]
    exact .inr rfl
  · intro key hthinking hsignature
    have hne : (key == "thinking") = false := by simpa using hthinking
    have hne' : (key == "signature") = false := by simpa using hsignature
    simp [signedWhole, signedBlock, lookup_cons, hne, hne']

theorem sseText_signed : SseText signedCodec signedText [signedStart, signedBlockStart, signedDelta] := by
  refine ⟨_, [some signedStart, some signedBlockStart, some signedDelta], rfl,
    .cons ?_ (.cons ?_ (.cons ?_ .nil)), rfl⟩
  · exact SseFrame.holds_data (by decide) (by decide) (by decide) rfl
  · exact SseFrame.holds_data (by decide) (by decide) (by decide) rfl
  · exact SseFrame.holds_data (by decide) (by decide) (by decide) rfl

def unsignedMessage : List (String × JsonValue) :=
  [("id", .string "m"), ("type", .string "message"), ("role", .string "assistant"),
    ("content", .array [.object signedBlock.start]), ("stop_reason", .null)]

theorem signature_delta_lost :
    Streams signedCodec signedBlock signedWhole ∧
      ∃ fields block, anthropicMessageFromSse signedCodec signedText = .ok (.object fields) ∧
        fields.lookup "content" = some (.array [block]) ∧
        block.get "signature" ≠ signedWhole.lookup "signature" := by
  refine ⟨streams_signedWhole, unsignedMessage, .object signedBlock.start, ?_, rfl, by decide⟩
  rw [anthropicMessageFromSse, parseSseJsonEvents_of_text sseText_signed]
  rfl

theorem message_from_sse_signed :
    ∃ fields content, anthropicMessageFromSse signedCodec signedText = .ok (.object fields) ∧
      fields.lookup "content" = some (.array content) ∧ ¬ List.Forall₂ SameListed [signedWhole] content := by
  have hcodec : ObjectTexts signedCodec := objectTexts_table (by decide)
  have hstart : StartsBlockAt 0 signedBlock.start signedBlockStart := ⟨rfl, rfl, rfl⟩
  have hdeltas : List.Forall₂ (BringsDeltaAt 0) signedBlock.deltas [signedDelta] := .cons ⟨rfl, rfl, rfl⟩ .nil
  have hevents : MessageEvents ⟨[("id", .string "m")], [signedBlock], []⟩
      [signedStart, signedBlockStart, signedDelta] := by
    refine ⟨⟨signedStart, [signedBlockStart, signedDelta], rfl, rfl, rfl, .cons hstart hdeltas .nil⟩, ?_, rfl⟩
    exact fun e he => absurd he not_mem_nil
  obtain ⟨fields, content, hmessage, hcontent, -, -, hsame, -⟩ :=
    message_from_sse hcodec sseText_signed hevents (.cons streams_signedWhole .nil)
  refine ⟨fields, content, hmessage, hcontent, fun h => ?_⟩
  have hkept := hsame.mp h signedBlock mem_cons_self
  exact absurd hkept (by decide)

end MochiPort

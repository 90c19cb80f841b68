import MochiPort.ChatStreamSound
import MochiPort.CustomInputTexts
import MochiPort.GrowingDeltas

namespace MochiPort

open InputText StringText

/-- A beginning of an object's text is a text itself only if whitespace is all that follows; it is the same object. -/
def ClosesObjects (codec : JsonCodec) : Prop :=
  ∀ text rest fields value, codec.parse (text ++ rest) = some (.object fields) → codec.parse text = some value →
    value = .object fields ∧ ∀ c ∈ rest.toList, isJsonWhitespace c = true

/-- The fragments of the arguments of a call, one after the other, with the events that they cause. -/
def feedFragments (codec : JsonCodec) : ToolCallState → List String → ToolCallState × List ResponseEvent
  | tc, [] => (tc, [])
  | tc, fragment :: fragments =>
    let (tc, event) := toolDeltaEvent codec { tc with arguments := tc.arguments ++ fragment } fragment
    let (tc, events) := feedFragments codec tc fragments
    (tc, event.toList ++ events)

def ResponseEvent.inputDelta : ResponseEvent → Option String
  | .customToolCallInputDelta _ _ delta => some delta
  | _ => none

def shownInput (events : List ResponseEvent) : String := String.join (events.filterMap ResponseEvent.inputDelta)

def borders : String → List String → List String
  | _, [] => []
  | arguments, fragment :: fragments => (arguments ++ fragment) :: borders (arguments ++ fragment) fragments

def blankFragment (fragment : String) : Bool := fragment.toList.all RustText.isWhitespace

/-- The fragments before the first one that has more than whitespace, put together. -/
def blankStart (fragments : List String) : String := String.join (fragments.takeWhile blankFragment)

/-- The stream shows nothing of the whitespace before the brace; or the input begins with what it shows of it, and no
fragment ends where less of the input can be seen than that. -/
def BlankKept (text : InputText) (fragments : List String) : Prop :=
  blankStart fragments = "" ∨
    (blankStart fragments).toList <+: text.input ∧
      ∀ arguments ∈ borders "" fragments, ∀ k ≤ text.value.length,
        arguments.toList = text.head ++ '"' :: written (text.value.take k) →
          k = 0 ∨ (blankStart fragments).toList.length ≤ k

/-- The deltas make up the input, which is read off the whole text too, and what is read off its beginnings grows. -/
structure DecodesIncrementally (codec : JsonCodec) (tc : ToolCallState) (fragments : List String) (text : InputText) :
    Prop where
  deltas : (shownInput (feedFragments codec tc fragments).2).toList = text.input
  completed : (completedCustomToolInput codec (String.join fragments)).toList = text.input
  grows : ∀ arguments later input input', arguments.toList <+: later.toList → later.toList <+: text.toList →
    partialCustomToolInput codec arguments = some input → partialCustomToolInput codec later = some input' →
      input.toList <+: input'.toList ∧ input'.toList <+: text.input

section

variable {codec : JsonCodec} {tc : ToolCallState} {text : InputText} {fields : List (String × JsonValue)}
  {arguments later : String} {fragments : List String}

def fullInput (codec : JsonCodec) (arguments : String) : Option String :=
  match partialCustomToolInput codec arguments with
  | some input => some input
  | none => if (trimStartList arguments.toList).head? ≠ some '\x7b' then some arguments else none

theorem toolDeltaEvent_custom (hkind : tc.target.kind = .custom) (rawDelta : String) :
    toolDeltaEvent codec tc rawDelta =
      match fullInput codec tc.arguments with
      | none => (tc, none)
      | some input =>
        if GrowingDeltas.delta tc.customEmittedInput.toList input.toList = [] then (tc, none)
        else
          ({ tc with customEmittedInput := input },
            some (.customToolCallInputDelta tc.itemId tc.outputIndex
              (String.ofList (GrowingDeltas.delta tc.customEmittedInput.toList input.toList)))) := by
  unfold toolDeltaEvent
  rw [hkind]
  change (match fullInput codec tc.arguments with
    | none => (tc, none)
    | some input => _) = _
  cases fullInput codec tc.arguments with
  | none => rfl
  | some input =>
    dsimp only
    have hdelta : (if tc.customEmittedInput.toList <+: input.toList then
          String.ofList (input.toList.drop tc.customEmittedInput.toList.length) else input) =
        String.ofList (GrowingDeltas.delta tc.customEmittedInput.toList input.toList) := by
      rw [GrowingDeltas.delta]
      split
      next => rfl
      next => exact (String.ofList_toList).symm
    have hempty : ∀ l : List Char, String.ofList l = "" ↔ l = [] := fun l => by
      rw [← String.toList_inj, String.toList_ofList]
      rfl
    rw [hdelta]
    simp only [hempty]

theorem inputDelta_custom (itemId : String) (outputIndex : Nat) (delta : String) :
    (ResponseEvent.customToolCallInputDelta itemId outputIndex delta).inputDelta = some delta := rfl

theorem feedFragments_deltas (hkind : tc.target.kind = .custom) (fragments : List String) :
    ((feedFragments codec tc fragments).2.filterMap ResponseEvent.inputDelta).map String.toList =
      GrowingDeltas.deltas tc.customEmittedInput.toList
        (((borders tc.arguments fragments).filterMap (fullInput codec)).map String.toList) := by
  induction fragments generalizing tc with
  | nil => rfl
  | cons fragment fragments ih =>
    have hstep := @toolDeltaEvent_custom codec { tc with arguments := tc.arguments ++ fragment } hkind fragment
    rw [feedFragments, borders, hstep]
    cases hfull : fullInput codec (tc.arguments ++ fragment) with
    | none =>
      rw [List.filterMap_cons_none hfull]
      exact ih hkind
    | some input =>
      rw [List.filterMap_cons_some hfull, List.map_cons, GrowingDeltas.deltas]
      dsimp only
      split
      next hnil => exact ih hkind
      next hdelta =>
        rw [Option.toList_some, List.singleton_append, List.filterMap_cons_some (inputDelta_custom ..), List.map_cons,
          String.toList_ofList]
        exact congrArg _ (ih hkind)

theorem borders_append (arguments : String) (fragments fragments' : List String) :
    borders arguments (fragments ++ fragments') =
      borders arguments fragments ++ borders (arguments ++ String.join fragments) fragments' := by
  induction fragments generalizing arguments with
  | nil =>
    rw [String.join_nil, String.append_empty]
    rfl
  | cons fragment fragments ih =>
    rw [List.cons_append, borders, borders, ih, String.join_cons, String.append_assoc]
    rfl

theorem borders_between (h : later ∈ borders arguments fragments) :
    arguments.toList <+: later.toList ∧ later.toList <+: (arguments ++ String.join fragments).toList := by
  induction fragments generalizing arguments with
  | nil => exact absurd h List.not_mem_nil
  | cons fragment fragments ih =>
    have hfirst : arguments.toList <+: (arguments ++ fragment).toList := by
      rw [String.toList_append]
      exact List.prefix_append _ _
    rw [String.join_cons, ← String.append_assoc]
    rcases List.mem_cons.mp h with rfl | h
    · refine ⟨hfirst, ?_⟩
      rw [String.toList_append (s := arguments ++ fragment)]
      exact List.prefix_append _ _
    · obtain ⟨hfrom, hto⟩ := ih h
      exact ⟨hfirst.trans hfrom, hto⟩

section

variable (arguments)

theorem borders_grow (fragments : List String) :
    (borders arguments fragments).Pairwise fun arguments later => arguments.toList <+: later.toList := by
  induction fragments generalizing arguments with
  | nil => exact .nil
  | cons fragment fragments ih =>
    exact List.pairwise_cons.mpr ⟨fun later hlater => (borders_between hlater).1, ih _⟩

theorem borders_last (h : fragments ≠ []) :
    ∃ earlier, borders arguments fragments = earlier ++ [arguments ++ String.join fragments] := by
  induction fragments generalizing arguments with
  | nil => exact absurd rfl h
  | cons fragment fragments ih =>
    rw [String.join_cons, ← String.append_assoc, borders]
    by_cases hnil : fragments = []
    · refine ⟨[], ?_⟩
      rw [hnil, String.join_nil, String.append_empty]
      rfl
    · obtain ⟨earlier, hearlier⟩ := ih (arguments ++ fragment) hnil
      exact ⟨(arguments ++ fragment) :: earlier, congrArg _ hearlier⟩

theorem borders_getLastD (fragments : List String) :
    ((borders arguments fragments).map String.toList).getLastD arguments.toList =
      (arguments ++ String.join fragments).toList := by
  by_cases hnil : fragments = []
  · rw [hnil, String.join_nil, String.append_empty]
    rfl
  · obtain ⟨earlier, hearlier⟩ := borders_last arguments hnil
    rw [hearlier, List.map_append, List.map_singleton, List.getLastD_concat]

end

theorem whole_of_blank_rest {part rest : List Char} (h : part ++ rest = text.toList)
    (hblank : ∀ c ∈ rest, isJsonWhitespace c = true) :
    ∃ after, part = text.head ++ '"' :: (written text.value ++ '"' :: after) := by
  have hclosing : text.head ++ '"' :: (written text.value ++ ['"']) <+: text.toList :=
    ⟨text.tail, by simp [toList]⟩
  have hpart : part <+: text.toList := ⟨rest, h⟩
  rcases List.prefix_or_prefix_of_prefix hclosing hpart with ⟨after, hafter⟩ | ⟨missing, hmissing⟩
  · exact ⟨after, by rw [← hafter]; simp⟩
  · by_cases hnil : missing = []
    · rw [hnil, List.append_nil] at hmissing
      exact ⟨[], hmissing⟩
    · -- the closing quote would be among what follows
      have hlast : missing.getLast hnil = '"' := by
        have hends := congrArg List.getLast? hmissing
        rw [List.getLast?_append_of_ne_nil _ hnil, List.getLast?_eq_some_getLast hnil] at hends
        have hquote : (text.head ++ '"' :: (written text.value ++ ['"'])).getLast? = some '"' := by
          rw [← List.cons_append, ← List.append_assoc, List.getLast?_concat]
        rw [hquote] at hends
        exact Option.some.inj hends
      have hrest : missing <+: rest := by
        rw [← h, ← hmissing] at hclosing
        exact (List.prefix_append_right_inj part).mp hclosing
      have hquote := hblank _ (hrest.subset (List.getLast_mem hnil))
      rw [hlast] at hquote
      exact absurd hquote (by decide)

theorem partialCustomToolInput_eq (hcloses : ClosesObjects codec) {whole : String} (hwhole : whole.toList = text.toList)
    (hparse : codec.parse whole = some (.object fields))
    (hinput : fields.lookup "input" = some (.string (String.ofList text.input)))
    (h : arguments.toList <+: text.toList) :
    partialCustomToolInput codec arguments = partialWrappedInputPrefix arguments := by
  unfold partialCustomToolInput parseCustomToolInput
  cases hpart : codec.parse arguments with
  | none => rfl
  | some value =>
    obtain ⟨rest, hrest⟩ := h
    have hsplit : arguments ++ String.ofList rest = whole := by
      rw [← String.toList_inj, String.toList_append, String.toList_ofList, hrest, hwhole]
    obtain ⟨rfl, hblank⟩ := hcloses arguments (String.ofList rest) fields value (hsplit ▸ hparse) hpart
    rw [String.toList_ofList] at hblank
    obtain ⟨after, hafter⟩ := whole_of_blank_rest hrest hblank
    have hstring : stringInput (.object fields) = some (String.ofList text.input) := by
      rw [stringInput, JsonValue.get, hinput]
      rfl
    rw [Option.bind_some, hstring, Option.some_or, partialWrapped_whole hafter]

theorem written_take_lt {value : StringText} (hvalid : value.Valid) {k k' : Nat} (hlt : k' < k) (hk : k ≤ value.length) :
    (written (value.take k')).length < (written (value.take k)).length := by
  have hsplit : value.take k = value.take k' ++ (value.drop k').take (k - k') := by
    rw [← List.take_add]
    congr 1
    omega
  have hmore : StringText.Valid ((value.drop k').take (k - k')) := fun char hchar =>
    hvalid char (List.mem_of_mem_drop (List.mem_of_mem_take hchar))
  have hle := hmore.length_le
  have hlength : ((value.drop k').take (k - k')).length = k - k' := by
    rw [List.length_take, List.length_drop]
    omega
  have hwritten : written (value.take k) = written (value.take k') ++ written ((value.drop k').take (k - k')) := by
    rw [hsplit]
    exact List.flatMap_append
  rw [hwritten, List.length_append]
  omega

theorem written_take_le (value : StringText) (k : Nat) : (written (value.take k)).length ≤ (written value).length := by
  have hwritten : written value = written (value.take k) ++ written (value.drop k) := by
    conv_lhs => rw [← List.take_append_drop k value]
    exact List.flatMap_append
  rw [hwritten, List.length_append]
  omega

theorem spoken_take_prefix (value : StringText) (k : Nat) : spoken (value.take k) <+: spoken value :=
  (List.take_prefix k value).map _

theorem InputText.Shows.prefix_input {part shown : List Char} (h : Shows text part (some shown)) : shown <+: text.input := by
  cases h with
  | growing k hk hpart => exact spoken_take_prefix text.value k
  | whole after hpart => exact List.prefix_rfl

theorem InputText.Shows.grows {part part' shown shown' : List Char} (h : Shows text part (some shown))
    (h' : Shows text part' (some shown')) (hstart : part <+: part') : shown <+: shown' := by
  cases h with
  | growing k hk hpart =>
    cases h' with
    | growing k' hk' hpart' =>
      by_cases hle : k ≤ k'
      · have htake : text.value.take k <+: text.value.take k' := by
          rw [← Nat.min_eq_left hle, ← List.take_take]
          exact List.take_prefix k _
        exact htake.map _
      · have hlt := written_take_lt text.value_valid (Nat.lt_of_not_le hle) hk
        have hlength := hstart.length_le
        rw [hpart, hpart'] at hlength
        simp only [List.length_append, List.length_cons] at hlength
        omega
    | whole after hpart' => exact spoken_take_prefix text.value k
  | whole after hpart =>
    cases h' with
    | growing k' hk' hpart' =>
      have hle := written_take_le text.value k'
      have hlength := hstart.length_le
      rw [hpart, hpart'] at hlength
      simp only [List.length_append, List.length_cons] at hlength
      omega
    | whole after' hpart' => exact List.prefix_rfl

theorem blank_or_brace (h : arguments.toList <+: text.toList) :
    arguments.toList <+: text.lead ∨ ∃ rest, arguments.toList = text.lead ++ '\x7b' :: rest := by
  have hshape : text.toList = text.lead ++ '\x7b' :: (text.inside ++ '"' :: (written text.value ++ '"' :: text.tail)) := by
    simp [toList, head]
  rw [hshape] at h
  rcases prefix_append_cons_cases h with hlead | ⟨rest, hrest, _⟩
  · exact .inl hlead
  · exact .inr ⟨rest, hrest⟩

theorem blankFragment_brace (rest : List Char) (h : arguments.toList = text.lead ++ '\x7b' :: rest) :
    blankFragment arguments = false := by
  refine Bool.eq_false_iff.mpr fun hblank => ?_
  have hbrace := List.all_eq_true.mp hblank '\x7b' (by rw [h]; simp)
  exact absurd hbrace (by decide)

variable {whole : String}

theorem fullInput_blank (hcloses : ClosesObjects codec) (hwhole : whole.toList = text.toList)
    (hparse : codec.parse whole = some (.object fields))
    (hinput : fields.lookup "input" = some (.string (String.ofList text.input)))
    (h : arguments.toList <+: text.toList) (hblank : blankFragment arguments = true) :
    fullInput codec arguments = some arguments := by
  have hpartial := partialCustomToolInput_eq hcloses hwhole hparse hinput h
  rcases blank_or_brace h with hlead | ⟨rest, hrest⟩
  · have hhead : arguments.toList <+: text.head := hlead.trans (List.prefix_append _ _)
    have htrim : trimStartList arguments.toList = [] :=
      trimStartList_blank fun c hc => text.blank_lead c (hlead.subset hc)
    rw [partialWrapped_of_head hhead] at hpartial
    rw [fullInput, hpartial]
    rw [htrim, if_pos (by simp)]
  · rw [blankFragment_brace rest hrest] at hblank
    cases hblank

theorem fullInput_text (hcloses : ClosesObjects codec) (hwhole : whole.toList = text.toList)
    (hparse : codec.parse whole = some (.object fields))
    (hinput : fields.lookup "input" = some (.string (String.ofList text.input)))
    (h : arguments.toList <+: text.toList) (hblank : blankFragment arguments = false) :
    fullInput codec arguments = partialWrappedInputPrefix arguments := by
  have hpartial := partialCustomToolInput_eq hcloses hwhole hparse hinput h
  rcases blank_or_brace h with hlead | ⟨rest, hrest⟩
  · have hall : blankFragment arguments = true :=
      List.all_eq_true.mpr fun c hc => isWhitespace_of_json (text.blank_lead c (hlead.subset hc))
    rw [hall] at hblank
    cases hblank
  · have htrim : trimStartList arguments.toList = '\x7b' :: rest := by
      rw [hrest, trimStartList_append text.blank_lead (by decide)]
    rw [fullInput, hpartial]
    cases partialWrappedInputPrefix arguments with
    | some input => rfl
    | none =>
      rw [htrim, if_neg (by simp)]

theorem shows_of_partialWrapped {input : String} (h : arguments.toList <+: text.toList)
    (hinput : partialWrappedInputPrefix arguments = some input) : Shows text arguments.toList (some input.toList) := by
  obtain ⟨shown, hshows, hwrapped⟩ := partialWrapped_shows h
  rw [hinput] at hwrapped
  cases shown with
  | none => cases hwrapped
  | some shown =>
    rw [Option.some.inj hwrapped, String.toList_ofList]
    exact hshows

/-- What the stream takes for the input after each fragment: first the whitespace, then what is read of the value. -/
structure TakenInputs (text : InputText) (fragments : List String) (blanks shown : List (List Char)) : Prop where
  blanks_grow : blanks.Pairwise (· <+: ·)
  blanks_last : blanks.getLastD [] = (blankStart fragments).toList
  shown_grow : shown.Pairwise (· <+: ·)
  shown_last : shown.getLastD [] = text.input
  mem_shown : ∀ full, full ∈ shown ↔
    ∃ arguments ∈ borders "" fragments, partialWrappedInputPrefix arguments = some (String.ofList full)

theorem mem_map_filterMap {full : List Char} {bs : List String} :
    full ∈ (bs.filterMap partialWrappedInputPrefix).map String.toList ↔
      ∃ arguments ∈ bs, partialWrappedInputPrefix arguments = some (String.ofList full) := by
  rw [List.mem_map]
  constructor
  · rintro ⟨input, hinput, rfl⟩
    obtain ⟨arguments, hmem, hwrapped⟩ := List.mem_filterMap.mp hinput
    exact ⟨arguments, hmem, by rw [hwrapped, String.ofList_toList]⟩
  · rintro ⟨arguments, hmem, hwrapped⟩
    exact ⟨_, List.mem_filterMap.mpr ⟨arguments, hmem, hwrapped⟩, String.toList_ofList⟩

theorem blankStart_blank (fragments : List String) : blankFragment (blankStart fragments) = true := by
  refine List.all_eq_true.mpr fun c hc => ?_
  rw [blankStart, String.toList_join] at hc
  obtain ⟨fragment, hfragment, hc⟩ := List.mem_flatMap.mp hc
  have hblank : blankFragment fragment = true := List.mem_takeWhile_imp hfragment
  exact List.all_eq_true.mp hblank c hc

theorem fullInputs_taken (hcloses : ClosesObjects codec) (hcut : (String.join fragments).toList = text.toList)
    (hparse : codec.parse (String.join fragments) = some (.object fields))
    (hinput : fields.lookup "input" = some (.string (String.ofList text.input))) :
    ∃ blanks shown, TakenInputs text fragments blanks shown ∧
      ((borders "" fragments).filterMap (fullInput codec)).map String.toList = blanks ++ shown := by
  obtain ⟨rest, hrest⟩ : ∃ rest, rest = fragments.dropWhile blankFragment := ⟨_, rfl⟩
  have hfragments : fragments.takeWhile blankFragment ++ rest = fragments := by
    rw [hrest]
    exact List.takeWhile_append_dropWhile
  have hjoin : blankStart fragments ++ String.join rest = String.join fragments := by
    rw [← String.toList_inj, blankStart, String.toList_append, String.toList_join, String.toList_join,
      String.toList_join, ← List.flatMap_append, hfragments]
  have hborders : borders "" fragments =
      borders "" (fragments.takeWhile blankFragment) ++ borders (blankStart fragments) rest := by
    have happend := borders_append "" (fragments.takeWhile blankFragment) rest
    rwa [hfragments, String.empty_append] at happend
  have hwithin : ∀ arguments ∈ borders "" fragments, arguments.toList <+: text.toList := by
    intro arguments hmem
    have hto := (borders_between hmem).2
    rwa [String.empty_append, hcut] at hto
  -- before the first fragment with more than whitespace
  have hblank : ∀ arguments ∈ borders "" (fragments.takeWhile blankFragment), blankFragment arguments = true := by
    intro arguments hmem
    have hto := (borders_between hmem).2
    exact List.all_eq_true.mpr fun c hc => List.all_eq_true.mp (blankStart_blank fragments) c (hto.subset hc)
  have hfirst : (borders "" (fragments.takeWhile blankFragment)).filterMap (fullInput codec) =
      borders "" (fragments.takeWhile blankFragment) := by
    rw [← List.filterMap_some (l := borders "" (fragments.takeWhile blankFragment)), List.filterMap_filterMap]
    refine List.filterMap_congr fun arguments hmem => ?_
    refine fullInput_blank hcloses hcut hparse hinput (hwithin arguments ?_) (hblank arguments hmem)
    rw [hborders]
    exact List.mem_append_left _ hmem
  -- from there on
  have htext : ∀ arguments ∈ borders (blankStart fragments) rest, blankFragment arguments = false := by
    intro arguments hmem
    cases hcase : rest with
    | nil =>
      rw [hcase] at hmem
      exact absurd hmem List.not_mem_nil
    | cons fragment later =>
      have hhead := List.head?_dropWhile_not blankFragment fragments
      rw [← hrest, hcase] at hhead
      rw [hcase] at hmem
      have hfrom : (blankStart fragments ++ fragment).toList <+: arguments.toList := by
        rcases List.mem_cons.mp hmem with rfl | hmem
        · exact List.prefix_rfl
        · exact (borders_between hmem).1
      refine Bool.eq_false_iff.mpr fun hall => Bool.eq_false_iff.mp hhead (List.all_eq_true.mpr fun c hc => ?_)
      refine List.all_eq_true.mp hall c (hfrom.subset ?_)
      rw [String.toList_append]
      exact List.mem_append_right _ hc
  have hsecond : (borders (blankStart fragments) rest).filterMap (fullInput codec) =
      (borders (blankStart fragments) rest).filterMap partialWrappedInputPrefix := by
    refine List.filterMap_congr fun arguments hmem => ?_
    refine fullInput_text hcloses hcut hparse hinput (hwithin arguments ?_) (htext arguments hmem)
    rw [hborders]
    exact List.mem_append_right _ hmem
  have hne : rest ≠ [] := by
    intro hnil
    rw [hnil, String.join_nil, String.append_empty] at hjoin
    have hbrace : (String.join fragments).toList =
        text.lead ++ '\x7b' :: (text.inside ++ '"' :: (written text.value ++ '"' :: text.tail)) := by
      rw [hcut]
      simp [toList, head]
    have hall := blankStart_blank fragments
    rw [hjoin, blankFragment_brace _ hbrace] at hall
    cases hall
  refine ⟨(borders "" (fragments.takeWhile blankFragment)).map String.toList,
    ((borders (blankStart fragments) rest).filterMap partialWrappedInputPrefix).map String.toList,
    ⟨?_, ?_, ?_, ?_, ?_⟩, ?_⟩
  · exact List.pairwise_map.mpr (borders_grow "" _)
  · have hlast := borders_getLastD "" (fragments.takeWhile blankFragment)
    exact hlast
  · refine List.pairwise_map.mpr (List.pairwise_filterMap.mpr ?_)
    refine List.Pairwise.imp_of_mem ?_ (borders_grow (blankStart fragments) rest)
    intro arguments later hmem hmem' hstart input hinput' input' hinput''
    have hin := hwithin arguments (by rw [hborders]; exact List.mem_append_right _ hmem)
    have hin' := hwithin later (by rw [hborders]; exact List.mem_append_right _ hmem')
    exact (shows_of_partialWrapped hin hinput').grows (shows_of_partialWrapped hin' hinput'') hstart
  · obtain ⟨earlier, hearlier⟩ := borders_last (blankStart fragments) hne
    have hwhole : partialWrappedInputPrefix (blankStart fragments ++ String.join rest) =
        some (String.ofList text.input) := by
      rw [hjoin]
      exact partialWrapped_whole hcut
    rw [hearlier, List.filterMap_append, List.filterMap_cons_some hwhole, List.filterMap_nil, List.map_append,
      List.map_singleton, List.getLastD_concat, String.toList_ofList]
  · intro full
    rw [mem_map_filterMap, hborders]
    constructor
    · rintro ⟨arguments, hmem, hwrapped⟩
      exact ⟨arguments, List.mem_append_right _ hmem, hwrapped⟩
    · rintro ⟨arguments, hmem, hwrapped⟩
      rcases List.mem_append.mp hmem with hmem | hmem
      · -- whitespace shows nothing
        have hin := hwithin arguments (by rw [hborders]; exact List.mem_append_left _ hmem)
        rcases blank_or_brace hin with hlead | ⟨inside, hinside⟩
        · rw [partialWrapped_of_head (hlead.trans (List.prefix_append _ _))] at hwrapped
          cases hwrapped
        · have hall := hblank arguments hmem
          rw [blankFragment_brace inside hinside] at hall
          cases hall
      · exact ⟨arguments, hmem, hwrapped⟩
  · rw [hborders, List.filterMap_append, hfirst, hsecond, List.map_append]

theorem TakenInputs.deltas_iff {blanks shown : List (List Char)} (h : TakenInputs text fragments blanks shown)
    (hcut : (String.join fragments).toList = text.toList) :
    (GrowingDeltas.deltas [] (blanks ++ shown)).flatten = text.input ↔ BlankKept text fragments := by
  have hiff := GrowingDeltas.deltas_two_runs_iff h.blanks_grow h.shown_grow
  rw [h.blanks_last, h.shown_last] at hiff
  have hempty : (blankStart fragments).toList = [] ↔ blankStart fragments = "" := by
    rw [← String.toList_inj]
    rfl
  rw [hiff, hempty]
  refine or_congr_right (and_congr_right fun hbegins => ?_)
  constructor
  · intro hshown arguments hmem k hk harguments
    have hfull : spoken (text.value.take k) ∈ shown :=
      (h.mem_shown _).mpr ⟨arguments, hmem, partialWrapped_growing k harguments⟩
    have hlength : (spoken (text.value.take k)).length = k := by
      rw [spoken, List.length_map, List.length_take, Nat.min_eq_left hk]
    rcases hshown _ hfull with hnil | hlong
    · rw [hnil] at hlength
      exact .inl hlength.symm
    · rw [hlength] at hlong
      exact .inr hlong
  · intro hborders full hfull
    obtain ⟨arguments, hmem, hwrapped⟩ := (h.mem_shown full).mp hfull
    have hto := (borders_between hmem).2
    rw [String.empty_append, hcut] at hto
    have hshows := shows_of_partialWrapped hto hwrapped
    rw [String.toList_ofList] at hshows
    cases hshows with
    | growing k hk harguments =>
      have hlength : (spoken (text.value.take k)).length = k := by
        rw [spoken, List.length_map, List.length_take, Nat.min_eq_left hk]
      rcases hborders arguments hmem k hk harguments with hzero | hlong
      · exact .inl (List.length_eq_zero_iff.mp (hlength.trans hzero))
      · exact .inr (by rw [hlength]; exact hlong)
    | whole after harguments => exact .inr hbegins.length_le

end

def ResponsesStreamState.deltasOf (s : ResponsesStreamState) (index : Nat) : List ResponseEvent :=
  (s.emitted.map StreamEvent.event).filter fun
    | .functionCallArgumentsDelta _ outputIndex _ | .customToolCallInputDelta _ outputIndex _ => outputIndex = index
    | _ => false

/-- Whatever fragments of other calls come between them, the fragments of a call cause what they cause alone. -/
theorem parallel_calls_apart (codec : JsonCodec) {index : Nat} (deltas : List (Nat × String))
    {s : ResponsesStreamState} {tc : ToolCallState} (hcall : s.toolCalls.lookup index = some tc)
    (hown : ∀ {other call}, s.toolCalls.lookup other = some call → call.outputIndex = tc.outputIndex → other = index) :
    let after := deltas.foldl (fun s delta => s.extendToolCall codec delta.1 delta.2) s
    let fed := feedFragments codec tc ((deltas.filter (·.1 = index)).map Prod.snd)
    after.toolCalls.lookup index = some fed.1 ∧
      after.deltasOf tc.outputIndex = s.deltasOf tc.outputIndex ++ fed.2 := by
  induction deltas generalizing s tc with
  | nil => exact ⟨hcall, (List.append_nil _).symm⟩
  | cons delta deltas ih =>
    obtain ⟨other, fragment⟩ := delta
    rw [List.foldl_cons, List.filter_cons]
    cases hlookup : s.toolCalls.lookup other with
    | none =>
      rw [ResponsesStreamState.extendToolCall, hlookup, if_neg (by grind)]
      exact ih hcall hown
    | some call =>
      let grown := { call with arguments := call.arguments ++ fragment }
      obtain ⟨input, hgrown, hevent⟩ := toolDeltaEvent_cases codec grown fragment
      have hplace : (toolDeltaEvent codec grown fragment).1.outputIndex = call.outputIndex := by rw [hgrown]
      obtain ⟨hcalls, hdeltas⟩ : (s.extendToolCall codec other fragment).toolCalls =
          s.toolCalls.insert other (toolDeltaEvent codec grown fragment).1 ∧
          ∀ index, (s.extendToolCall codec other fragment).deltasOf index = s.deltasOf index ++
            if call.outputIndex = index then (toolDeltaEvent codec grown fragment).2.toList else [] := by
        rw [ResponsesStreamState.extendToolCall, hlookup]
        rcases hevent with ⟨h, -⟩ | ⟨⟨delta, h⟩, -⟩ | ⟨h, -⟩
        all_goals simp [grown, h, ResponsesStreamState.deltasOf, ResponsesStreamState.emit, List.filter_cons]
      have hrest := @ih (s.extendToolCall codec other fragment)
      simp only [hcalls, hdeltas, Table.lookup_insert_eq] at hrest
      rcases eq_or_ne other index with rfl | hne
      · obtain rfl : call = tc := Option.some.inj (hlookup.symm.trans hcall)
        have hdone := @hrest (toolDeltaEvent codec grown fragment).1 (if_pos rfl) (by grind)
        simpa [feedFragments, hplace, grown] using hdone
      · simpa [hne, mt (hown hlookup) hne] using @hrest tc (by grind) (by grind)

/-- The deltas of a custom tool call agree with its input exactly when no whitespace before the brace was shown, or the
input begins with what was shown of it before less of the input could be seen. -/
theorem custom_input_deltas_iff {codec : JsonCodec} (hcloses : ClosesObjects codec) {text : InputText}
    {fragments : List String} (hcut : (String.join fragments).toList = text.toList)
    {fields : List (String × JsonValue)} (hparse : codec.parse (String.join fragments) = some (.object fields))
    (hinput : fields.lookup "input" = some (.string (String.ofList text.input))) {tc : ToolCallState}
    (hkind : tc.target.kind = .custom) (harguments : tc.arguments = "") (hemitted : tc.customEmittedInput = "") :
    DecodesIncrementally codec tc fragments text ↔ BlankKept text fragments := by
  obtain ⟨blanks, shown, htaken, hfull⟩ := fullInputs_taken hcloses hcut hparse hinput
  have hfeed := @feedFragments_deltas codec tc hkind fragments
  rw [harguments, hemitted, hfull] at hfeed
  have hshown : (shownInput (feedFragments codec tc fragments).2).toList =
      (GrowingDeltas.deltas [] (blanks ++ shown)).flatten := by
    rw [shownInput, String.toList_join, List.flatMap_def]
    exact congrArg _ hfeed
  have hdeltas := htaken.deltas_iff hcut
  rw [← hshown] at hdeltas
  constructor
  · intro hdecodes
    exact hdeltas.mp hdecodes.deltas
  · intro hkept
    refine ⟨hdeltas.mpr hkept, ?_, ?_⟩
    · have hstring : stringInput (.object fields) = some (String.ofList text.input) := by
        rw [stringInput, JsonValue.get, hinput]
        rfl
      rw [completedCustomToolInput, hparse, Option.bind_some, hstring, Option.getD_some, String.toList_ofList]
    · intro arguments later input input' hstart hlater hpartial hpartial'
      rw [partialCustomToolInput_eq hcloses hcut hparse hinput (hstart.trans hlater)] at hpartial
      rw [partialCustomToolInput_eq hcloses hcut hparse hinput hlater] at hpartial'
      have hshows := shows_of_partialWrapped (hstart.trans hlater) hpartial
      have hshows' := shows_of_partialWrapped hlater hpartial'
      exact ⟨hshows.grows hshows' hstart, hshows'.prefix_input⟩

/-- A JSON library that knows the wrapped input of one call, with or without a space before it. -/
def shortInputCodec : JsonCodec :=
  ⟨fun text => if text = "\x7b\"input\":\"a\"\x7d" ∨ text = " \x7b\"input\":\"a\"\x7d" then
      some (.object [("input", .string "a")]) else none,
    fun _ => "null"⟩

theorem shortInputCodec_closes : ClosesObjects shortInputCodec := by
  intro text rest fields value hwhole hpart
  have hwhole' := Option.ite_none_right_eq_some.mp hwhole
  have hpart' := Option.ite_none_right_eq_some.mp hpart
  refine ⟨?_, ?_⟩
  · exact (Option.some.inj hpart'.2).symm.trans (Option.some.inj hwhole'.2)
  · -- neither of the two texts begins with the other
    have hnil : rest = "" := by
      rcases hwhole'.1 with h | h
      · rw [← String.toList_inj, String.toList_append] at h
        rcases hpart'.1 with rfl | rfl
        · simpa using h
        · simp at h
      · rw [← String.toList_inj, String.toList_append] at h
        rcases hpart'.1 with rfl | rfl
        · simp at h
        · simpa using h
    rw [hnil]
    exact fun c hc => absurd hc List.not_mem_nil

def inputKey : StringText := "input".toList.map fun c => ([c], c)

theorem inputKey_valid : inputKey.Valid := by
  intro char hchar
  obtain ⟨c, hc, rfl⟩ := List.mem_map.mp hchar
  have hplain : ∀ c ∈ "input".toList, c ≠ '"' ∧ c ≠ '\\' ∧ 0x20 ≤ c.toNat := by
    have hall : ("input".toList.all fun c => c ≠ '"' && c ≠ '\\' && 0x20 ≤ c.toNat) = true := by decide
    simpa only [List.all_eq_true, Bool.and_eq_true, decide_eq_true_eq, and_assoc] using hall
  obtain ⟨hquote, hescape, hcontrol⟩ := hplain c hc
  exact .plain c hquote hescape hcontrol

def shortInput (lead : List Char) (h : ∀ c ∈ lead, isJsonWhitespace c = true) : InputText where
  lead := lead
  beforeKey := []
  key := inputKey
  afterKey := []
  beforeValue := []
  value := [(['a'], 'a')]
  tail := ['\x7d']
  blank := by simpa using h
  key_valid := inputKey_valid
  key_spoken := rfl
  value_valid := by
    intro char hchar
    rw [List.mem_singleton.mp hchar]
    exact .plain 'a' (by decide) (by decide) (by decide)

def customCall : ToolCallState :=
  { id := "c1", target := ⟨.custom, none, "shell"⟩, arguments := "", customEmittedInput := "", itemId := "i1",
    outputIndex := 0 }

def parallelCalls : ResponsesStreamState :=
  { ResponsesStreamState.new "r1" "m" 0 ⟨∅, ∅⟩ with
    toolCalls := (AList.insert 1 { customCall with outputIndex := 1 } ∅).insert 0 customCall }

theorem parallel_calls_apart_two :
    ([(1, "x"), (0, " ")].foldl (fun s delta => s.extendToolCall shortInputCodec delta.1 delta.2)
      parallelCalls).deltasOf 0 = (feedFragments shortInputCodec customCall [" "]).2 := by
  refine (@parallel_calls_apart shortInputCodec 0 [(1, "x"), (0, " ")] parallelCalls customCall rfl ?_).2
  simp only [parallelCalls, Table.lookup_insert_eq, Table.lookup_empty]
  grind [customCall]

theorem short_input_deltas_iff :
    DecodesIncrementally shortInputCodec customCall ["\x7b\"inp", "ut\":\"a\"\x7d"] (shortInput [] (by simp)) ↔
      BlankKept (shortInput [] (by simp)) ["\x7b\"inp", "ut\":\"a\"\x7d"] :=
  custom_input_deltas_iff shortInputCodec_closes rfl rfl rfl rfl rfl rfl

/-- A space that comes first is taken for the input. -/
theorem leading_space_shown :
    ¬ ∀ (codec : JsonCodec) (text : InputText) (fragments : List String) (fields : List (String × JsonValue))
        (tc : ToolCallState), ClosesObjects codec → (String.join fragments).toList = text.toList →
        codec.parse (String.join fragments) = some (.object fields) →
        fields.lookup "input" = some (.string (String.ofList text.input)) → tc.target.kind = .custom →
        tc.arguments = "" → tc.customEmittedInput = "" → DecodesIncrementally codec tc fragments text := by
  intro h
  have hdecodes := h shortInputCodec (shortInput [' '] (by simp [isJsonWhitespace])) [" ", "\x7b\"input\":\"a\"\x7d"] _ customCall
    shortInputCodec_closes rfl rfl rfl rfl rfl rfl
  exact absurd hdecodes.deltas (by decide)

end MochiPort

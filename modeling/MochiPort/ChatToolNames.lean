import MochiPort.ChatTools
import MochiPort.ToolCallHistory

namespace MochiPort

open InputState ResponseItem

namespace ToolNameMap

def wantedName (target : ToolCallTarget) : String := providerSafeToolName (preferredName target)

/-- The first of the targets that asks for the name. -/
def claimant (name : String) (targets : List ToolCallTarget) : Option ToolCallTarget :=
  targets.find? fun target => wantedName target = name

/-- The map after a name for each of the targets was asked for. -/
def encodeTargets (sha256 : List UInt8 → Vector UInt8 32) (map : ToolNameMap) (targets : List ToolCallTarget) :
    ToolNameMap := targets.foldl (fun map target => (map.encodeName sha256 target).1) map

section

variable {sha256 : List UInt8 → Vector UInt8 32} {map : ToolNameMap} {targets : List ToolCallTarget}
  {target : ToolCallTarget} {name encoded preferred : String}

theorem suffixedName_ne_short (hname : name.length ≤ 12) (base : String) (target : ToolCallTarget) (counter : Nat) :
    suffixedName base (targetHash sha256 target) counter ≠ name := by
  intro heq
  have hlist := congrArg (fun s => s.toList.length) heq
  have hhash := targetHash_length sha256 target
  have hstem := (suffixStem_length base (providerToolNameMaxLen -
    ("_h" ++ targetHash sha256 target ++ counterDigits counter).length)).1
  have hlength : name.toList.length = name.length := String.length_toList
  simp only [suffixedName_toList, List.length_append, List.length_cons] at hlist
  omega

theorem allocateEncodedName_short {fuel : Nat} (hname : name.length ≤ 12)
    (h : map.allocateEncodedName sha256 preferred target fuel = some encoded) :
    encoded = name ↔ providerSafeToolName preferred = name ∧ map.available target name = true := by
  simp only [allocateEncodedName] at h
  split at h
  next hfits =>
    cases Option.some.inj h
    have havailable := ((Bool.and_eq_true ..).mp hfits).2
    constructor
    · intro heq
      exact ⟨heq, heq ▸ havailable⟩
    · intro hclaims
      exact hclaims.1
  next htaken =>
    obtain ⟨i, _, hencoded, _⟩ := allocateSuffixed_eq_some h
    constructor
    · intro heq
      exact absurd (hencoded.symm.trans heq) (suffixedName_ne_short hname _ target i)
    · rintro ⟨heq, havailable⟩
      have hshort : name.length ≤ providerToolNameMaxLen := by
        have hmax : providerToolNameMaxLen = 64 := rfl
        omega
      rw [heq] at htaken
      exact absurd ((Bool.and_eq_true ..).mpr ⟨decide_eq_true hshort, havailable⟩) htaken

/-- The map knows the targets and no others, and a short name belongs to the first of them that asked for it. -/
structure Claimed (targets : List ToolCallTarget) (map : ToolNameMap) : Prop where
  sound : map.Sound
  known : ∀ target, target ∈ targets ↔ ∃ encoded, map.targetToEncoded.lookup target = some encoded
  owner : ∀ name : String, name.length ≤ 12 → map.encodedToTarget.lookup name = claimant name targets

theorem claimed_empty : Claimed [] empty := by
  refine ⟨sound_empty, fun target => ?_, fun name _ => rfl⟩
  simp [empty]

theorem claimant_append_singleton :
    claimant name (targets ++ [target]) =
      (claimant name targets).or (if wantedName target = name then some target else none) := by
  unfold claimant
  simp

theorem claimant_of_mem (hmem : target ∈ targets) : claimant name (targets ++ [target]) = claimant name targets := by
  rw [claimant_append_singleton]
  by_cases hwants : wantedName target = name
  · have hsome : (claimant name targets).isSome := by
      refine List.find?_isSome.mpr ⟨target, hmem, ?_⟩
      exact decide_eq_true hwants
    exact Option.or_of_isSome hsome
  · rw [if_neg hwants, Option.or_none]

section

variable (sha256) (map)

section

variable (target)

theorem encodeName_cases :
    (∃ encoded, map.targetToEncoded.lookup target = some encoded ∧ map.encodeName sha256 target = (map, encoded)) ∨
      map.targetToEncoded.lookup target = none ∧ ∃ encoded fuel,
        map.allocateEncodedName sha256 (preferredName target) target fuel = some encoded ∧
        map.encodeName sha256 target = (map.insert encoded target, encoded) := by
  cases htarget : map.targetToEncoded.lookup target with
  | some encoded =>
    refine .inl ⟨encoded, rfl, encodeName_eq ?_⟩
    simp [encode, htarget]
  | none =>
    obtain ⟨encoded, hencoded⟩ :=
      Option.isSome_iff_exists.mp (allocateEncodedName_isSome sha256 map (preferredName target) target)
    refine .inr ⟨rfl, encoded, _, hencoded, encodeName_eq ?_⟩
    simp [encode, htarget, hencoded]

theorem encodeName_extends : (map.encodeName sha256 target).1.Extends map := by
  rcases encodeName_cases sha256 map target with ⟨encoded, _, hencode⟩ | ⟨htarget, encoded, _, _, hencode⟩
  · rw [hencode]
    exact .refl map
  · rw [hencode]
    exact extends_insert htarget

theorem encodeName_known :
    (map.encodeName sha256 target).1.targetToEncoded.lookup target = some (map.encodeName sha256 target).2 := by
  rcases encodeName_cases sha256 map target with ⟨encoded, hknown, hencode⟩ | ⟨_, encoded, _, _, hencode⟩
  · rw [hencode]
    exact hknown
  · rw [hencode]
    exact AList.lookup_insert ..

end

theorem encodeTargets_append (first second : List ToolCallTarget) :
    map.encodeTargets sha256 (first ++ second) = (map.encodeTargets sha256 first).encodeTargets sha256 second :=
  List.foldl_append

theorem encodeTargets_extends (targets : List ToolCallTarget) : (map.encodeTargets sha256 targets).Extends map := by
  induction targets generalizing map with
  | nil => exact .refl map
  | cons target targets ih => exact (ih _).trans (encodeName_extends sha256 map target)

end

theorem Claimed.encodeName_step (hc : Claimed targets map) (sha256 : List UInt8 → Vector UInt8 32)
    (target : ToolCallTarget) : Claimed (targets ++ [target]) (map.encodeName sha256 target).1 := by
  have hs := hc.sound
  rcases encodeName_cases sha256 map target with ⟨encoded, hknown, hencode⟩ | ⟨htarget, encoded, _, hencoded, hencode⟩
  · have hmem : target ∈ targets := (hc.known target).mpr ⟨encoded, hknown⟩
    rw [hencode]
    refine ⟨hs, fun t => ?_, fun name hname => ?_⟩
    · rw [← hc.known]
      simp only [List.mem_append, List.mem_singleton]
      exact ⟨fun h => h.elim id fun he => he ▸ hmem, .inl⟩
    · rw [claimant_of_mem hmem]
      exact hc.owner name hname
  · have hfree := hs.free htarget (allocateEncodedName_cases hencoded).1
    have hnew : (map.insert encoded target).targetToEncoded.lookup target = some encoded := AList.lookup_insert ..
    rw [hencode]
    refine ⟨hs.insert htarget hfree, fun t => ?_, fun name hname => ?_⟩
    · by_cases ht : t = target
      · rw [ht]
        simp [hnew]
      · simp only [ToolNameMap.insert, AList.lookup_insert_ne ht, List.mem_append, List.mem_singleton, ht, or_false]
        exact hc.known t
    · have hshort := allocateEncodedName_short hname hencoded
      have hname' := hc.owner name hname
      rw [claimant_append_singleton]
      by_cases he : name = encoded
      · have hwants : wantedName target = name := (hshort.mp he.symm).1
        rw [← hname', he, hfree, if_pos (he ▸ hwants)]
        exact AList.lookup_insert ..
      · have hlookup : (map.insert encoded target).encodedToTarget.lookup name = map.encodedToTarget.lookup name :=
          AList.lookup_insert_ne he
        rw [hlookup, hname']
        by_cases hwants : wantedName target = name
        · -- somebody else has the name already
          cases howner : claimant name targets with
          | some owner => rfl
          | none =>
            have havailable : map.available target name = true := by
              rw [available, hname', howner]
              rfl
            exact absurd (hshort.mpr ⟨hwants, havailable⟩).symm he
        · rw [if_neg hwants, Option.or_none]

theorem Claimed.encodeTargets_run (hc : Claimed targets map) (sha256 : List UInt8 → Vector UInt8 32)
    (later : List ToolCallTarget) : Claimed (targets ++ later) (map.encodeTargets sha256 later) := by
  induction later generalizing targets map with
  | nil =>
    rw [List.append_nil]
    exact hc
  | cons target later ih =>
    have hlast := ih (hc.encodeName_step sha256 target)
    rwa [List.append_assoc] at hlast

end

end ToolNameMap

def ResponseItem.callTarget (item : ResponseItem) : Option ToolCallTarget :=
  match item.itemType with
  | .functionCall => some (.ofFunction item.nameSpace (item.name.getD ""))
  | .toolSearchCall => some .toolSearch
  | .customToolCall => some (.custom (item.name.getD ""))
  | _ => none

def historyTargets (items : List ResponseItem) : List ToolCallTarget := items.filterMap callTarget

section

variable {ext : RequestExternals} {item : ResponseItem} {items run : List ResponseItem} {s s' : InputState}

open ToolNameMap

theorem historyTargets_cons (item : ResponseItem) (items : List ResponseItem) :
    historyTargets (item :: items) = item.callTarget.toList ++ historyTargets items := by
  unfold historyTargets
  cases htarget : item.callTarget with
  | none =>
    rw [List.filterMap_cons_none htarget]
    rfl
  | some target =>
    rw [List.filterMap_cons_some htarget]
    rfl

theorem historyTargets_append (items items' : List ResponseItem) :
    historyTargets (items ++ items') = historyTargets items ++ historyTargets items' := List.filterMap_append

theorem callTarget_of_not_call (h : item.isAssistantToolCallItem = false) : item.callTarget = none := by
  unfold isAssistantToolCallItem at h
  unfold callTarget
  cases htype : item.itemType with
  | functionCall | toolSearchCall | customToolCall => simp [htype] at h
  | _ => rfl

section

variable (ext)

theorem buildFunctionToolCall_map (item : ResponseItem) (index : Nat) (map : ToolNameMap) :
    (buildFunctionToolCall ext item index map).1 = map.encodeTargets ext.sha256 item.callTarget.toList := by
  unfold buildFunctionToolCall callTarget
  cases item.itemType with
  | _ => rfl

theorem addToolCall_map (s : InputState) (toolCalls : List FunctionToolCall) (item : ResponseItem) :
    (addToolCall ext (s, toolCalls) item).1.toolNameMap =
      s.toolNameMap.encodeTargets ext.sha256 item.callTarget.toList := by
  have hmap := buildFunctionToolCall_map ext item toolCalls.length s.toolNameMap
  unfold addToolCall
  dsimp only
  rw [← hmap]
  split
  next hbuild =>
    rw [hbuild]
    rfl
  next hbuild =>
    rw [hbuild]
    rfl

theorem foldl_addToolCall_map (run : List ResponseItem) (start : InputState × List FunctionToolCall) :
    (run.foldl (addToolCall ext) start).1.toolNameMap =
      start.1.toolNameMap.encodeTargets ext.sha256 (historyTargets run) := by
  induction run generalizing start with
  | nil => rfl
  | cons item run ih =>
    rw [List.foldl_cons, ih, historyTargets_cons, encodeTargets_append, ← addToolCall_map ext start.1 start.2]

theorem addToolCalls_map (s : InputState) (run : List ResponseItem) :
    (s.addToolCalls ext run).1.toolNameMap = s.toolNameMap.encodeTargets ext.sha256 (historyTargets run) :=
  foldl_addToolCall_map ext run (s, [])

theorem convertFunctionCalls_map (s : InputState) (run : List ResponseItem) :
    (s.convertFunctionCalls ext run).toolNameMap = s.toolNameMap.encodeTargets ext.sha256 (historyTargets run) := by
  rw [← addToolCalls_map]
  unfold convertFunctionCalls
  dsimp only
  split
  next => rfl
  next => rfl

end

theorem convertToolOutput_map {codec : JsonCodec} {index : Nat} (h : s.convertToolOutput codec item index = .ok s') :
    s'.toolNameMap = s.toolNameMap := by
  unfold convertToolOutput at h
  dsimp only at h
  split at h
  next =>
    cases h
    rfl
  next =>
    split at h
    next => cases h
    next =>
      split at h
      next =>
        cases h
        rfl
      next =>
        cases h
        rfl

theorem convertReasoningWithFollowing_map (ext : RequestExternals) (s : InputState) (items : List ResponseItem)
    (htype : item.itemType = .reasoning) :
    ∃ chunk, item :: items = chunk ++ (s.convertReasoningWithFollowing ext item items).2 ∧ chunk ≠ [] ∧
      (s.convertReasoningWithFollowing ext item items).1.toolNameMap =
        s.toolNameMap.encodeTargets ext.sha256 (historyTargets chunk) := by
  have hitem : item.callTarget = none := by rw [callTarget, htype]
  have halone : historyTargets [item] = [] := by rw [historyTargets_cons, hitem]; rfl
  unfold convertReasoningWithFollowing
  cases items with
  | nil => exact ⟨[item], rfl, List.cons_ne_nil _ _, by rw [halone]; rfl⟩
  | cons next rest =>
    dsimp only
    by_cases hnext : next.isAssistantToolCallItem = true
    · rw [if_pos hnext]
      refine ⟨item :: (next :: rest).takeWhile isAssistantToolCallItem, ?_, List.cons_ne_nil _ _, ?_⟩
      · rw [List.cons_append, List.takeWhile_append_dropWhile]
      · rw [historyTargets_cons, hitem, Option.toList_none, List.nil_append, ← addToolCalls_map]
        generalize ({ role := "assistant", toolCalls := _, reasoningContent := _ } : ChatRequestMessage) = message
        by_cases hdrop : shouldDropMessageAfterToolFiltering message = true
        · rw [if_pos hdrop]
        · rw [if_neg hdrop]
          rfl
    · rw [if_neg hnext]
      have hnext' := callTarget_of_not_call (Bool.eq_false_iff.mpr hnext)
      by_cases hassistant : (next.itemType = .message ∨ next.itemType = .inputText) ∧ next.role = some "assistant"
      · rw [if_pos hassistant]
        refine ⟨[item, next], rfl, List.cons_ne_nil _ _, ?_⟩
        rw [historyTargets_cons, hitem, historyTargets_cons, hnext']
        rfl
      · rw [if_neg hassistant]
        exact ⟨[item], rfl, List.cons_ne_nil _ _, by rw [halone]; rfl⟩

theorem convertInputToMessages_asks {fuel index : Nat}
    (h : convertInputToMessages ext (fuel + 1) index (item :: items) s = .ok s') :
    ∃ chunk rest index' s₁, item :: items = chunk ++ rest ∧ chunk ≠ [] ∧
      s₁.toolNameMap = s.toolNameMap.encodeTargets ext.sha256 (historyTargets chunk) ∧
      convertInputToMessages ext fuel index' rest s₁ = .ok s' := by
  have hplain : ∀ s₁ : InputState, item.callTarget = none → s₁.toolNameMap = s.toolNameMap →
      convertInputToMessages ext fuel (index + 1) items s₁ = .ok s' →
      ∃ chunk rest index' s₁, item :: items = chunk ++ rest ∧ chunk ≠ [] ∧
        s₁.toolNameMap = s.toolNameMap.encodeTargets ext.sha256 (historyTargets chunk) ∧
        convertInputToMessages ext fuel index' rest s₁ = .ok s' := by
    intro s₁ hitem hmap hrest
    refine ⟨[item], items, index + 1, s₁, rfl, List.cons_ne_nil _ _, ?_, hrest⟩
    rw [hmap, historyTargets_cons, hitem]
    rfl
  have hcalls : item.isAssistantToolCallItem = true →
      convertInputToMessages ext fuel
        (index + ((item :: items).takeWhile isAssistantToolCallItem).length)
        ((item :: items).dropWhile isAssistantToolCallItem)
        (s.convertFunctionCalls ext ((item :: items).takeWhile isAssistantToolCallItem)) = .ok s' →
      ∃ chunk rest index' s₁, item :: items = chunk ++ rest ∧ chunk ≠ [] ∧
        s₁.toolNameMap = s.toolNameMap.encodeTargets ext.sha256 (historyTargets chunk) ∧
        convertInputToMessages ext fuel index' rest s₁ = .ok s' := by
    intro hcall hrest
    refine ⟨_, _, _, _, (List.takeWhile_append_dropWhile).symm, ?_, convertFunctionCalls_map ext s _, hrest⟩
    rw [List.takeWhile_cons_of_pos hcall]
    exact List.cons_ne_nil _ _
  have houtput : item.callTarget = none →
      (s.convertToolOutput ext.codec item index).bind
        (convertInputToMessages ext fuel (index + 1) items) = .ok s' →
      ∃ chunk rest index' s₁, item :: items = chunk ++ rest ∧ chunk ≠ [] ∧
        s₁.toolNameMap = s.toolNameMap.encodeTargets ext.sha256 (historyTargets chunk) ∧
        convertInputToMessages ext fuel index' rest s₁ = .ok s' := by
    intro hitem hrest
    cases hfirst : s.convertToolOutput ext.codec item index with
    | error message =>
      rw [hfirst] at hrest
      cases hrest
    | ok s₁ =>
      rw [hfirst] at hrest
      exact hplain s₁ hitem (convertToolOutput_map hfirst) hrest
  unfold convertInputToMessages at h
  cases htype : item.itemType with
  | message | inputText =>
    simp only [htype] at h
    exact hplain (s.push _) (by rw [callTarget, htype]) rfl h
  | inputImage =>
    simp only [htype] at h
    refine hplain _ (by rw [callTarget, htype]) ?_ h
    split
    next => rfl
    next => rfl
  | reasoning =>
    simp only [htype] at h
    obtain ⟨chunk, hsplit, hne, hmap⟩ := convertReasoningWithFollowing_map ext s items htype
    exact ⟨chunk, _, _, _, hsplit, hne, hmap, h⟩
  | functionCall | toolSearchCall | customToolCall | webSearchCall | imageGenerationCall =>
    simp only [htype] at h
    exact hcalls (by rw [isAssistantToolCallItem, htype]) h
  | functionCallOutput | toolSearchOutput | customToolCallOutput =>
    simp only [htype] at h
    exact houtput (by rw [callTarget, htype]) h
  | outputText | unknown =>
    simp only [htype] at h
    exact hplain s (by rw [callTarget, htype]) rfl h

theorem convertInputToMessages_map {fuel index : Nat} (hfuel : items.length ≤ fuel)
    (h : convertInputToMessages ext fuel index items s = .ok s') :
    s'.toolNameMap = s.toolNameMap.encodeTargets ext.sha256 (historyTargets items) := by
  induction fuel generalizing index items s with
  | zero =>
    have hnil : items = [] := List.length_eq_zero_iff.mp (by omega)
    subst hnil
    cases h
    rfl
  | succ fuel ih =>
    cases items with
    | nil =>
      cases h
      rfl
    | cons item items =>
      obtain ⟨chunk, rest, index', s₁, hsplit, hne, hmap, hrest⟩ := convertInputToMessages_asks h
      have hlength := congrArg List.length hsplit
      have hpos := List.length_pos_iff.mpr hne
      rw [List.length_append] at hlength
      rw [hsplit, historyTargets_append, encodeTargets_append, ← hmap]
      exact ih (by omega) hrest

end

end MochiPort

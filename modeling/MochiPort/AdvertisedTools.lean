import MochiPort.ChatToolNames

namespace MochiPort

open Option ToolCallTarget ToolNameMap

/-- The name of a function tool, which may stand in its `function`. -/
def functionName (tool : List (String × JsonValue)) : Option String :=
  (((((tool.lookup "function").bind JsonValue.asObject).getD []).lookup "name").or (tool.lookup "name")).bind
    JsonValue.asStr

def functionTarget (nameSpace : Option String) (tool : List (String × JsonValue)) : Option ToolCallTarget :=
  (functionName tool).map (ofFunction nameSpace)

def namespaceItemTargets (nameSpace : String) (item : JsonValue) : List ToolCallTarget :=
  match item.asObject with
  | none => []
  | some fields => if typeIs fields "function" then (functionTarget (some nameSpace) fields).toList else []

def toolTargets (tool : JsonValue) : List ToolCallTarget :=
  match tool.asObject with
  | none => []
  | some fields =>
    match (fields.lookup "type").bind JsonValue.asStr with
    | some "namespace" =>
      (((fields.lookup "tools").bind JsonValue.asArray).getD []).flatMap
        (namespaceItemTargets (((fields.lookup "name").bind JsonValue.asStr).getD ""))
    | some "function" => (functionTarget none fields).toList
    | some "tool_search" => [.toolSearch]
    | some "custom" => (((fields.lookup "name").bind JsonValue.asStr).map custom).toList
    | _ => []

/-- What the request declares, in the order of its tools; those that a search brought come last. -/
def ToolsRequest.declaredTargets (request : ToolsRequest) : List ToolCallTarget :=
  (request.tools ++ toolSearchOutputTools request.input).flatMap toolTargets

/-- The tool has the name that the map gives to what it declares; the search tool has its own name. -/
def ChatTool.NamedBy (map : ToolNameMap) (tool : ChatTool) : Prop :=
  ∃ encoded, map.targetToEncoded.lookup tool.declared = some encoded ∧
    tool.name = some (if tool.declared = .toolSearch then toolSearchName else encoded)

theorem ChatTool.NamedBy.extends {map next : ToolNameMap} {tool : ChatTool} (h : tool.NamedBy map)
    (hextends : next.Extends map) : tool.NamedBy next := by
  obtain ⟨encoded, hknown, hname⟩ := h
  exact ⟨encoded, hextends _ _ hknown, hname⟩

/-- The tools of the targets were built, and the map asked for their names. -/
structure Builds (sha256 : List UInt8 → Vector UInt8 32) (targets : List ToolCallTarget) (map : ToolNameMap)
    (built : ToolNameMap × List ChatTool) : Prop where
  map_eq : built.1 = map.encodeTargets sha256 targets
  declared : built.2.map ChatTool.declared = targets
  named : ∀ tool ∈ built.2, tool.NamedBy built.1

section

variable {sha256 : List UInt8 → Vector UInt8 32} {map : ToolNameMap}

theorem Builds.nil (sha256 : List UInt8 → Vector UInt8 32) (map : ToolNameMap) : Builds sha256 [] map (map, []) :=
  ⟨rfl, rfl, fun _ htool => absurd htool List.not_mem_nil⟩

theorem Builds.append {targets targets' : List ToolCallTarget} {next last : ToolNameMap} {tools tools' : List ChatTool}
    (h : Builds sha256 targets map (next, tools)) (h' : Builds sha256 targets' next (last, tools')) :
    Builds sha256 (targets ++ targets') map (last, tools ++ tools') := by
  have hnext : next = map.encodeTargets sha256 targets := h.map_eq
  have hlast : last = next.encodeTargets sha256 targets' := h'.map_eq
  refine ⟨?_, ?_, fun tool htool => ?_⟩
  · rw [encodeTargets_append, ← hnext]
    exact hlast
  · rw [List.map_append, h.declared, h'.declared]
  · rcases List.mem_append.mp htool with htool | htool
    · exact (h.named tool htool).extends (hlast ▸ encodeTargets_extends sha256 next targets')
    · exact h'.named tool htool

theorem Builds.one (sha256 : List UInt8 → Vector UInt8 32) (map : ToolNameMap) {target : ToolCallTarget}
    {tool : ChatTool} (hdeclared : tool.declared = target) (hname : tool.name =
      some (if target = .toolSearch then toolSearchName else (map.encodeName sha256 target).2)) :
    Builds sha256 [target] map ((map.encodeName sha256 target).1, [tool]) := by
  refine ⟨rfl, congrArg (fun t => [t]) hdeclared, fun t ht => ?_⟩
  rw [List.mem_singleton.mp ht]
  exact ⟨_, hdeclared ▸ encodeName_known sha256 map target, hdeclared.symm ▸ hname⟩

theorem buildInTurn_builds {α : Type*} {build : α → ToolNameMap → ToolNameMap × List ChatTool}
    {targetsOf : α → List ToolCallTarget} (hbuild : ∀ value map, Builds sha256 (targetsOf value) map (build value map))
    (values : List α) (map : ToolNameMap) :
    Builds sha256 (values.flatMap targetsOf) map (buildInTurn build values map) := by
  induction values generalizing map with
  | nil => exact .nil sha256 map
  | cons value values ih =>
    exact (hbuild value map).append (ih _)

theorem lookup_fillMember_of_ne {key k : String} (hne : k ≠ key) (tool function : List (String × JsonValue)) :
    (fillMember key tool function).lookup k = function.lookup k := by
  unfold fillMember
  split
  next => rfl
  next =>
    split
    next => exact lookup_insertField_of_ne _ hne
    next => rfl

theorem lookup_fillMember (key : String) (tool function : List (String × JsonValue)) :
    (fillMember key tool function).lookup key = (function.lookup key).or (tool.lookup key) := by
  unfold fillMember
  split
  next hsome => exact (or_of_isSome hsome).symm
  next hnone =>
    rw [not_isSome_iff_eq_none.mp hnone, none_or]
    split
    next value hvalue =>
      rw [hvalue]
      exact lookup_insertField_self value
    next hmissing => rw [hmissing, not_isSome_iff_eq_none.mp hnone]

section

variable (sha256)

section

variable (tool : List (String × JsonValue))

theorem buildChatFunctionObject_builds (nameSpace : Option String) (map : ToolNameMap) :
    Builds sha256 (functionTarget nameSpace tool).toList map
      ((buildChatFunctionObject sha256 tool nameSpace map).1,
        (buildChatFunctionObject sha256 tool nameSpace map).2.toList) := by
  unfold buildChatFunctionObject
  dsimp only
  rw [lookup_insertField_of_ne _ (by decide), lookup_removeField_of_ne (by decide),
    lookup_fillMember_of_ne (by decide), lookup_fillMember_of_ne (by decide), lookup_fillMember_of_ne (by decide),
    lookup_fillMember, functionTarget, functionName]
  cases ((((((tool.lookup "function").bind JsonValue.asObject).getD []).lookup "name").or (tool.lookup "name")).bind
    JsonValue.asStr) with
  | none => exact .nil sha256 map
  | some name =>
    refine .one sha256 map rfl ?_
    have hne : ofFunction nameSpace name ≠ .toolSearch := by
      intro he
      cases congrArg kind he
    rw [if_neg hne, ChatTool.name, lookup_insertField_self]
    rfl

theorem buildChatToolSearchObject_builds (map : ToolNameMap) :
    Builds sha256 [.toolSearch] map
      ((buildChatToolSearchObject sha256 tool map).1, (buildChatToolSearchObject sha256 tool map).2.toList) :=
  .one sha256 map rfl rfl

theorem buildChatCustomToolObject_builds (map : ToolNameMap) :
    Builds sha256 (((tool.lookup "name").bind JsonValue.asStr).map custom).toList map
      ((buildChatCustomToolObject sha256 tool map).1, (buildChatCustomToolObject sha256 tool map).2.toList) := by
  unfold buildChatCustomToolObject
  cases (tool.lookup "name").bind JsonValue.asStr with
  | none => exact .nil sha256 map
  | some name =>
    refine .one sha256 map rfl ?_
    rfl

end

theorem convertNamespaceItem_builds (nameSpace : String) (item : JsonValue) (map : ToolNameMap) :
    Builds sha256 (namespaceItemTargets nameSpace item) map (convertNamespaceItem sha256 nameSpace item map) := by
  unfold namespaceItemTargets convertNamespaceItem
  cases item.asObject with
  | none => exact .nil sha256 map
  | some fields =>
    dsimp only
    by_cases hfunction : typeIs fields "function" = true
    · rw [if_pos hfunction, if_pos hfunction]
      exact buildChatFunctionObject_builds sha256 fields (some nameSpace) map
    · rw [if_neg hfunction, if_neg hfunction]
      exact .nil sha256 map

end

theorem toolTargets_eq {tool : JsonValue} {fields : List (String × JsonValue)} {itemType : Option String}
    (hobject : tool.asObject = some fields) : (fields.lookup "type").bind JsonValue.asStr = itemType →
    toolTargets tool =
      match itemType with
      | some "namespace" =>
        (((fields.lookup "tools").bind JsonValue.asArray).getD []).flatMap
          (namespaceItemTargets (((fields.lookup "name").bind JsonValue.asStr).getD ""))
      | some "function" => (functionTarget none fields).toList
      | some "tool_search" => [.toolSearch]
      | some "custom" => (((fields.lookup "name").bind JsonValue.asStr).map custom).toList
      | _ => [] := by
  rintro rfl
  unfold toolTargets
  rw [hobject]

section

variable (sha256)

theorem convertTool_builds (tool : JsonValue) (map : ToolNameMap) :
    Builds sha256 (toolTargets tool) map (convertTool sha256 tool map) := by
  unfold convertTool
  cases hobject : tool.asObject with
  | none =>
    have hnone : toolTargets tool = [] := by simp only [toolTargets, hobject]
    rw [hnone]
    exact .nil sha256 map
  | some fields =>
    dsimp only
    split
    next htype =>
      rw [toolTargets_eq hobject htype]
      exact buildInTurn_builds (convertNamespaceItem_builds sha256 _) _ map
    next htype =>
      rw [toolTargets_eq hobject htype]
      exact buildChatFunctionObject_builds sha256 fields none map
    next htype =>
      rw [toolTargets_eq hobject htype]
      exact buildChatToolSearchObject_builds sha256 fields map
    next htype =>
      rw [toolTargets_eq hobject htype]
      exact buildChatCustomToolObject_builds sha256 fields map
    next hnamespace hfunction hsearch hcustom =>
      rw [toolTargets_eq hobject rfl]
      split
      next htype => exact absurd htype hnamespace
      next htype => exact absurd htype hfunction
      next htype => exact absurd htype hsearch
      next htype => exact absurd htype hcustom
      next => exact .nil sha256 map

theorem convertToolChoiceToChat_map (toolChoice : JsonValue) (map : ToolNameMap) :
    ∃ targets, (convertToolChoiceToChat sha256 toolChoice map).1 = map.encodeTargets sha256 targets := by
  unfold convertToolChoiceToChat
  cases toolChoice.asObject with
  | none => exact ⟨[], rfl⟩
  | some fields =>
    dsimp only
    cases (fields.lookup "mode").bind JsonValue.asStr with
    | some mode => exact ⟨[], rfl⟩
    | none =>
      dsimp only
      by_cases hfunction : typeIs fields "function" = true
      · rw [if_pos hfunction]
        generalize (((fields.lookup "namespace").bind JsonValue.asStr).filter fun value => RustText.trim value ≠ "") =
          nameSpace
        refine ⟨(functionTarget nameSpace fields).toList, ?_⟩
        rw [← (buildChatFunctionObject_builds sha256 fields nameSpace map).map_eq]
        split
        next hbuild => rw [hbuild]
        next hbuild => rw [hbuild]
      · rw [if_neg hfunction]
        by_cases hsearch : typeIs fields "tool_search" = true
        · rw [if_pos hsearch]
          exact ⟨[.toolSearch], rfl⟩
        · rw [if_neg hsearch]
          by_cases hcustom : typeIs fields "custom" = true
          · rw [if_pos hcustom]
            cases (fields.lookup "name").bind JsonValue.asStr with
            | some name => exact ⟨[.custom name], rfl⟩
            | none => exact ⟨[], rfl⟩
          · rw [if_neg hcustom]
            exact ⟨[], rfl⟩

end

end

section

variable {tools : List ChatTool} {seenNames : List String}

theorem mem_firstOfName {tool : ChatTool} :
    tool ∈ firstOfName seenNames tools ↔ ∃ before after, tools = before ++ tool :: after ∧
      ∀ name, tool.name = some name → name ∉ seenNames ∧ ∀ earlier ∈ before, earlier.name ≠ some name := by
  induction tools generalizing seenNames with
  | nil => simp [firstOfName]
  | cons first tools ih =>
    have hsplit : (∃ before after, first :: tools = before ++ tool :: after ∧
        ∀ name, tool.name = some name → name ∉ seenNames ∧ ∀ earlier ∈ before, earlier.name ≠ some name) ↔
        (tool = first ∧ ∀ name, tool.name = some name → name ∉ seenNames) ∨
          ∃ before after, tools = before ++ tool :: after ∧ ∀ name, tool.name = some name →
            name ∉ seenNames ∧ first.name ≠ some name ∧ ∀ earlier ∈ before, earlier.name ≠ some name := by
      constructor
      · rintro ⟨before, after, htools, hnames⟩
        cases before with
        | nil =>
          obtain ⟨rfl, rfl⟩ := List.cons.inj htools
          exact .inl ⟨rfl, fun name hname => (hnames name hname).1⟩
        | cons b before =>
          obtain ⟨rfl, rfl⟩ := List.cons.inj htools
          refine .inr ⟨before, after, rfl, fun name hname => ?_⟩
          obtain ⟨hfree, hearlier⟩ := hnames name hname
          exact ⟨hfree, hearlier _ List.mem_cons_self, fun e he => hearlier e (List.mem_cons_of_mem _ he)⟩
      · rintro (⟨rfl, hnames⟩ | ⟨before, after, rfl, hnames⟩)
        · exact ⟨[], tools, rfl, fun name hname => ⟨hnames name hname, fun e he => absurd he List.not_mem_nil⟩⟩
        · refine ⟨first :: before, after, rfl, fun name hname => ?_⟩
          obtain ⟨hfree, hfirst, hearlier⟩ := hnames name hname
          exact ⟨hfree, List.forall_mem_cons.mpr ⟨hfirst, hearlier⟩⟩
    rw [hsplit, firstOfName]
    cases hfirst : first.name with
    | none =>
      simp only [List.mem_cons, ih]
      constructor
      · rintro (rfl | ⟨before, after, htools, hnames⟩)
        · exact .inl ⟨rfl, fun name hname => absurd (hfirst.symm.trans hname) (by simp)⟩
        · refine .inr ⟨before, after, htools, fun name hname => ?_⟩
          exact ⟨(hnames name hname).1, by simp, (hnames name hname).2⟩
      · rintro (⟨rfl, _⟩ | ⟨before, after, htools, hnames⟩)
        · exact .inl rfl
        · exact .inr ⟨before, after, htools, fun name hname => ⟨(hnames name hname).1, (hnames name hname).2.2⟩⟩
    | some name =>
      dsimp only
      by_cases hseen : name ∈ seenNames
      · rw [if_pos hseen, ih]
        constructor
        · rintro ⟨before, after, htools, hnames⟩
          refine .inr ⟨before, after, htools, fun n hn => ?_⟩
          obtain ⟨hfree, hearlier⟩ := hnames n hn
          exact ⟨hfree, fun he => hfree (Option.some.inj he ▸ hseen), hearlier⟩
        · rintro (⟨rfl, hnames⟩ | ⟨before, after, htools, hnames⟩)
          · exact absurd hseen (hnames name hfirst)
          · exact ⟨before, after, htools, fun n hn => ⟨(hnames n hn).1, (hnames n hn).2.2⟩⟩
      · rw [if_neg hseen, List.mem_cons, ih]
        constructor
        · rintro (rfl | ⟨before, after, htools, hnames⟩)
          · refine .inl ⟨rfl, fun n hn => ?_⟩
            rw [hfirst] at hn
            exact Option.some.inj hn ▸ hseen
          · refine .inr ⟨before, after, htools, fun n hn => ?_⟩
            obtain ⟨hfree, hearlier⟩ := hnames n hn
            have hne := List.ne_of_not_mem_cons hfree
            exact ⟨List.not_mem_of_not_mem_cons hfree, fun he => hne (Option.some.inj he).symm, hearlier⟩
        · rintro (⟨rfl, _⟩ | ⟨before, after, htools, hnames⟩)
          · exact .inl rfl
          · refine .inr ⟨before, after, htools, fun n hn => ?_⟩
            obtain ⟨hfree, hne, hearlier⟩ := hnames n hn
            exact ⟨List.not_mem_cons_of_ne_of_not_mem (fun he => hne (congrArg some he.symm)) hfree, hearlier⟩

theorem firstOfName_nodup (seenNames : List String) (tools : List ChatTool) :
    ((firstOfName seenNames tools).filterMap ChatTool.name).Nodup := by
  induction tools generalizing seenNames with
  | nil => exact List.nodup_nil
  | cons tool tools ih =>
    rw [firstOfName]
    cases hname : tool.name with
    | none =>
      rw [List.filterMap_cons_none hname]
      exact ih seenNames
    | some name =>
      dsimp only
      by_cases hseen : name ∈ seenNames
      · rw [if_pos hseen]
        exact ih seenNames
      · rw [if_neg hseen, List.filterMap_cons_some hname]
        refine List.nodup_cons.mpr ⟨fun hmem => ?_, ih _⟩
        obtain ⟨later, hlater, hsame⟩ := List.mem_filterMap.mp hmem
        obtain ⟨_, _, _, hnames⟩ := mem_firstOfName.mp hlater
        exact (hnames name hsame).1 List.mem_cons_self

end

/-- The names of the advertised tools are distinct, and each decodes to what its tool was declared as. -/
structure DecodesTools (request : ToolsRequest) (body : ChatBody) (toolNameMap : ToolNameMap) : Prop where
  distinct : (body.tools.filterMap ChatTool.name).Nodup
  declared : ∀ tool ∈ body.tools, tool.declared ∈ request.declaredTargets
  decodes : ∀ tool ∈ body.tools, ∃ name, tool.name = some name ∧ toolNameMap.decode name = tool.declared

/-- The first call of the history that asks for the name of the search tool is a search, or there is no search tool, or
the tool of the call comes before it. -/
def SearchNameKept (request : ToolsRequest) : Prop :=
  ∀ target, claimant toolSearchName (historyTargets request.input) = some target →
    target = .toolSearch ∨ .toolSearch ∉ request.declaredTargets ∨
      target ∈ request.declaredTargets.takeWhile (· ≠ .toolSearch)

section

variable {map : ToolNameMap} {tool : ChatTool} {tools : List ChatTool} {history declared later : List ToolCallTarget}
  {owner : ToolCallTarget}

/-- What is known of the tools when all names have been asked for. -/
structure Advertised (history declared later : List ToolCallTarget) (tools : List ChatTool) (map : ToolNameMap) :
    Prop where
  claimed : Claimed (history ++ declared ++ later) map
  declared_eq : tools.map ChatTool.declared = declared
  named : ∀ tool ∈ tools, tool.NamedBy map

section

variable (ha : Advertised history declared later tools map)
include ha

theorem Advertised.decode_other (htool : tool ∈ tools)
    (hne : tool.declared ≠ .toolSearch) : ∃ name, tool.name = some name ∧ map.decode name = tool.declared := by
  obtain ⟨encoded, hknown, hname⟩ := ha.named tool htool
  rw [if_neg hne] at hname
  exact ⟨encoded, hname, ha.claimed.sound.decode hknown⟩

theorem Advertised.name_search (htool : tool ∈ tools)
    (hsearch : tool.declared = .toolSearch) : tool.name = some toolSearchName := by
  obtain ⟨encoded, _, hname⟩ := ha.named tool htool
  rwa [if_pos hsearch] at hname

omit ha in
theorem wantedName_toolSearch : wantedName .toolSearch = toolSearchName := by decide

theorem Advertised.owner_eq (hsearch : toolSearch ∈ declared) :
    ∃ owner, claimant toolSearchName (history ++ declared) = some owner ∧
      map.encodedToTarget.lookup toolSearchName = some owner := by
  have hsome : (claimant toolSearchName (history ++ declared)).isSome := by
    refine List.find?_isSome.mpr ⟨.toolSearch, List.mem_append_right _ hsearch, ?_⟩
    exact decide_eq_true wantedName_toolSearch
  obtain ⟨owner, howner⟩ := isSome_iff_exists.mp hsome
  refine ⟨owner, howner, ?_⟩
  rw [ha.claimed.owner toolSearchName (by decide), claimant, List.find?_append]
  unfold claimant at howner
  rw [howner, some_or]

theorem Advertised.name_eq_iff (howner : map.encodedToTarget.lookup toolSearchName = some owner) (htool : tool ∈ tools)
    (hne : tool.declared ≠ .toolSearch) : tool.name = some toolSearchName ↔ tool.declared = owner := by
  obtain ⟨encoded, hknown, hname⟩ := ha.named tool htool
  rw [if_neg hne] at hname
  have hpaired := ha.claimed.sound.paired
  rw [hname]
  constructor
  · intro heq
    have hlookup := (hpaired tool.declared encoded).mp hknown
    rw [Option.some.inj heq, howner] at hlookup
    exact (Option.some.inj hlookup).symm
  · intro heq
    have hlookup := (hpaired owner toolSearchName).mpr howner
    rw [← heq, hknown] at hlookup
    exact hlookup

omit ha in
theorem decode_of_owner (howner : map.encodedToTarget.lookup toolSearchName = some owner) :
    map.decode toolSearchName = owner := by
  rw [ToolNameMap.decode, howner]
  rfl

omit ha in
theorem owner_before {before : List ToolCallTarget} {after : List ToolCallTarget}
    (howner : claimant toolSearchName (history ++ (before ++ .toolSearch :: after)) = some owner)
    (hne : owner ≠ .toolSearch) (hkept : ∀ target, claimant toolSearchName history = some target →
      target = .toolSearch ∨ .toolSearch ∉ before ++ .toolSearch :: after ∨
        target ∈ (before ++ .toolSearch :: after).takeWhile (· ≠ .toolSearch)) : owner ∈ before := by
  unfold claimant at howner hkept
  rw [List.find?_append] at howner
  cases hhistory : history.find? fun target => wantedName target = toolSearchName with
  | some target =>
    rw [hhistory, some_or] at howner
    cases Option.some.inj howner
    rcases hkept owner hhistory with hsearch | hnone | hmem
    · exact absurd hsearch hne
    · exact absurd (List.mem_append_right before List.mem_cons_self) hnone
    · rw [List.takeWhile_append] at hmem
      split at hmem
      next => simpa using hmem
      next => exact (List.takeWhile_sublist _).subset hmem
  | none =>
    rw [hhistory, none_or, List.find?_append] at howner
    cases hbefore : before.find? fun target => wantedName target = toolSearchName with
    | some target =>
      rw [hbefore, some_or] at howner
      cases Option.some.inj howner
      exact List.mem_of_find?_eq_some hbefore
    | none =>
      rw [hbefore, none_or, List.find?_cons_of_pos] at howner
      · exact absurd (Option.some.inj howner).symm hne
      · exact decide_eq_true wantedName_toolSearch

theorem Advertised.decodes_iff :
    (∀ tool ∈ firstOfName [] tools, ∃ name, tool.name = some name ∧ map.decode name = tool.declared) ↔
      ∀ target, claimant toolSearchName history = some target →
        target = .toolSearch ∨ .toolSearch ∉ declared ∨ target ∈ declared.takeWhile (· ≠ .toolSearch) := by
  have hdeclared := ha.declared_eq
  constructor
  · intro hdecodes target htarget
    by_contra hlost
    push Not at hlost
    obtain ⟨hne, hsearch, hlate⟩ := hlost
    obtain ⟨owner, hclaimant, howner⟩ := ha.owner_eq hsearch
    have htarget' : owner = target := by
      unfold claimant at hclaimant htarget
      rw [List.find?_append, htarget, some_or] at hclaimant
      exact (Option.some.inj hclaimant).symm
    subst htarget'
    -- the first search tool: none of the tools before it has its name
    obtain ⟨before, rest, hsplit, habsent⟩ := List.eq_append_cons_of_mem hsearch
    have hbefore : before = declared.takeWhile (· ≠ .toolSearch) := by
      have hall : ∀ target ∈ before, decide (target ≠ toolSearch) = true := fun target hmem =>
        decide_eq_true fun he => habsent (he ▸ hmem)
      rw [hsplit, List.takeWhile_append_of_pos hall, List.takeWhile_cons_of_neg (by simp), List.append_nil]
    rw [hsplit] at hdeclared
    obtain ⟨first, others, htools, hfirst, hothers⟩ := List.map_eq_append_iff.mp hdeclared
    obtain ⟨search, after, hcons, hsearchTool, hafter⟩ := List.map_eq_cons_iff.mp hothers
    rw [hcons] at htools
    have hmem : search ∈ tools := by
      rw [htools]
      exact List.mem_append_right _ List.mem_cons_self
    have hname := ha.name_search hmem hsearchTool
    have hkept : search ∈ firstOfName [] tools := by
      refine mem_firstOfName.mpr ⟨first, after, htools, fun name hn => ⟨List.not_mem_nil, fun earlier hearlier => ?_⟩⟩
      rw [hname] at hn
      rw [← Option.some.inj hn]
      have hmem' : earlier.declared ∈ declared.takeWhile (· ≠ .toolSearch) := by
        rw [← hbefore, ← hfirst]
        exact List.mem_map_of_mem hearlier
      have hearlier' : earlier ∈ tools := by
        rw [htools]
        exact List.mem_append_left _ hearlier
      have hother : earlier.declared ≠ .toolSearch := by
        have hall := List.mem_takeWhile_imp hmem'
        simpa using hall
      intro hsame
      have howned := (ha.name_eq_iff howner hearlier' hother).mp hsame
      exact hlate (howned ▸ hmem')
    obtain ⟨name, hname', hdecode⟩ := hdecodes search hkept
    rw [hname] at hname'
    rw [← Option.some.inj hname', decode_of_owner howner, hsearchTool] at hdecode
    exact hne hdecode
  · intro hkept tool htool
    obtain ⟨before, after, htools, hnames⟩ := mem_firstOfName.mp htool
    have hmem : tool ∈ tools := by
      rw [htools]
      exact List.mem_append_right _ List.mem_cons_self
    by_cases hsearch : tool.declared = .toolSearch
    · have hname := ha.name_search hmem hsearch
      obtain ⟨_, hfree⟩ := hnames toolSearchName hname
      have hsplit : declared = before.map ChatTool.declared ++ .toolSearch :: after.map ChatTool.declared := by
        rw [← hdeclared, htools, List.map_append, List.map_cons, hsearch]
      have hin : toolSearch ∈ declared := by
        rw [hsplit]
        exact List.mem_append_right _ List.mem_cons_self
      obtain ⟨owner, hclaimant, howner⟩ := ha.owner_eq hin
      refine ⟨toolSearchName, hname, ?_⟩
      rw [decode_of_owner howner, hsearch]
      by_contra hne
      rw [hsplit] at hclaimant hkept
      obtain ⟨earlier, hearlier, howned⟩ := List.mem_map.mp (owner_before hclaimant hne hkept)
      have hearlier' : earlier ∈ tools := by
        rw [htools]
        exact List.mem_append_left _ hearlier
      have hother : earlier.declared ≠ .toolSearch := by
        rw [howned]
        exact hne
      exact hfree earlier hearlier ((ha.name_eq_iff howner hearlier' hother).mpr howned)
    · exact ha.decode_other hmem hsearch

end

theorem buildChatRequestWithToolNames_advertised {ext : RequestExternals} {request : ToolsRequest}
    {deepseekMode : Bool} {body : ChatBody} {toolNameMap : ToolNameMap}
    (h : buildChatRequestWithToolNames ext request deepseekMode = .ok (body, toolNameMap)) :
    ∃ later tools, Advertised (historyTargets request.input) request.declaredTargets later tools toolNameMap ∧
      body.tools = firstOfName [] tools := by
  unfold buildChatRequestWithToolNames at h
  dsimp only at h
  split at h
  next s messages hinput _ =>
    have hmap : s.toolNameMap = empty.encodeTargets ext.sha256 (historyTargets request.input) :=
      convertInputToMessages_map (Nat.le_refl _) hinput
    have hbuilds := buildInTurn_builds (convertTool_builds ext.sha256)
      (request.tools ++ toolSearchOutputTools request.input) s.toolNameMap
    unfold convertToolsToChatTools at h
    dsimp only at h
    generalize buildInTurn (convertTool ext.sha256) (request.tools ++ toolSearchOutputTools request.input)
      s.toolNameMap = built at h hbuilds
    obtain ⟨next, tools⟩ := built
    have hnext : next = s.toolNameMap.encodeTargets ext.sha256 request.declaredTargets := hbuilds.map_eq
    -- the tool choice comes last
    have hlast : ∃ later, toolNameMap = next.encodeTargets ext.sha256 later ∧ body.tools = firstOfName [] tools := by
      split at h
      next =>
        cases h
        exact ⟨[], rfl, rfl⟩
      next toolChoice _ =>
        cases h
        obtain ⟨later, hlater⟩ := convertToolChoiceToChat_map ext.sha256 toolChoice next
        exact ⟨later, hlater, rfl⟩
    obtain ⟨later, hlater, htools⟩ := hlast
    refine ⟨later, tools, ⟨?_, hbuilds.declared, fun tool htool => ?_⟩, htools⟩
    · have hclaimed := claimed_empty.encodeTargets_run ext.sha256
        (historyTargets request.input ++ request.declaredTargets ++ later)
      rw [List.nil_append, encodeTargets_append, encodeTargets_append, ← hmap, ← hnext, ← hlater] at hclaimed
      exact hclaimed
    · rw [hlater]
      exact (hbuilds.named tool htool).extends (encodeTargets_extends ext.sha256 next later)
  next => cases h
  next => cases h

end

/-- The advertised tools decode to themselves exactly when no earlier call has taken the name of the search tool. -/
theorem advertised_tools_decode_iff {ext : RequestExternals} {request : ToolsRequest} {deepseekMode : Bool}
    {body : ChatBody} {toolNameMap : ToolNameMap}
    (h : buildChatRequestWithToolNames ext request deepseekMode = .ok (body, toolNameMap)) :
    DecodesTools request body toolNameMap ↔ SearchNameKept request := by
  obtain ⟨later, tools, ha, htools⟩ := buildChatRequestWithToolNames_advertised h
  have hiff := ha.decodes_iff
  rw [← htools] at hiff
  constructor
  · intro hdecodes
    exact hiff.mp hdecodes.decodes
  · intro hkept
    refine ⟨?_, fun tool htool => ?_, hiff.mpr hkept⟩
    · rw [htools]
      exact firstOfName_nodup [] tools
    · rw [htools] at htool
      obtain ⟨before, after, hsplit, _⟩ := mem_firstOfName.mp htool
      rw [← ha.declared_eq, hsplit]
      exact List.mem_map_of_mem (List.mem_append_right _ List.mem_cons_self)

def searchRequest : ToolsRequest where
  input := []
  tools := [.object [("type", .string "tool_search")],
    .object [("type", .string "function"), ("name", .string "tool_search")]]

theorem search_request_decodes :
    ∃ body toolNameMap, buildChatRequestWithToolNames (plainRequestExternals wrappedInputCodec) searchRequest false =
        .ok (body, toolNameMap) ∧ DecodesTools searchRequest body toolNameMap := by
  have hbuild := show buildChatRequestWithToolNames (plainRequestExternals wrappedInputCodec) searchRequest false =
    .ok (_, _) from rfl
  refine ⟨_, _, hbuild, (advertised_tools_decode_iff hbuild).mpr ?_⟩
  intro target htarget
  cases htarget

/-- A function of the history has the name of the search tool. -/
def takenSearchRequest : ToolsRequest where
  input := [{ itemType := .functionCall, name := some "tool_search", callId := some "call_1" }]
  tools := [.object [("type", .string "tool_search")]]

theorem taken_search_request_misdecodes :
    ¬ ∀ ext request deepseekMode body toolNameMap,
        buildChatRequestWithToolNames ext request deepseekMode = .ok (body, toolNameMap) →
          DecodesTools request body toolNameMap := by
  intro h
  have hbuild := show buildChatRequestWithToolNames (plainRequestExternals wrappedInputCodec) takenSearchRequest false =
    .ok (_, _) from rfl
  obtain ⟨name, hname, hdecode⟩ := (h _ _ _ _ _ hbuild).decodes _ List.mem_cons_self
  cases hname
  exact absurd hdecode (by decide)

end MochiPort

import MochiPort.ChatOutputShape

namespace MochiPort

open ClosingOrder List Option OutputShape ResponsesStreamState

/-- Element `i` of the output that a terminal event lists is the item of the done event with the index `i`, and
there are no other elements and no other done events. -/
def AnnouncedOrder (events : List StreamEvent) : Prop :=
  ∀ response ∈ terminalResponses events, ∀ i item, response.output[i]? = some item ↔ (i, item) ∈ doneItems events

inductive ChatPiece where
  | text (kind : TextKind)
  | call (index : Nat)
  | finish
  | usage

def chunkPieces (chunk : JsonValue) : List ChatPiece :=
  ((chunkReasoning chunk).map fun _ => .text .reasoning).toList ++
    ((chunkContent chunk).map fun _ => .text .message).toList ++
    (chunkToolCalls chunk).map (fun tc => .call (toolCallIndex tc)) ++
    (if chunkFinishes chunk then [.finish] else []) ++
    ((chunkUsage chunk).map fun _ => .usage).toList

/-- Which kind of text and which tool calls are open, the calls in the order in which they came. -/
structure OpenedItems where
  active : Option TextKind
  calls : List Nat
  finished : Bool
  usageKnown : Bool
  completed : Bool

namespace OpenedItems

def start : OpenedItems := ⟨none, [], false, false, false⟩

def next (o : OpenedItems) : ChatPiece → OpenedItems
  | .text kind => { o with active := some kind }
  | .call index => if index ∈ o.calls then o else { o with active := none, calls := o.calls ++ [index] }
  | .finish =>
    { o with active := none, calls := [], finished := true, completed := o.completed || o.usageKnown }
  | .usage => { o with usageKnown := true, completed := o.completed || o.finished }

/-- The text that is open may be closed: no call came before it, and no output has been listed. -/
def MayClose (o : OpenedItems) : Prop := o.calls = [] ∧ o.completed = false

/-- What a piece closes are the items that were opened first, in order, and no output has been listed before. -/
def ClosesInTurn (o : OpenedItems) : ChatPiece → Prop
  | .text kind => ∀ other, o.active = some other → other ≠ kind → o.MayClose
  | .call index => index ∉ o.calls → o.active ≠ none → o.MayClose
  | .finish =>
    (o.active ≠ none → o.MayClose) ∧ (o.calls ≠ [] → o.completed = false ∧ o.calls.Pairwise (· ≤ ·))
  | .usage => True

def AllInTurn (o : OpenedItems) : List ChatPiece → Prop
  | [] => True
  | piece :: pieces => o.ClosesInTurn piece ∧ (o.next piece).AllInTurn pieces

def after (o : OpenedItems) (pieces : List ChatPiece) : OpenedItems := pieces.foldl next o

theorem allInTurn_append (o : OpenedItems) (pieces more : List ChatPiece) :
    o.AllInTurn (pieces ++ more) ↔ o.AllInTurn pieces ∧ (o.after pieces).AllInTurn more := by
  induction pieces generalizing o with
  | nil => exact (true_and _).symm.to_iff
  | cons piece pieces ih =>
    rw [cons_append, AllInTurn, AllInTurn, ih, and_assoc]
    rfl

/-- What the end of a stream closes, unless it has finished. -/
def EndsInTurn (o : OpenedItems) : Prop := o.finished = false → o.ClosesInTurn .finish

end OpenedItems

/-- Every piece of the chunks closes in turn, and so does their end. -/
def KeepsOrder (chunks : List JsonValue) : Prop :=
  OpenedItems.start.AllInTurn (chunks.flatMap chunkPieces) ∧
    (OpenedItems.start.after (chunks.flatMap chunkPieces)).EndsInTurn

namespace OpenedItems

def closing (o : OpenedItems) (kind : TextKind) : OpenedItems :=
  if o.active = some kind then { o with active := none } else o

end OpenedItems

namespace OutputShape

def callIndex (v : OutputShape) (index : Nat) : Nat := ((v.calls index).map Prod.fst).getD 0

def openIndices (v : OutputShape) (o : OpenedItems) : List Nat :=
  o.calls.map v.callIndex ++ (o.active.bind v.text).toList.map Prod.fst

/-- The items were done in the order of their indices, and every output lists all of them. -/
def Turned (v : OutputShape) : Prop :=
  InTurn (v.done.map Prod.fst) ∧ ∀ output ∈ v.terminals, output.length = v.output.length

end OutputShape

/-- What is open in the shape is what the pieces have opened; the ids are those generated for the indices. -/
structure Follows (ext : Externals) (o : OpenedItems) (v : OutputShape) : Prop where
  generated : v.generated = v.next
  output : v.output = v.done.map Prod.snd
  doneIds : ∀ index item, (index, item) ∈ v.done → item.id = some (ext.itemId index)
  textIds : ∀ kind index id, v.text kind = some (index, id) → id = ext.itemId index
  callIds : ∀ call index id, v.calls call = some (index, id) → id = ext.itemId index
  listed : ∀ output ∈ v.terminals, output <+: v.output
  text : ∀ kind, (v.text kind).isSome = true ↔ o.active = some kind
  calls : ∀ call, (v.calls call).isSome = true ↔ call ∈ o.calls
  nodup : o.calls.Nodup
  numbered : Numbered v.next (v.done.map Prod.fst) (v.openIndices o)
  finished : v.finished = o.finished
  usageKnown : v.usageKnown = o.usageKnown
  completed : v.completed = o.completed
  terminals : v.completed = true ↔ v.terminals ≠ []
  completedLast : v.completed = true → v.finished = true

/-- A step keeps the two together, and the turn if and only if the condition holds. -/
structure Judged (ext : Externals) (v : OutputShape) (o' : OpenedItems) (v' : OutputShape) (ok : Prop) : Prop where
  follows : Follows ext o' v'
  turned : v'.Turned ↔ v.Turned ∧ ok

variable {ext : Externals} {o o' o'' : OpenedItems} {v v' v'' : OutputShape} {ok ok' : Prop}

section

variable (hf : Follows ext o v)
include hf

theorem Judged.refl : Judged ext v o v True :=
  ⟨hf, (and_iff_left trivial).symm⟩

omit hf in
theorem Judged.trans (h : Judged ext v o' v' ok) (h' : Judged ext v' o'' v'' ok') :
    Judged ext v o'' v'' (ok ∧ ok') := by
  refine ⟨h'.follows, ?_⟩
  rw [h'.turned, h.turned, and_assoc]

omit hf in
theorem Judged.congr (h : Judged ext v o' v' ok) (hok : ok ↔ ok') : Judged ext v o' v' ok' :=
  ⟨h.follows, by rw [h.turned, hok]⟩

theorem Follows.terminals_nil : o.completed = false ↔ v.terminals = [] := by
  have hterminals := hf.terminals
  rw [hf.completed] at hterminals
  cases hcompleted : o.completed with
  | false | true =>
    rw [hcompleted] at hterminals
    simpa using hterminals

theorem Follows.turned_addDone {index : Nat} (item : ResponseItem) (hopen : index ∈ v.openIndices o) :
    (v.addDone index item).Turned ↔ v.Turned ∧ o.completed = false ∧ [index] <+: v.openIndices o := by
  have hbatch : [index] ⊆ v.openIndices o := by
    intro n hn
    rw [mem_singleton.mp hn]
    exact hopen
  have hturn := hf.numbered.inTurn_append_iff hbatch
  unfold OutputShape.Turned addDone
  simp only [map_append, map_cons, map_nil, length_append, length_singleton]
  rw [hturn, hf.terminals_nil]
  constructor
  · intro h
    obtain ⟨⟨hin, hprefix⟩, hlengths⟩ := h
    have hnil : v.terminals = [] := by
      rw [eq_nil_iff_forall_not_mem]
      intro output hm
      have hle := (hf.listed output hm).length_le
      have hlength := hlengths output hm
      omega
    refine ⟨⟨hin, ?_⟩, hnil, hprefix⟩
    intro output hm
    rw [hnil] at hm
    cases hm
  · intro h
    obtain ⟨⟨hin, _⟩, hnil, hprefix⟩ := h
    refine ⟨⟨hin, hprefix⟩, ?_⟩
    intro output hm
    rw [hnil] at hm
    cases hm

omit hf in
theorem Follows.openIndices_none (_ : Follows ext o v) (hnone : o.active = none) :
    v.openIndices o = o.calls.map v.callIndex := by
  rw [openIndices, hnone, bind_none, toList_none, map_nil, append_nil]

omit hf in
theorem update_eq_some {κ β : Type*} [DecidableEq κ] {f : κ → Option β} {k j : κ} {place : Option β} {x : β}
    (h : Function.update f k place j = some x) : place = some x ∨ f j = some x := by
  rw [Function.update_apply] at h
  split at h
  next => exact .inl h
  next => exact .inr h

theorem Follows.openIndices_text {kind : TextKind} {index : Nat} {id : String}
    (htext : v.text kind = some (index, id)) : v.openIndices o = o.calls.map v.callIndex ++ [index] := by
  have hactive := (hf.text kind).mp (by rw [htext]; rfl)
  rw [openIndices, hactive, bind_some, htext]
  rfl

theorem Follows.closeText (kind : TextKind) {item : ResponseItem}
    (hid : ∀ index id, v.text kind = some (index, id) → item.id = some id) :
    Judged ext v (o.closing kind) (v.closeText kind item) (o.active = some kind → o.MayClose) := by
  cases htext : v.text kind with
  | none =>
    have hactive : o.active ≠ some kind := by
      rw [Ne, ← hf.text kind, htext]
      exact Bool.false_ne_true
    rw [closeText_none item htext, OpenedItems.closing, if_neg hactive]
    exact (Judged.refl hf).congr ⟨fun _ h => absurd h hactive, fun _ => trivial⟩
  | some place =>
    obtain ⟨index, id⟩ := place
    have hactive : o.active = some kind := (hf.text kind).mp (by rw [htext]; rfl)
    have hopen := hf.openIndices_text htext
    rw [closeText_some item htext, OpenedItems.closing, if_pos hactive]
    constructor
    · refine ⟨hf.generated, ?_, ?_, ?_, hf.callIds, ?_, ?_, hf.calls, hf.nodup, ?_, hf.finished, hf.usageKnown,
        hf.completed, hf.terminals, hf.completedLast⟩
      · simp [addDone, hf.output]
      · intro n x hm
        rcases mem_append.mp hm with hm | hm
        · exact hf.doneIds n x hm
        · cases mem_singleton.mp hm
          rw [hid index id htext, hf.textIds kind index id htext]
      · exact fun other n x h => hf.textIds other n x ((update_eq_some h).resolve_left nofun)
      · intro output hm
        exact (hf.listed output hm).trans (prefix_append _ _)
      · intro other
        dsimp only
        rw [Function.update_apply]
        split
        next => simp
        next hother =>
          rw [hf.text other, hactive]
          simp [Ne.symm hother]
      · have hperm : (v.openIndices o).Perm ([index] ++ o.calls.map v.callIndex) := by
          rw [hopen]
          exact perm_append_comm
        have hrest : (o.calls.map v.callIndex).Sublist (v.openIndices o) := by
          exact sublist_append_left _ _
        have hclose := hf.numbered.close hperm hrest
        simp only [openIndices, addDone, map_append]
        rw [bind_none, toList_none, map_nil, append_nil]
        exact hclose
    · have hmem : index ∈ v.openIndices o := by
        rw [hopen]
        exact mem_append_right _ mem_cons_self
      have hturned := hf.turned_addDone item hmem
      have hfirst : [index] <+: v.openIndices o ↔ o.calls = [] := by
        have hincreasing := hf.numbered.increasing
        rw [hopen] at hincreasing ⊢
        cases hcalls : o.calls with
        | nil => simp
        | cons call calls =>
          rw [hcalls, map_cons, cons_append, pairwise_cons] at hincreasing
          have hlt := hincreasing.1 index (mem_append_right _ mem_cons_self)
          rw [map_cons, cons_append, cons_prefix_cons]
          constructor
          · intro h
            omega
          · intro h
            cases h
      rw [hfirst] at hturned
      refine Iff.trans hturned ?_
      constructor
      · intro h
        exact ⟨h.1, fun _ => ⟨h.2.2, h.2.1⟩⟩
      · intro h
        obtain ⟨hcalls, hcompleted⟩ := h.2 hactive
        exact ⟨h.1, hcompleted, hcalls⟩

theorem Follows.openText (kind : TextKind) (hnone : o.active = none) :
    Judged ext v { o with active := some kind } (v.openText kind (ext.itemId v.generated)) True := by
  have hopen := hf.openIndices_none hnone
  constructor
  · refine ⟨?_, hf.output, hf.doneIds, ?_, hf.callIds, hf.listed, ?_, hf.calls, hf.nodup, ?_, hf.finished,
      hf.usageKnown, hf.completed, hf.terminals, hf.completedLast⟩
    · exact congrArg (· + 1) hf.generated
    · intro other n x h
      rcases update_eq_some h with h | h
      · cases h
        rw [hf.generated]
      · exact hf.textIds other n x h
    · intro other
      rw [OutputShape.openText]
      dsimp only
      rw [Function.update_apply]
      split
      next hother => simp [hother]
      next hother =>
        rw [hf.text other, hnone]
        simp [Ne.symm hother]
    · have hnumbered := hf.numbered.open
      rw [hopen] at hnumbered
      have hafter : (v.openText kind (ext.itemId v.generated)).openIndices { o with active := some kind } =
          o.calls.map v.callIndex ++ [v.next] := by
        rw [OutputShape.openIndices, bind_some, OutputShape.openText]
        dsimp only
        rw [Function.update_self]
        rfl
      rw [hafter]
      exact hnumbered
  · exact (and_iff_left trivial).symm

omit hf in
theorem map_callIndex_update {calls : List Nat} {call : Nat} (hcall : call ∉ calls) (hv : ∀ other, other ≠ call →
    v'.calls other = v.calls other) : calls.map v'.callIndex = calls.map v.callIndex := by
  refine map_congr_left ?_
  intro other hm
  have hne : other ≠ call := fun heq => hcall (heq ▸ hm)
  rw [callIndex, callIndex, hv other hne]

theorem Follows.openCall {call : Nat} (hnone : o.active = none) (hcall : call ∉ o.calls) :
    Judged ext v { o with calls := o.calls ++ [call] } (v.openCall call (ext.itemId v.generated)) True := by
  have hopen := hf.openIndices_none hnone
  constructor
  · refine ⟨?_, hf.output, hf.doneIds, hf.textIds, ?_, hf.listed, hf.text, ?_, ?_, ?_, hf.finished,
      hf.usageKnown, hf.completed, hf.terminals, hf.completedLast⟩
    · exact congrArg (· + 1) hf.generated
    · intro other n x h
      rcases update_eq_some h with h | h
      · cases h
        rw [hf.generated]
      · exact hf.callIds other n x h
    · intro other
      rw [OutputShape.openCall]
      dsimp only
      rw [Function.update_apply, mem_append, mem_singleton]
      split
      next hother => simp [hother]
      next hother =>
        rw [hf.calls other]
        simp [hother]
    · refine nodup_append.mpr ⟨hf.nodup, nodup_singleton call, ?_⟩
      intro a ha b hb heq
      rw [mem_singleton.mp hb] at heq
      exact hcall (heq ▸ ha)
    · have hnumbered := hf.numbered.open
      rw [hopen] at hnumbered
      have hothers : o.calls.map (v.openCall call (ext.itemId v.generated)).callIndex = o.calls.map v.callIndex := by
        refine map_callIndex_update hcall ?_
        intro other hne
        exact Function.update_of_ne hne _ _
      have hlast : (v.openCall call (ext.itemId v.generated)).callIndex call = v.next := by
        rw [OutputShape.callIndex, OutputShape.openCall]
        dsimp only
        rw [Function.update_self]
        rfl
      rw [OutputShape.openIndices, hnone, bind_none, toList_none, map_nil, append_nil,
        map_append, hothers, map_singleton, hlast]
      exact hnumbered
  · exact (and_iff_left trivial).symm

theorem Follows.closeCall {call : Nat} {item : ResponseItem} (hnone : o.active = none)
    (hcall : call ∈ o.calls) (hid : ∀ index id, v.calls call = some (index, id) → item.id = some id) :
    Judged ext v { o with calls := o.calls.erase call } (v.closeCall call item)
      (o.completed = false ∧ o.calls.head? = some call) := by
  have hopen := hf.openIndices_none hnone
  obtain ⟨⟨index, id⟩, hplace⟩ := isSome_iff_exists.mp ((hf.calls call).mpr hcall)
  have hindex : v.callIndex call = index := by
    rw [callIndex, hplace]
    rfl
  rw [closeCall_some item hplace]
  constructor
  · refine ⟨hf.generated, ?_, ?_, hf.textIds, ?_, ?_, hf.text, ?_, hf.nodup.erase call, ?_, hf.finished,
      hf.usageKnown, hf.completed, hf.terminals, hf.completedLast⟩
    · simp [addDone, hf.output]
    · intro n x hm
      rcases mem_append.mp hm with hm | hm
      · exact hf.doneIds n x hm
      · cases mem_singleton.mp hm
        rw [hid index id hplace, hf.callIds call index id hplace]
    · exact fun other n x h => hf.callIds other n x ((update_eq_some h).resolve_left nofun)
    · intro output hm
      exact (hf.listed output hm).trans (prefix_append _ _)
    · intro other
      dsimp only
      rw [Function.update_apply, hf.nodup.mem_erase_iff]
      split
      next hother => simp [hother]
      next hother =>
        rw [hf.calls other]
        simp [hother]
    · have hperm : (v.openIndices o).Perm ([index] ++ (o.calls.erase call).map v.callIndex) := by
        rw [hopen, ← hindex]
        exact (perm_cons_erase hcall).map v.callIndex
      have hrest : ((o.calls.erase call).map v.callIndex).Sublist (v.openIndices o) := by
        rw [hopen]
        exact erase_sublist.map v.callIndex
      have hclose := hf.numbered.close hperm hrest
      have hothers : (o.calls.erase call).map
          { v.addDone index item with calls := Function.update v.calls call none : OutputShape }.callIndex =
            (o.calls.erase call).map v.callIndex := by
        refine map_callIndex_update hf.nodup.not_mem_erase ?_
        intro other hne
        exact Function.update_of_ne hne _ _
      rw [openIndices, hnone, bind_none, toList_none, map_nil, append_nil, hothers]
      simpa only [addDone, map_append, map_cons, map_nil] using hclose
  · have hmem : index ∈ v.openIndices o := by
      rw [hopen, ← hindex]
      exact mem_map_of_mem hcall
    have hfirst : [index] <+: v.openIndices o ↔ o.calls.head? = some call := by
      have hdistinct : (o.calls.map v.callIndex).Nodup := by
        rw [← hopen]
        exact hf.numbered.increasing.imp Nat.ne_of_lt
      rw [hopen, ← hindex]
      cases hcalls : o.calls with
      | nil => simp
      | cons first calls =>
        rw [map_cons, cons_prefix_cons, List.head?_cons, some_inj]
        rw [hcalls] at hdistinct hcall
        constructor
        · intro h
          exact inj_on_of_nodup_map hdistinct mem_cons_self hcall h.1.symm
        · intro h
          rw [h]
          exact ⟨rfl, nil_prefix⟩
    have hturned := hf.turned_addDone item hmem
    rw [hfirst] at hturned
    exact hturned

omit hf in
theorem Follows.closeCalls {s : ResponsesStreamState} (hf : Follows ext o s.shape) (codec : JsonCodec)
    {calls : List Nat} (hcalls : calls.Perm o.calls) (hnone : o.active = none) :
    Judged ext s.shape { o with calls := [] } (calls.foldl (closeToolCall codec) s).shape
      (calls ≠ [] → o.completed = false ∧ calls = o.calls) := by
  induction calls generalizing s o with
  | nil =>
    have hnil : o.calls = [] := hcalls.symm.eq_nil
    have hsame : { o with calls := [] } = o := by rw [← hnil]
    rw [hsame]
    exact (Judged.refl hf).congr ⟨fun _ h => absurd rfl h, fun _ => trivial⟩
  | cons call calls ih =>
    have hmem : call ∈ o.calls := hcalls.subset mem_cons_self
    obtain ⟨hmem', hrest⟩ := cons_perm_iff_perm_erase.mp hcalls
    obtain ⟨item, hid, hshape⟩ := closeToolCall_shape codec s call
    have hclose := hf.closeCall hnone hmem hid
    rw [← hshape] at hclose
    have hall := hclose.trans (ih hclose.follows hrest hnone)
    refine hall.congr ?_
    constructor
    · intro h _
      obtain ⟨⟨hcompleted, hhead⟩, htail⟩ := h
      refine ⟨hcompleted, ?_⟩
      cases hlist : o.calls with
      | nil =>
        rw [hlist] at hmem
        cases hmem
      | cons first others =>
        rw [hlist, List.head?_cons] at hhead
        cases hhead
        rw [hlist, erase_cons_head] at htail hrest
        cases calls with
        | nil => rw [hrest.symm.eq_nil]
        | cons second calls => rw [(htail (cons_ne_nil _ _)).2]
    · intro h
      obtain ⟨hcompleted, hlist⟩ := h (cons_ne_nil _ _)
      refine ⟨⟨hcompleted, by rw [← hlist]; rfl⟩, fun _ => ⟨hcompleted, ?_⟩⟩
      rw [← hlist, erase_cons_head]

theorem Follows.complete (hfinished : o.finished = true) :
    Judged ext v { o with completed := true } v.complete True := by
  constructor
  · refine ⟨hf.generated, hf.output, hf.doneIds, hf.textIds, hf.callIds, ?_, hf.text, hf.calls, hf.nodup, hf.numbered,
      hf.finished, hf.usageKnown, rfl, ?_, fun _ => hf.finished.trans hfinished⟩
    · intro output hm
      rcases mem_append.mp hm with hm | hm
      · exact hf.listed output hm
      · rw [mem_singleton.mp hm]
        exact prefix_rfl
    · simp [OutputShape.complete]
  · unfold OutputShape.Turned OutputShape.complete
    constructor
    · intro h
      exact ⟨⟨h.1, fun output hm => h.2 output (mem_append_left _ hm)⟩, trivial⟩
    · intro h
      refine ⟨h.1.1, ?_⟩
      intro output hm
      rcases mem_append.mp hm with hm | hm
      · exact h.1.2 output hm
      · rw [mem_singleton.mp hm]

end

theorem Judged.setFinished (h : Judged ext v o' v' ok) :
    Judged ext v { o' with finished := true } { v' with finished := true } ok := by
  refine ⟨?_, h.turned⟩
  have hf := h.follows
  exact ⟨hf.generated, hf.output, hf.doneIds, hf.textIds, hf.callIds, hf.listed, hf.text, hf.calls, hf.nodup,
    hf.numbered, rfl, hf.usageKnown, hf.completed, hf.terminals, fun _ => rfl⟩

theorem insertionSort_eq_iff {keys calls : List Nat} (hperm : keys.Perm calls) :
    keys.insertionSort (· ≤ ·) = calls ↔ calls.Pairwise (· ≤ ·) := by
  constructor
  · intro h
    rw [← h]
    exact pairwise_insertionSort (· ≤ ·) keys
  · intro h
    have hsorted := (perm_insertionSort (· ≤ ·) keys).trans hperm
    exact hsorted.eq_of_pairwise (fun a b _ _ hab hba => Nat.le_antisymm hab hba)
      (pairwise_insertionSort (· ≤ ·) keys) h

namespace ResponsesStreamState

variable {s : ResponsesStreamState}

section

variable (hf : Follows ext o s.shape)
include hf

theorem keys_perm : s.toolCalls.keys.Perm o.calls := by
  refine (perm_ext_iff_of_nodup s.toolCalls.nodupKeys hf.nodup).mpr ?_
  intro call
  rw [← hf.calls call, shape_calls_isSome, AList.lookup_isSome]
  rfl

omit hf in
theorem closing_both (o : OpenedItems) (kind other : TextKind) (hne : kind ≠ other) :
    (o.closing kind).closing other = { o with active := none } ∧
      ((o.active = some kind → o.MayClose) ∧
        ((o.closing kind).active = some other → (o.closing kind).MayClose) ↔ (o.active ≠ none → o.MayClose)) := by
  obtain ⟨active, calls, finished, usageKnown, completed⟩ := o
  by_cases hkind : active = some kind
  · subst hkind
    simp [OpenedItems.closing, OpenedItems.MayClose]
  · by_cases hother : active = some other
    · subst hother
      simp [OpenedItems.closing, OpenedItems.MayClose, Ne.symm hne]
    · have hnone : active = none := by
        cases active with
        | none => rfl
        | some third => cases third <;> cases kind <;> cases other <;> simp_all
      subst hnone
      simp [OpenedItems.closing, OpenedItems.MayClose]

omit hf in
theorem closeTexts_judged (hf : Follows ext o v) {kind other : TextKind} (hne : kind ≠ other)
    (hfirst : ∃ item, (∀ index id, v.text kind = some (index, id) → item.id = some id) ∧ v' = v.closeText kind item)
    (hsecond : ∃ item, (∀ index id, v'.text other = some (index, id) → item.id = some id) ∧
      v'' = v'.closeText other item) : Judged ext v { o with active := none } v'' (o.active ≠ none → o.MayClose) := by
  obtain ⟨item, hid, rfl⟩ := hfirst
  obtain ⟨item', hid', rfl⟩ := hsecond
  have hclosed := hf.closeText kind hid
  obtain ⟨hboth, hok⟩ := closing_both o kind other hne
  have hall := hclosed.trans (hclosed.follows.closeText other hid')
  rw [hboth] at hall
  exact hall.congr hok

theorem finishOpenItems_judged (codec : JsonCodec) :
    Judged ext s.shape { o with active := none, calls := [], finished := true } (s.finishOpenItems codec).shape
      (o.ClosesInTurn .finish) := by
  let t := s.closeReasoningItem.closeMessageItem
  have htexts : Judged ext s.shape { o with active := none } t.shape (o.active ≠ none → o.MayClose) :=
    closeTexts_judged hf (by decide) (closeReasoningItem_shape s) (closeMessageItem_shape _)
  have hperm := keys_perm htexts.follows
  have hsorted : (t.toolCalls.keys.insertionSort (· ≤ ·)).Perm o.calls :=
    (perm_insertionSort (· ≤ ·) t.toolCalls.keys).trans hperm
  have hcalls := htexts.follows.closeCalls codec hsorted rfl
  have hall := (htexts.trans hcalls).setFinished
  refine Judged.congr hall ?_
  refine and_congr_right fun _ => ?_
  have hempty : t.toolCalls.keys.insertionSort (· ≤ ·) ≠ [] ↔ o.calls ≠ [] := by
    rw [Ne, Ne, ← length_eq_zero_iff, ← length_eq_zero_iff, hsorted.length_eq]
  rw [hempty]
  exact imp_congr_right fun _ => and_congr_right fun _ => insertionSort_eq_iff hperm

theorem usage_isSome : s.usage.isSome = o.usageKnown := hf.usageKnown

theorem handleFinish_judged (codec : JsonCodec) :
    Judged ext s.shape (o.next .finish) (s.handleFinish codec).shape (o.ClosesInTurn .finish) := by
  have hclosed := finishOpenItems_judged hf codec
  have husage := usage_isSome hclosed.follows
  unfold handleFinish OpenedItems.next
  dsimp only at husage ⊢
  rw [husage]
  cases hknown : o.usageKnown with
  | false =>
    rw [hknown] at hclosed
    rw [if_neg Bool.false_ne_true, Bool.or_false]
    exact hclosed
  | true =>
    rw [hknown] at hclosed
    rw [if_pos rfl, Bool.or_true, emitResponseCompleted_shape]
    exact (hclosed.trans (hclosed.follows.complete rfl)).congr (and_iff_left trivial)

theorem handleFinishReason_judged (codec : JsonCodec) (reason : String) :
    Judged ext s.shape (o.next .finish) (s.handleFinishReason codec (some reason)).shape (o.ClosesInTurn .finish) := by
  have hset : Follows ext o ({ s with finishReason := some reason } : ResponsesStreamState).shape := hf
  exact handleFinish_judged hset codec

theorem handleUsage_judged (usage : Usage) :
    Judged ext s.shape (o.next .usage) (s.handleUsage (some usage)).shape (o.ClosesInTurn .usage) := by
  let t := { s with usage := some usage }
  have ht : Judged ext s.shape { o with usageKnown := true } t.shape True :=
    ⟨⟨hf.generated, hf.output, hf.doneIds, hf.textIds, hf.callIds, hf.listed, hf.text, hf.calls, hf.nodup,
      hf.numbered, hf.finished, rfl, hf.completed, hf.terminals, hf.completedLast⟩, (and_iff_left trivial).symm⟩
  have hfinished : s.finished = o.finished := hf.finished
  have hcompleted : s.responseCompleted = o.completed := hf.completed
  have hdef : s.handleUsage (some usage) = if s.finished && !s.responseCompleted then t.emitResponseCompleted else t :=
    rfl
  rw [hdef, hfinished, hcompleted]
  by_cases hcomplete : o.finished = true ∧ o.completed = false
  · have hnext : o.next .usage = { { o with usageKnown := true } with completed := true } := by
      simp [OpenedItems.next, hcomplete.1]
    rw [if_pos (by simp [hcomplete]), hnext, emitResponseCompleted_shape]
    exact (ht.trans (ht.follows.complete hcomplete.1)).congr (and_iff_left trivial)
  · have hnext : o.next .usage = { o with usageKnown := true } := by
      have hkeep : (o.completed || o.finished) = o.completed := by
        cases hc : o.completed with
        | true => rfl
        | false =>
          cases hd : o.finished with
          | false => rfl
          | true => exact absurd ⟨hd, hc⟩ hcomplete
      simp [OpenedItems.next, hkeep]
    have hnot : ¬((o.finished && !o.completed) = true) := by
      intro h
      rw [Bool.and_eq_true, Bool.not_eq_true'] at h
      exact hcomplete h
    rw [if_neg hnot, hnext]
    exact ht

omit hf in
theorem text_judged (hf : Follows ext o v) {kind other : TextKind} (hne : other ≠ kind) {item : ResponseItem}
    (hid : ∀ index id, v.text other = some (index, id) → item.id = some id) :
    Judged ext v (o.next (.text kind))
      (if ((v.closeText other item).text kind).isSome then v.closeText other item
        else (v.closeText other item).openText kind (ext.itemId (v.closeText other item).generated))
      (o.ClosesInTurn (.text kind)) := by
  have hclosed := hf.closeText other hid
  have honly : ∀ third, third ≠ kind → third = other := by
    intro third hthird
    cases third <;> cases kind <;> cases other <;> simp_all
  have hok : (o.active = some other → o.MayClose) ↔ o.ClosesInTurn (.text kind) := by
    constructor
    · intro h third hthird hnot
      exact h (honly third hnot ▸ hthird)
    · intro h hother
      exact h other hother hne
  have hclosed := hclosed.congr hok
  by_cases hopen : o.active = some kind
  · have hsame : o.closing other = o := by
      rw [OpenedItems.closing, if_neg]
      rw [hopen]
      exact fun heq => hne (Option.some.inj heq).symm
    have hnext : o.next (.text kind) = o := by
      rw [OpenedItems.next, ← hopen]
    rw [hsame] at hclosed
    rw [if_pos ((hclosed.follows.text kind).mpr hopen), hnext]
    exact hclosed
  · have hnone : (o.closing other).active = none := by
      rw [OpenedItems.closing]
      split
      next => rfl
      next hother =>
        cases hactive : o.active with
        | none => rfl
        | some third =>
          rw [hactive] at hopen hother
          have hthird := honly third fun heq => hopen (congrArg some heq)
          exact absurd (congrArg some hthird) hother
    have hnext : o.next (.text kind) = { o.closing other with active := some kind } := by
      rw [OpenedItems.next, OpenedItems.closing]
      split
      next => rfl
      next => rfl
    have hnot : ¬((v.closeText other item).text kind).isSome = true := by
      rw [hclosed.follows.text kind, hnone]
      exact fun heq => by cases heq
    rw [if_neg hnot, hnext]
    exact (hclosed.trans (hclosed.follows.openText kind hnone)).congr (and_iff_left trivial)

theorem handleReasoningDelta_judged (text : String) :
    Judged ext s.shape (o.next (.text .reasoning)) (s.handleReasoningDelta ext text).shape
      (o.ClosesInTurn (.text .reasoning)) := by
  obtain ⟨item, hid, hshape⟩ := closeMessageItem_shape s
  rw [handleReasoningDelta_shape, startReasoningItem_shape, hshape]
  exact text_judged hf (by decide) hid

theorem handleContentDelta_judged (text : String) :
    Judged ext s.shape (o.next (.text .message)) (s.handleContentDelta ext text).shape
      (o.ClosesInTurn (.text .message)) := by
  obtain ⟨item, hid, hshape⟩ := closeReasoningItem_shape s
  rw [handleContentDelta_shape, startMessageItem_shape, hshape]
  exact text_judged hf (by decide) hid

theorem handleToolCallDelta_judged (tc : JsonValue) :
    Judged ext s.shape (o.next (.call (toolCallIndex tc))) (s.handleToolCallDelta ext tc).shape
      (o.ClosesInTurn (.call (toolCallIndex tc))) := by
  rw [handleToolCallDelta_shape, startToolCall_shape, OpenedItems.next]
  by_cases hopen : toolCallIndex tc ∈ o.calls
  · rw [if_pos ((hf.calls _).mpr hopen), if_pos hopen]
    exact (Judged.refl hf).congr ⟨fun _ h => absurd hopen h, fun _ => trivial⟩
  · have hnot : ¬(s.shape.calls (toolCallIndex tc)).isSome = true := fun h => hopen ((hf.calls _).mp h)
    rw [if_neg hnot, if_neg hopen]
    have hclosed := closeTexts_judged hf (by decide) (closeMessageItem_shape s) (closeReasoningItem_shape _)
    have hall := hclosed.trans (hclosed.follows.openCall rfl hopen)
    refine hall.congr ?_
    constructor
    · intro h _
      exact h.1
    · intro h
      exact ⟨h hopen, trivial⟩

theorem foldl_toolCalls_judged (tcs : List JsonValue) :
    Judged ext s.shape (o.after (tcs.map fun tc => .call (toolCallIndex tc)))
      (tcs.foldl (handleToolCallDelta ext) s).shape (o.AllInTurn (tcs.map fun tc => .call (toolCallIndex tc))) := by
  induction tcs generalizing s o with
  | nil => exact Judged.refl hf
  | cons tc tcs ih =>
    have hfirst := handleToolCallDelta_judged hf tc
    exact hfirst.trans (ih hfirst.follows)

theorem optional_judged {α : Type*} (part : Option α) (piece : ChatPiece)
    (handle : ResponsesStreamState → α → ResponsesStreamState)
    (hsome : ∀ a, Judged ext s.shape (o.next piece) (handle s a).shape (o.ClosesInTurn piece)) :
    Judged ext s.shape (o.after (part.map fun _ => piece).toList) (part.elim s (handle s)).shape
      (o.AllInTurn (part.map fun _ => piece).toList) := by
  cases part with
  | none => exact Judged.refl hf
  | some a => exact (hsome a).congr (and_iff_left trivial).symm

end

theorem judged_append {pieces more : List ChatPiece} (h : Judged ext v (o.after pieces) v' (o.AllInTurn pieces))
    (h' : Judged ext v' ((o.after pieces).after more) v'' ((o.after pieces).AllInTurn more)) :
    Judged ext v (o.after (pieces ++ more)) v'' (o.AllInTurn (pieces ++ more)) := by
  have hafter : o.after (pieces ++ more) = (o.after pieces).after more := foldl_append
  rw [hafter]
  exact (h.trans h').congr (o.allInTurn_append pieces more).symm

theorem handleDelta_eq (ext : Externals) (s : ResponsesStreamState) (delta : JsonValue) :
    s.handleDelta ext delta =
      (deltaToolCalls delta).foldl (handleToolCallDelta ext)
        ((deltaContent delta).elim ((deltaReasoning delta).elim s (s.handleReasoningDelta ext))
          (((deltaReasoning delta).elim s (s.handleReasoningDelta ext)).handleContentDelta ext)) := by
  unfold handleDelta
  cases deltaReasoning delta with
  | none | some reasoning =>
    cases deltaContent delta with
    | none | some content => rfl

theorem handleFinishReason_eq (codec : JsonCodec) (s : ResponsesStreamState) (reason : Option String) :
    s.handleFinishReason codec reason = reason.elim s fun reason => s.handleFinishReason codec (some reason) := by
  cases reason with
  | none | some reason => rfl

theorem handleUsage_eq (s : ResponsesStreamState) (usage : Option Usage) :
    s.handleUsage usage = usage.elim s fun usage => s.handleUsage (some usage) := by
  cases usage with
  | none | some usage => rfl

section

variable (hf : Follows ext o s.shape)
include hf

theorem processChunk_judged (chunk : JsonValue) :
    Judged ext s.shape (o.after (chunkPieces chunk)) (s.processChunk ext chunk).shape
      (o.AllInTurn (chunkPieces chunk)) := by
  let s₀ := s.handleStart chunk
  have hstart : s₀.shape = s.shape := handleStart_shape s chunk
  have hf₀ : Follows ext o s₀.shape := by
    rw [hstart]
    exact hf
  have hreasoning := optional_judged hf₀ (chunkReasoning chunk) (.text .reasoning) (handleReasoningDelta ext)
    fun text => handleReasoningDelta_judged hf₀ text
  have hcontent := judged_append hreasoning (optional_judged hreasoning.follows (chunkContent chunk) (.text .message)
    (handleContentDelta ext) fun text => handleContentDelta_judged hreasoning.follows text)
  have hdelta := judged_append hcontent (foldl_toolCalls_judged hcontent.follows (chunkToolCalls chunk))
  have hfinish := judged_append hdelta (optional_judged hdelta.follows ((chunkChoice chunk).bind choiceFinishReason)
    .finish (fun s reason => s.handleFinishReason ext.codec (some reason))
    fun reason => handleFinishReason_judged hdelta.follows ext.codec reason)
  have husage := judged_append hfinish (optional_judged hfinish.follows (chunkUsage chunk) .usage
    (fun s usage => s.handleUsage (some usage)) fun usage => handleUsage_judged hfinish.follows usage)
  have hpieces : (((chunkChoice chunk).bind choiceFinishReason).map fun _ => ChatPiece.finish).toList =
      if chunkFinishes chunk then [.finish] else [] := by
    unfold chunkFinishes
    cases (chunkChoice chunk).bind choiceFinishReason with
    | none | some reason => rfl
  rw [hpieces] at husage
  rw [processChunk_eq, handleDelta_eq, handleUsage_eq, handleFinishReason_eq, ← hstart]
  exact husage

theorem foldl_processChunk_judged (chunks : List JsonValue) :
    Judged ext s.shape (o.after (chunks.flatMap chunkPieces)) (chunks.foldl (processChunk ext) s).shape
      (o.AllInTurn (chunks.flatMap chunkPieces)) := by
  induction chunks generalizing s o with
  | nil => exact Judged.refl hf
  | cons chunk chunks ih =>
    have hfirst := processChunk_judged hf chunk
    exact judged_append hfirst (ih hfirst.follows)

theorem complete_judged (hfinished : o.finished = true) :
    Judged ext s.shape { o with completed := true }
      (if !s.responseCompleted then s.emitResponseCompleted else s).shape True := by
  have hcompleted : s.responseCompleted = o.completed := hf.completed
  rw [hcompleted]
  cases hc : o.completed with
  | true =>
    have hsame : { o with completed := true } = o := by rw [← hc]
    rw [hsame]
    exact Judged.refl hf
  | false =>
    rw [if_pos (by rfl), emitResponseCompleted_shape]
    exact hf.complete hfinished

theorem handleEnd_judged (codec : JsonCodec) (ending : StreamEnd)
    (hstarted : s.hasStarted = true) (hreason : s.finished = s.finishReason.isSome) :
    ∃ o', o'.completed = true ∧ Judged ext s.shape o' (s.handleEnd codec ending).shape o.EndsInTurn := by
  have hfinished : s.finished = o.finished := hf.finished
  have hdone : ∃ o', o'.completed = true ∧ Judged ext s.shape o' (s.handleDone codec).shape o.EndsInTurn := by
    unfold handleDone
    rw [hstarted, hfinished]
    cases hof : o.finished with
    | true =>
      refine ⟨_, rfl, (complete_judged hf hof).congr ?_⟩
      exact ⟨fun _ h => Bool.noConfusion (hof.symm.trans h), fun _ => trivial⟩
    | false =>
      have hclosed := handleFinish_judged hf codec
      refine ⟨_, rfl, (hclosed.trans (complete_judged hclosed.follows rfl)).congr ?_⟩
      exact ⟨fun h _ => h.1, fun h => ⟨h hof, trivial⟩⟩
  cases ending with
  | done => exact hdone
  | ended =>
    unfold handleEnd handleStreamEnded
    rw [hstarted, if_neg (by decide)]
    by_cases htruncated : (s.finishReason.isNone && !s.responseCompleted) = true
    · rw [if_pos htruncated, emitResponseFailed_shape]
      have hof : o.finished = false := by
        have hnone := (Bool.and_eq_true_iff.mp htruncated).1
        rw [← hfinished, hreason]
        simpa using hnone
      have hclosed := finishOpenItems_judged hf codec
      refine ⟨_, rfl, (hclosed.trans (hclosed.follows.complete rfl)).congr ?_⟩
      exact ⟨fun h _ => h.1, fun h => ⟨h hof, trivial⟩⟩
    · rw [if_neg htruncated]
      exact hdone

omit hf in
theorem follows_new (ext : Externals) (responseId model : String) (createdAt : Int) (toolNameMap : ToolNameMap) :
    Follows ext .start (new responseId model createdAt toolNameMap).shape := by
  refine ⟨rfl, rfl, ?_, ?_, ?_, ?_, ?_, ?_, nodup_nil, numbered_start, rfl, rfl, rfl, ?_, ?_⟩
  · intro index item h
    cases h
  · intro kind index id h
    cases kind <;> cases h
  · intro call index id h
    cases h
  · intro output h
    cases h
  · intro kind
    cases kind <;> exact ⟨fun h => (by cases h), fun h => (by cases h)⟩
  · intro call
    exact ⟨fun h => (by cases h), fun h => (by cases h)⟩
  · exact ⟨fun h => (by cases h), fun h => absurd rfl h⟩
  · intro h
    cases h

theorem Follows.announced_iff (hfresh : Function.Injective ext.itemId)
    (hcompleted : o.completed = true) : AnnouncedOrder s.emitted ↔ s.shape.Turned := by
  have hnodup : ((doneItems s.emitted).map Prod.fst).Nodup := (nodup_append.mp hf.numbered.nodup).1
  have hsnd : ∀ a ∈ doneItems s.emitted, ∀ b ∈ doneItems s.emitted, a.2 = b.2 → a.1 = b.1 := by
    intro a ha b hb heq
    have hida := hf.doneIds a.1 a.2 ha
    have hidb := hf.doneIds b.1 b.2 hb
    rw [heq, hidb] at hida
    exact (hfresh (Option.some.inj hida)).symm
  have hone : ∀ output ∈ s.shape.terminals,
      (∀ (i : Nat) item, output[i]? = some item ↔ (i, item) ∈ doneItems s.emitted) ↔
        output.length = s.shape.output.length ∧ InTurn (s.shape.done.map Prod.fst) := by
    intro output hm
    have hlisted := hf.listed output hm
    rw [hf.output] at hlisted
    have htake : output = ((doneItems s.emitted).take output.length).map Prod.snd := by
      rw [map_take]
      exact prefix_iff_eq_take.mp hlisted
    have hiff := listed_iff (List.take_prefix output.length (doneItems s.emitted)) hnodup hsnd
    rw [← htake] at hiff
    have hlengths : ((doneItems s.emitted).take output.length).length = output.length := by
      have hlength := congrArg List.length htake
      rw [length_map] at hlength
      exact hlength.symm
    rw [hlengths] at hiff
    rw [hiff, hf.output, length_map]
    rfl
  have hterminals : s.shape.terminals ≠ [] := hf.terminals.mp (hf.completed.trans hcompleted)
  obtain ⟨first, hfirst⟩ := exists_mem_of_ne_nil _ hterminals
  constructor
  · intro h
    have hall : ∀ output ∈ s.shape.terminals,
        output.length = s.shape.output.length ∧ InTurn (s.shape.done.map Prod.fst) := by
      intro output hm
      obtain ⟨response, hr, houtput⟩ := mem_map.mp hm
      subst houtput
      exact (hone response.output hm).mp (h response hr)
    exact ⟨(hall first hfirst).2, fun output hm => (hall output hm).1⟩
  · intro h response hr
    have hm := mem_map_of_mem (f := (·.output)) hr
    exact (hone response.output hm).mpr ⟨h.2 response.output hm, h.1⟩

end

/-- The output lists the items as they were announced if and only if the chunks have every item closed in the order
in which the items were opened. -/
theorem announcedOrder_iff (ext : Externals) (hfresh : Function.Injective ext.itemId) (responseId model : String)
    (createdAt : Int) (toolNameMap : ToolNameMap) (chunks : List JsonValue) (ending : StreamEnd) :
    AnnouncedOrder (streamed ext (new responseId model createdAt toolNameMap) chunks ending).emitted ↔
      KeepsOrder chunks := by
  have hnew := follows_new ext responseId model createdAt toolNameMap
  have hrun := foldl_processChunk_judged hnew chunks
  obtain ⟨_, _, hafter⟩ := tracked_foldl_processChunk ext chunks (tracked_new responseId model createdAt toolNameMap)
    (after_new responseId model createdAt toolNameMap)
  have hempty : (new responseId model createdAt toolNameMap).shape.Turned := ⟨inTurn_nil, fun _ h => by cases h⟩
  cases chunks with
  | nil =>
    have hquiet : streamed ext (new responseId model createdAt toolNameMap) [] ending =
        new responseId model createdAt toolNameMap := by
      cases ending with
      | done | ended => rfl
    rw [hquiet]
    refine iff_of_true (fun _ h => by cases h) ⟨trivial, fun _ => ⟨fun h => absurd rfl h, fun h => absurd rfl h⟩⟩
  | cons chunk chunks =>
    obtain ⟨o', hcompleted, hend⟩ := handleEnd_judged hrun.follows ext.codec ending hafter.hasStarted
      (hafter.finished.trans hafter.finishReason.symm)
    have hall := hrun.trans hend
    rw [streamed, Follows.announced_iff hall.follows hfresh hcompleted, hall.turned]
    exact and_iff_right hempty

theorem announcedOrder_iff_plain :
    AnnouncedOrder (streamed plainExternals (new "r" "m" 0 .empty)
      [contentChunk "text", oneCallChunk none, finishChunk "tool_calls"] .done).emitted ↔
        KeepsOrder [contentChunk "text", oneCallChunk none, finishChunk "tool_calls"] := by
  have hfresh : Function.Injective plainExternals.itemId := fun _ _ h => RustText.toString_injective h
  exact announcedOrder_iff plainExternals hfresh "r" "m" 0 .empty _ .done

/-- The text that comes behind a tool call is done first: its index is 1, and its place in the output 0. -/
theorem text_behind_call_misplaced :
    ¬AnnouncedOrder (streamed plainExternals (new "r" "m" 0 .empty)
      [oneCallChunk none, contentChunk "text", finishChunk "tool_calls"] .done).emitted := by
  let events := (streamed plainExternals (new "r" "m" 0 .empty)
    [oneCallChunk none, contentChunk "text", finishChunk "tool_calls"] .done).emitted
  have hmisplaced : ∃ response ∈ terminalResponses events, ∃ announced ∈ doneItems events,
      response.output[announced.1]? ≠ some announced.2 := by
    decide +kernel
  intro h
  obtain ⟨response, hr, ⟨index, item⟩, hm, hne⟩ := hmisplaced
  exact hne ((h response hr index item).mpr hm)

end ResponsesStreamState

end MochiPort

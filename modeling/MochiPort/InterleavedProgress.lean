import MochiPort.Batches
import MochiPort.BudgetSearch
import MochiPort.ImTexts
import MochiPort.ProgressTexts

namespace MochiPort

open Batches List RustText TelegramCommandProgressSnapshot TelegramCommentaryEntry

def telegramCommentaryMaxChars : Nat := 3600
def telegramCommandProgressVisibleSteps : Nat := 3
def telegramCommandProgressDetailsSteps : Nat := 27

structure TelegramCommentaryRenderedEntry where
  text : String
  sequence : Nat
  deriving DecidableEq

structure TelegramCommentaryRender where
  entries : List TelegramCommentaryRenderedEntry
  dropped : Nat

namespace TelegramCommentaryRender

def truncateMiddle (value : String) (maxChars : Nat) : String :=
  if charCount value ≤ maxChars then value
  else if maxChars = 0 then ""
  else if maxChars = 1 then "…"
  else
    let headLen := (maxChars - 1 + 1) / 2
    let tailLen := maxChars - 1 - headLen
    String.ofList (value.toList.take headLen ++ '…' :: value.toList.drop (charCount value - tailLen))

/-- `rendered_char_count`; each entry counts with its separator. -/
def renderedCharCount (locale : ImLocale) (rendered : TelegramCommentaryRender) : Nat :=
  let total := (rendered.entries.map fun entry => charCount entry.text + 2).sum
  if rendered.dropped > 0 then
    saturatingAdd total (charCount (locale.telegramCommentaryOmitted rendered.dropped))
  else total

def largestEntryBudget (locale : ImLocale) (entry : String) (dropped : Nat) : Nat :=
  BudgetSearch.search
    (fun candidate => renderedCharCount locale ⟨[⟨truncateMiddle entry candidate, 0⟩], dropped⟩ ≤ telegramCommentaryMaxChars)
    0 (charCount entry)

/-- Drops the earliest entries until the others fit, and cuts the last one if it does not fit alone. -/
def fit (locale : ImLocale) : List TelegramCommentaryRenderedEntry → Nat → TelegramCommentaryRender
  | [], dropped => ⟨[], dropped⟩
  | [entry], dropped =>
    if renderedCharCount locale ⟨[entry], dropped⟩ ≤ telegramCommentaryMaxChars then ⟨[entry], dropped⟩
    else ⟨[{ entry with text := truncateMiddle entry.text (largestEntryBudget locale entry.text dropped) }], dropped⟩
  | entry :: next :: rest, dropped =>
    if renderedCharCount locale ⟨entry :: next :: rest, dropped⟩ ≤ telegramCommentaryMaxChars then
      ⟨entry :: next :: rest, dropped⟩
    else fit locale (next :: rest) (saturatingAdd dropped 1)

end TelegramCommentaryRender

def TelegramCommentaryEntry.rendered (entry : TelegramCommentaryEntry) : TelegramCommentaryRenderedEntry :=
  ⟨trim entry.text, entry.sequence⟩

def renderCommentary (locale : ImLocale) (entries : List TelegramCommentaryEntry) (dropped : Nat) :
    TelegramCommentaryRender :=
  let ordered := entries.insertionSort fun a b => a.sequence ≤ b.sequence
  .fit locale ((ordered.map rendered).filter (·.text ≠ "")) dropped

/-- The indices that a list of indices adds to those selected, as long as there is room. -/
def selectIndices (limit : Nat) (want : Nat → Bool) (selected indices : List Nat) : List Nat :=
  indices.foldl
    (fun selected index =>
      if selected.length < limit ∧ want index = true ∧ index ∉ selected then selected ++ [index] else selected)
    selected

/-- `selected_entry_indices`: the newest entries of each status, in the order of their importance. -/
def selectedEntryIndices (entries : List TelegramCommandProgressEntry) : List Nat :=
  let newest := (List.range entries.length).reverse
  let important := [TelegramCommandProgressStatus.running, .failed, .interrupted].foldl
    (fun selected status =>
      selectIndices telegramCommandProgressVisibleSteps (fun index => (entries[index]?).any (·.status = status)) selected
        newest)
    []
  (selectIndices telegramCommandProgressVisibleSteps (fun _ => true) important newest).insertionSort (· ≤ ·)

def commentaryAnchors (entries : List TelegramCommandProgressEntry) (sequence : Nat) : List Nat :=
  ((List.range entries.length).filter fun index => (entries[index]?).any (·.sequence < sequence)).getLast?.toList ++
    (entries.findIdx? fun entry => sequence < entry.sequence).toList

def interleavedToolIndices (snapshot : TelegramCommandProgressSnapshot) : List Nat :=
  let priority := selectedEntryIndices snapshot.entries
  let limit := telegramCommandProgressDetailsSteps + priority.length
  let anchors := snapshot.commentary.flatMap fun thought => commentaryAnchors snapshot.entries thought.sequence
  let shown := selectIndices limit (fun _ => true) priority anchors
  (selectIndices limit (fun _ => true) shown (List.range snapshot.entries.length).reverse).insertionSort (· ≤ ·)

abbrev InterleavedItem := TelegramCommentaryRenderedEntry ⊕ TelegramCommandProgressEntry

def InterleavedItem.sequence : InterleavedItem → Nat
  | .inl thought => thought.sequence
  | .inr entry => entry.sequence

abbrev InterleavedBatch := Batch TelegramCommentaryRenderedEntry TelegramCommandProgressEntry

/-- What the rendering puts into the message. A panel is shown by the entries that it is made of. -/
inductive InterleavedBlock where
  | commentaryOmitted (count : Nat)
  | commentary (entries : List TelegramCommentaryRenderedEntry)
  | toolSummary (isFirstBatch : Bool) (entries : List TelegramCommandProgressEntry) (omitted : Nat)
  | stepsOmitted (count : Nat)
  deriving DecidableEq

namespace TelegramCommandProgressSnapshot

variable (locale : ImLocale) (snapshot : TelegramCommandProgressSnapshot)

def keptCommentary : TelegramCommentaryRender :=
  renderCommentary locale snapshot.commentary snapshot.commentaryDroppedEntries

def shownEntries : List TelegramCommandProgressEntry :=
  (interleavedToolIndices snapshot).filterMap (snapshot.entries[·]?)

def interleavedItems : List InterleavedItem :=
  ((snapshot.keptCommentary locale).entries.map Sum.inl ++ snapshot.shownEntries.map Sum.inr).insertionSort
    fun a b => InterleavedItem.sequence a ≤ InterleavedItem.sequence b

def interleavedBatches : List InterleavedBatch := batch (snapshot.interleavedItems locale)

def omittedEntries : Nat :=
  saturatingAdd snapshot.droppedEntries snapshot.entries.length - (interleavedToolIndices snapshot).length

/-- The blocks of the batches. `hasBlocks` tells whether the Markdown of a thought makes any block; a panel without
blocks is left out. The last summary tells how many steps were omitted. -/
def batchBlocks (hasBlocks : String → Bool) (omitted : Nat) (isFirstBatch : Bool) :
    List InterleavedBatch → List InterleavedBlock
  | [] => []
  | .left entries :: batches =>
    (if entries.any (hasBlocks ·.text) then [InterleavedBlock.commentary entries] else []) ++
      batchBlocks hasBlocks omitted isFirstBatch batches
  | .right entries :: batches =>
    .toolSummary isFirstBatch entries (if batches.any (·.isRight) then 0 else omitted) :: batchBlocks hasBlocks omitted false batches

def renderInterleavedProgress (hasBlocks : String → Bool) : List InterleavedBlock :=
  let commentary := snapshot.keptCommentary locale
  let batches := snapshot.interleavedBatches locale
  let omitted := snapshot.omittedEntries
  (if commentary.dropped > 0 then [.commentaryOmitted commentary.dropped] else []) ++
    batchBlocks hasBlocks omitted true batches ++
    (if omitted > 0 && !batches.any (·.isRight) then [.stepsOmitted omitted] else [])

end TelegramCommandProgressSnapshot

def InterleavedBlock.batch : InterleavedBlock → Option InterleavedBatch
  | .commentary entries => some (.left entries)
  | .toolSummary _ entries _ => some (.right entries)
  | .commentaryOmitted _ | .stepsOmitted _ => none

/-- No two thoughts or steps have the same number. -/
def DistinctSequences (snapshot : TelegramCommandProgressSnapshot) : Prop :=
  (snapshot.commentary.map (·.sequence) ++ snapshot.entries.map (·.sequence)).Nodup

instance (snapshot : TelegramCommandProgressSnapshot) : Decidable (DistinctSequences snapshot) :=
  inferInstanceAs (Decidable (List.Nodup _))

/-- The thoughts that fit come in their order, and every step that is shown is in the gap between those of them
that enclose it. -/
structure InGaps (locale : ImLocale) (snapshot : TelegramCommandProgressSnapshot) (batches : List InterleavedBatch) :
    Prop where
  thoughts : batches.flatMap Batch.lefts = (snapshot.keptCommentary locale).entries
  inOrder : ((snapshot.keptCommentary locale).entries.map (·.sequence)).Pairwise (· < ·)
  kept : ∀ thought ∈ (snapshot.keptCommentary locale).entries, ∃ entry ∈ snapshot.commentary,
    entry.sequence = thought.sequence
  steps : (batches.flatMap Batch.rights).Perm snapshot.shownEntries
  between : ∀ before entries after, batches = before ++ .right entries :: after → ∀ entry ∈ entries,
    entry ∈ snapshot.entries ∧ ∀ thought ∈ (snapshot.keptCommentary locale).entries,
      (thought.sequence < entry.sequence ↔ thought ∈ before.flatMap Batch.lefts) ∧
        (entry.sequence < thought.sequence ↔ thought ∈ after.flatMap Batch.lefts)
  apart : ∀ entries, .right entries ∈ batches → ∀ entry ∈ entries, ∀ other ∈ entries,
    ∀ thought ∈ (snapshot.keptCommentary locale).entries,
      thought.sequence < entry.sequence ↔ thought.sequence < other.sequence

theorem fit_suffix (locale : ImLocale) (entries : List TelegramCommentaryRenderedEntry) (dropped : Nat) :
    ((TelegramCommentaryRender.fit locale entries dropped).entries.map (·.sequence)) <:+
      entries.map (·.sequence) := by
  fun_induction TelegramCommentaryRender.fit locale entries dropped with
  | case1 dropped => exact suffix_refl _
  | case2 dropped entry hfits => exact suffix_refl _
  | case3 dropped entry hlong => exact suffix_refl _
  | case4 dropped entry next rest hfits => exact suffix_refl _
  | case5 dropped entry next rest hlong ih => exact ih.trans (suffix_cons _ _)

section

variable {snapshot : TelegramCommandProgressSnapshot} {locale : ImLocale}

theorem kept_sequences_sublist (locale : ImLocale) (snapshot : TelegramCommandProgressSnapshot) :
    ((snapshot.keptCommentary locale).entries.map (·.sequence)).Sublist
      ((snapshot.commentary.insertionSort fun a b => a.sequence ≤ b.sequence).map (·.sequence)) := by
  have hfit := (fit_suffix locale ((((snapshot.commentary.insertionSort fun a b => a.sequence ≤ b.sequence).map
    rendered).filter (·.text ≠ ""))) snapshot.commentaryDroppedEntries).sublist
  refine hfit.trans ?_
  have hfilter := (filter_sublist (p := fun entry : TelegramCommentaryRenderedEntry => decide (entry.text ≠ ""))
    (l := (snapshot.commentary.insertionSort fun a b => a.sequence ≤ b.sequence).map
      rendered)).map (·.sequence)
  rwa [map_map] at hfilter

theorem selectIndices_spec (limit : Nat) (want : Nat → Bool) {bound : Nat} {selected indices : List Nat}
    (hnodup : selected.Nodup) (hselected : ∀ index ∈ selected, index < bound) (hindices : ∀ index ∈ indices, index < bound) :
    (selectIndices limit want selected indices).Nodup ∧
      ∀ index ∈ selectIndices limit want selected indices, index < bound := by
  induction indices generalizing selected with
  | nil => exact ⟨hnodup, hselected⟩
  | cons index indices ih =>
    have hrest : ∀ other ∈ indices, other < bound := fun other hother => hindices other (mem_cons_of_mem _ hother)
    unfold selectIndices
    rw [foldl_cons]
    split
    next hadd =>
      refine ih ?_ ?_ hrest
      · rw [nodup_append]
        refine ⟨hnodup, nodup_singleton index, fun a ha b hb heq => ?_⟩
        rw [mem_singleton.mp hb] at heq
        exact hadd.2.2 (heq ▸ ha)
      · intro other hother
        rcases mem_append.mp hother with hother | hother
        · exact hselected other hother
        · rw [mem_singleton.mp hother]
          exact hindices index mem_cons_self
    next => exact ih hnodup hselected hrest

theorem newest_lt (n : Nat) : ∀ index ∈ (List.range n).reverse, index < n := by
  intro index hindex
  exact mem_range.mp (mem_reverse.mp hindex)

theorem selectedEntryIndices_spec (entries : List TelegramCommandProgressEntry) :
    (selectedEntryIndices entries).Nodup ∧ ∀ index ∈ selectedEntryIndices entries, index < entries.length := by
  have hnewest := newest_lt entries.length
  have hstatus : ∀ (statuses : List TelegramCommandProgressStatus) (selected : List Nat), selected.Nodup →
      (∀ index ∈ selected, index < entries.length) →
      (statuses.foldl (fun selected status => selectIndices telegramCommandProgressVisibleSteps
          (fun index => (entries[index]?).any (·.status = status)) selected (List.range entries.length).reverse)
        selected).Nodup ∧
      ∀ index ∈ statuses.foldl (fun selected status => selectIndices telegramCommandProgressVisibleSteps
          (fun index => (entries[index]?).any (·.status = status)) selected (List.range entries.length).reverse)
        selected, index < entries.length := by
    intro statuses
    induction statuses with
    | nil => exact fun selected hnodup hlt => ⟨hnodup, hlt⟩
    | cons status statuses ih =>
      intro selected hnodup hlt
      obtain ⟨hnodup', hlt'⟩ := selectIndices_spec telegramCommandProgressVisibleSteps
        (fun index => (entries[index]?).any (·.status = status)) hnodup hlt hnewest
      exact ih _ hnodup' hlt'
  obtain ⟨hnodup, hlt⟩ := hstatus [.running, .failed, .interrupted] [] nodup_nil
    fun index hindex => absurd hindex not_mem_nil
  obtain ⟨hnodup', hlt'⟩ := selectIndices_spec telegramCommandProgressVisibleSteps
    (fun _ => true) hnodup hlt hnewest
  have hperm := perm_insertionSort (· ≤ ·) (selectIndices telegramCommandProgressVisibleSteps (fun _ => true)
    ([TelegramCommandProgressStatus.running, .failed, .interrupted].foldl (fun selected status =>
      selectIndices telegramCommandProgressVisibleSteps (fun index => (entries[index]?).any (·.status = status)) selected
        (List.range entries.length).reverse) []) (List.range entries.length).reverse)
  exact ⟨hperm.nodup_iff.mpr hnodup', fun index hindex => hlt' index (hperm.mem_iff.mp hindex)⟩

theorem commentaryAnchors_lt (entries : List TelegramCommandProgressEntry) (sequence : Nat) :
    ∀ index ∈ commentaryAnchors entries sequence, index < entries.length := by
  intro index hindex
  rcases mem_append.mp hindex with hbefore | hafter
  · have hlast := mem_of_getLast? (Option.mem_toList.mp hbefore)
    exact mem_range.mp (mem_filter.mp hlast).1
  · have hfirst : entries.findIdx? (fun entry => sequence < entry.sequence) = some index := Option.mem_toList.mp hafter
    exact (List.findIdx?_eq_some_iff_getElem.mp hfirst).1

theorem interleavedToolIndices_spec (snapshot : TelegramCommandProgressSnapshot) :
    (interleavedToolIndices snapshot).Nodup ∧
      ∀ index ∈ interleavedToolIndices snapshot, index < snapshot.entries.length := by
  obtain ⟨hnodup, hlt⟩ := selectedEntryIndices_spec snapshot.entries
  have hanchors : ∀ index ∈ snapshot.commentary.flatMap fun thought =>
      commentaryAnchors snapshot.entries thought.sequence, index < snapshot.entries.length := by
    intro index hindex
    obtain ⟨thought, -, hanchor⟩ := mem_flatMap.mp hindex
    exact commentaryAnchors_lt _ _ index hanchor
  unfold interleavedToolIndices
  dsimp only
  generalize selectedEntryIndices snapshot.entries = priority at hnodup hlt
  generalize telegramCommandProgressDetailsSteps + priority.length = limit
  obtain ⟨hnodup', hlt'⟩ := selectIndices_spec limit (fun _ => true) hnodup hlt hanchors
  obtain ⟨hall, hallLt⟩ := selectIndices_spec limit (fun _ => true) hnodup' hlt'
    (newest_lt snapshot.entries.length)
  constructor
  · exact (perm_insertionSort ..).nodup_iff.mpr hall
  · intro index hindex
    exact hallLt index ((mem_insertionSort ..).mp hindex)

theorem shownEntries_mem {entry : TelegramCommandProgressEntry} (h : entry ∈ snapshot.shownEntries) :
    entry ∈ snapshot.entries := by
  obtain ⟨index, -, hentry⟩ := mem_filterMap.mp h
  exact mem_of_getElem? hentry

theorem shownEntries_sequences (h : (snapshot.entries.map (·.sequence)).Nodup) :
    (snapshot.shownEntries.map (·.sequence)).Nodup := by
  obtain ⟨hnodup, hlt⟩ := interleavedToolIndices_spec snapshot
  rw [shownEntries, map_filterMap]
  have hread : ∀ index : Nat, (snapshot.entries[index]?).map (fun entry => entry.sequence) =
      (snapshot.entries.map (·.sequence))[index]? := fun index => (List.getElem?_map ..).symm
  simp only [hread]
  refine hnodup.filterMap fun i j n hi hj => ?_
  have hbound : i < (snapshot.entries.map (·.sequence)).length := (List.getElem?_eq_some_iff.mp hi).1
  exact (List.getElem?_inj hbound h).mp (hi.trans hj.symm)

theorem interleavedItems_sorted (h : DistinctSequences snapshot) :
    (snapshot.interleavedItems locale).Pairwise
      fun a b => InterleavedItem.sequence a < InterleavedItem.sequence b := by
  obtain ⟨hcommentary, hentries, hapart⟩ := nodup_append.mp h
  have hsorted := (perm_insertionSort (fun a b : TelegramCommentaryEntry => a.sequence ≤ b.sequence)
    snapshot.commentary).map (·.sequence)
  have hkept := kept_sequences_sublist locale snapshot
  have hdistinct : (((snapshot.keptCommentary locale).entries.map Sum.inl ++
      snapshot.shownEntries.map Sum.inr).map InterleavedItem.sequence).Nodup := by
    have hmap : ((snapshot.keptCommentary locale).entries.map Sum.inl ++
        snapshot.shownEntries.map Sum.inr).map InterleavedItem.sequence =
          (snapshot.keptCommentary locale).entries.map (·.sequence) ++ snapshot.shownEntries.map (·.sequence) := by
      rw [map_append, map_map, map_map]
      rfl
    rw [hmap, nodup_append]
    refine ⟨(hsorted.nodup_iff.mpr hcommentary).sublist hkept, shownEntries_sequences hentries, ?_⟩
    intro m hm n hn
    obtain ⟨entry, hentry, rfl⟩ := mem_map.mp hn
    exact hapart m (hsorted.mem_iff.mp (hkept.subset hm)) _ (mem_map_of_mem (shownEntries_mem hentry))
  have hle : (snapshot.interleavedItems locale).Pairwise
      fun a b => InterleavedItem.sequence a ≤ InterleavedItem.sequence b := pairwise_insertionSort_key _ _
  have hperm := (perm_insertionSort (fun a b : InterleavedItem =>
    InterleavedItem.sequence a ≤ InterleavedItem.sequence b) ((snapshot.keptCommentary locale).entries.map Sum.inl ++
      snapshot.shownEntries.map Sum.inr)).map InterleavedItem.sequence
  have hne := pairwise_map.mp (hperm.nodup_iff.mpr hdistinct)
  exact (hle.and hne).imp fun hboth => Nat.lt_of_le_of_ne hboth.1 hboth.2

theorem interleavedItems_perm (locale : ImLocale) (snapshot : TelegramCommandProgressSnapshot) :
    (snapshot.interleavedItems locale).Perm
      ((snapshot.keptCommentary locale).entries.map Sum.inl ++ snapshot.shownEntries.map Sum.inr) :=
  perm_insertionSort _ _

theorem inGaps_interleavedBatches (locale : ImLocale) (h : DistinctSequences snapshot) :
    InGaps locale snapshot (snapshot.interleavedBatches locale) := by
  have hsorted := @interleavedItems_sorted _ locale h
  have hperm := interleavedItems_perm locale snapshot
  have hitems : (snapshot.interleavedBatches locale).flatMap Batch.items = snapshot.interleavedItems locale :=
    flatMap_batch _
  have hcommentary := perm_insertionSort (fun a b : TelegramCommentaryEntry => a.sequence ≤ b.sequence)
    snapshot.commentary
  have hkept := kept_sequences_sublist locale snapshot
  have hinOrder : ((snapshot.keptCommentary locale).entries.map (·.sequence)).Pairwise (· < ·) := by
    have hle := pairwise_map.mpr (pairwise_insertionSort_key sequence snapshot.commentary)
    have hne := (hcommentary.map (·.sequence)).nodup_iff.mpr (nodup_append.mp h).1
    exact ((hle.and hne).imp fun hboth => Nat.lt_of_le_of_ne hboth.1 hboth.2).sublist hkept
  have hmem : ∀ thought ∈ (snapshot.keptCommentary locale).entries,
      (.inl thought : InterleavedItem) ∈ snapshot.interleavedItems locale := by
    intro thought hthought
    exact hperm.mem_iff.mpr (mem_append_left _ (mem_map_of_mem hthought))
  have hrights : ∀ entry, (.inr entry : InterleavedItem) ∈ snapshot.interleavedItems locale →
      entry ∈ snapshot.entries := by
    intro entry hentry
    rcases mem_append.mp (hperm.mem_iff.mp hentry) with hentry | hentry
    · obtain ⟨thought, -, hthought⟩ := mem_map.mp hentry
      cases hthought
    · obtain ⟨other, hother, heq⟩ := mem_map.mp hentry
      cases heq
      exact shownEntries_mem hother
  have hbetween : ∀ before entries after, snapshot.interleavedBatches locale = before ++ .right entries :: after →
      ∀ entry ∈ entries, entry ∈ snapshot.entries ∧ ∀ thought ∈ (snapshot.keptCommentary locale).entries,
        (thought.sequence < entry.sequence ↔ thought ∈ before.flatMap Batch.lefts) ∧
          (entry.sequence < thought.sequence ↔ thought ∈ after.flatMap Batch.lefts) := by
    intro before entries after hsplit entry hentry
    refine ⟨?_, fun thought hthought => right_between hsorted hsplit hentry (hmem thought hthought)⟩
    refine hrights entry ?_
    rw [← hitems, hsplit, flatMap_append, flatMap_cons]
    exact mem_append_right _ (mem_append_left _ (mem_map_of_mem hentry))
  refine ⟨?_, hinOrder, ?_, ?_, hbetween, ?_⟩
  · rw [flatMap_lefts, hitems]
    have hlefts := hperm.filterMap Sum.getLeft?
    have hall : ((snapshot.keptCommentary locale).entries.map Sum.inl ++
        snapshot.shownEntries.map Sum.inr).filterMap Sum.getLeft? = (snapshot.keptCommentary locale).entries := by
      simp [Function.comp_def]
    rw [hall] at hlefts
    -- both lists are in the order of their numbers
    have hleft : ((snapshot.interleavedItems locale).filterMap Sum.getLeft?).Pairwise
        fun a b => a.sequence < b.sequence := by
      refine List.Pairwise.filterMap _ ?_ hsorted
      intro a b hlt thought hthought other hother
      rw [Sum.getLeft?_eq_some_iff.mp hthought, Sum.getLeft?_eq_some_iff.mp hother] at hlt
      exact hlt
    exact hlefts.eq_of_pairwise (fun a b _ _ hab hba => absurd hab (Nat.lt_asymm hba)) hleft
      (pairwise_map.mp hinOrder)
  · intro thought hthought
    have hsequence := hkept.subset (mem_map_of_mem hthought)
    obtain ⟨entry, hentry, heq⟩ := mem_map.mp hsequence
    exact ⟨entry, hcommentary.mem_iff.mp hentry, heq⟩
  · rw [flatMap_rights, hitems]
    have hsteps := hperm.filterMap Sum.getRight?
    have hall : ((snapshot.keptCommentary locale).entries.map Sum.inl ++
        snapshot.shownEntries.map Sum.inr).filterMap Sum.getRight? = snapshot.shownEntries := by
      simp [Function.comp_def]
    rwa [hall] at hsteps
  · intro entries hbatch entry hentry other hother thought hthought
    obtain ⟨before, after, hsplit⟩ := append_of_mem hbatch
    have hthis := (hbetween before entries after hsplit entry hentry).2 thought hthought
    have hthat := (hbetween before entries after hsplit other hother).2 thought hthought
    exact hthis.1.trans hthat.1.symm

theorem batchBlocks_batch (hasBlocks : String → Bool) (omitted : Nat) (isFirstBatch : Bool)
    (batches : List InterleavedBatch) :
    (batchBlocks hasBlocks omitted isFirstBatch batches).filterMap
        InterleavedBlock.batch =
      batches.filter fun batch => batch.isRight || batch.lefts.any (hasBlocks ·.text) := by
  induction batches generalizing isFirstBatch with
  | nil => rfl
  | cons batch batches ih =>
    cases batch with
    | left entries =>
      rw [batchBlocks, filterMap_append, ih, filter_cons]
      cases hany : entries.any (hasBlocks ·.text) with
      | false => simp [Batch.isRight, Batch.lefts, hany]
      | true => simp [Batch.isRight, Batch.lefts, hany, InterleavedBlock.batch]
    | right entries =>
      rw [batchBlocks, filter_cons]
      simp [Batch.isRight, InterleavedBlock.batch, ih]

/-- The rendering shows the batches in their order: every summary of steps is one batch of them, and so is every
panel of thoughts. -/
theorem renderInterleavedProgress_batch (locale : ImLocale) (snapshot : TelegramCommandProgressSnapshot)
    (hasBlocks : String → Bool) :
    (snapshot.renderInterleavedProgress locale hasBlocks).filterMap InterleavedBlock.batch =
      (snapshot.interleavedBatches locale).filter
        fun batch => batch.isRight || batch.lefts.any (hasBlocks ·.text) := by
  have hblocks := batchBlocks_batch hasBlocks snapshot.omittedEntries true (snapshot.interleavedBatches locale)
  rw [renderInterleavedProgress]
  rw [filterMap_append, filterMap_append, hblocks]
  have hnote : ∀ (shows : Prop) [Decidable shows] (block : InterleavedBlock), block.batch = none →
      (if shows then [block] else []).filterMap InterleavedBlock.batch = [] := by
    intro shows _ block hnone
    split
    next => rw [filterMap_cons_none hnone]; rfl
    next => rfl
  rw [hnote _ _ rfl, hnote _ _ rfl, nil_append, append_nil]

/-- The interleaved rendering keeps the order of events, as far as it shows them. -/
theorem interleaved_in_gaps (locale : ImLocale) (snapshot : TelegramCommandProgressSnapshot)
    (hasBlocks : String → Bool) (h : DistinctSequences snapshot) :
    InGaps locale snapshot (snapshot.interleavedBatches locale) ∧
      (snapshot.renderInterleavedProgress locale hasBlocks).filterMap InterleavedBlock.batch =
        (snapshot.interleavedBatches locale).filter
          fun batch => batch.isRight || batch.lefts.any (hasBlocks ·.text) :=
  ⟨inGaps_interleavedBatches locale h, renderInterleavedProgress_batch locale snapshot hasBlocks⟩

end

theorem trim_eq_self {s : String} (h : ∀ c ∈ s.toList, isWhitespace c = false) : trim s = s := by
  have hkeep : ∀ l : List Char, (∀ c ∈ l, isWhitespace c = false) → l.dropWhile isWhitespace = l := by
    intro l hl
    cases l with
    | nil => rfl
    | cons c rest => exact dropWhile_cons_of_neg (by simp [hl c mem_cons_self])
  rw [trim, hkeep _ h, hkeep _ fun c hc => h c (mem_reverse.mp hc), reverse_reverse,
    String.ofList_toList]

theorem fit_cons_of_long {locale : ImLocale} {entry next : TelegramCommentaryRenderedEntry}
    {rest : List TelegramCommentaryRenderedEntry} {dropped : Nat}
    (hlong : telegramCommentaryMaxChars ≤ charCount entry.text) :
    TelegramCommentaryRender.fit locale (entry :: next :: rest) dropped =
      TelegramCommentaryRender.fit locale (next :: rest) (saturatingAdd dropped 1) := by
  rw [TelegramCommentaryRender.fit, if_neg]
  have htotal : charCount entry.text + 2 ≤ ((entry :: next :: rest).map fun entry => charCount entry.text + 2).sum := by
    exact Nat.le_add_right _ _
  unfold TelegramCommentaryRender.renderedCharCount
  dsimp only
  split
  next =>
    unfold saturatingAdd
    have hmax : telegramCommentaryMaxChars < u64Max := by decide
    omega
  next => omega

def stepOf (sequence : Nat) : TelegramCommandProgressEntry :=
  ⟨"item", .command, "ls", .succeeded, none, none, none, sequence⟩

def turnSnapshot (commentary : List TelegramCommentaryEntry) (steps : List Nat) : TelegramCommandProgressSnapshot where
  turnId := "turn"
  revision := 1
  messageId := none
  entries := steps.map stepOf
  droppedEntries := 0
  retryCount := 0
  retryError := none
  reasoningSummary := none
  planExplanation := none
  plan := []
  diffSummary := none
  webSearches := []
  droppedWebSearches := 0
  commentary := commentary
  commentaryDroppedEntries := 0
  collab := none
  finalReply := none
  elapsedMs := none
  completed := false
  failed := false

/-- A thought that fills a message, a short one after it, and more steps than are shown. -/
def longTurn (thought : String) : TelegramCommandProgressSnapshot :=
  turnSnapshot [⟨"a", thought, 2⟩, ⟨"b", "b", 4⟩] ([1, 3] ++ (List.range 32).map (· + 5))

theorem longTurn_distinct (thought : String) : DistinctSequences (longTurn thought) :=
  (by decide +kernel : DistinctSequences (longTurn ""))

theorem longTurn_kept {thought : String} (htrim : trim thought = thought)
    (hlong : telegramCommentaryMaxChars ≤ charCount thought) :
    ((longTurn thought).keptCommentary .enUs).entries = [⟨"b", 4⟩] := by
  have hne : thought ≠ "" := by
    intro heq
    rw [heq] at hlong
    exact absurd hlong (by decide)
  have hshort : trim "b" = "b" := by decide
  have hentries : (((longTurn thought).commentary.insertionSort fun a b => a.sequence ≤ b.sequence).map
      rendered).filter (·.text ≠ "") = [⟨thought, 2⟩, ⟨"b", 4⟩] := by
    simp [longTurn, turnSnapshot, rendered, htrim, hshort, hne]
  unfold keptCommentary renderCommentary
  dsimp only
  rw [hentries, fit_cons_of_long hlong]
  exact (by decide : (TelegramCommentaryRender.fit .enUs [⟨"b", 4⟩] 1).entries = [⟨"b", 4⟩])

theorem shownEntries_congr {snapshot other : TelegramCommandProgressSnapshot} (hentries : snapshot.entries = other.entries)
    (hcommentary : snapshot.commentary.map (·.sequence) = other.commentary.map (·.sequence)) :
    snapshot.shownEntries = other.shownEntries := by
  have hanchors : ∀ (entries : List TelegramCommandProgressEntry) (commentary : List TelegramCommentaryEntry),
      (commentary.flatMap fun thought => commentaryAnchors entries thought.sequence) =
        (commentary.map (·.sequence)).flatMap (commentaryAnchors entries) := by
    intro entries commentary
    rw [flatMap_map]
  unfold shownEntries interleavedToolIndices
  rw [hanchors, hanchors, hentries, hcommentary]

theorem longTurn_batches {thought : String} (htrim : trim thought = thought)
    (hlong : telegramCommentaryMaxChars ≤ charCount thought) :
    (longTurn thought).interleavedBatches .enUs =
      [.right [stepOf 1, stepOf 3], .left [⟨"b", 4⟩], .right (stepOf 5 :: (List.range 27).map fun n => stepOf (n + 10))] := by
  have hshown : (longTurn thought).shownEntries = (longTurn "").shownEntries := shownEntries_congr rfl rfl
  rw [interleavedBatches, interleavedItems,
    longTurn_kept htrim hlong, hshown]
  decide +kernel

def fullThought : String := String.ofList (List.replicate telegramCommentaryMaxChars 'a')

theorem fullThought_trim : trim fullThought = fullThought := by
  refine trim_eq_self fun c hc => ?_
  rw [fullThought, String.toList_ofList] at hc
  rw [eq_of_mem_replicate hc]
  rfl

theorem fullThought_long : telegramCommentaryMaxChars ≤ charCount fullThought := by
  rw [RustText.charCount, fullThought, String.toList_ofList, length_replicate]

theorem long_turn_not_in_gaps : DistinctSequences (longTurn fullThought) ∧
    (∃ entry ∈ (longTurn fullThought).entries, ∀ batch ∈ (longTurn fullThought).interleavedBatches .enUs,
      entry ∉ batch.rights) ∧
    ∃ thought ∈ (longTurn fullThought).commentary, ∃ batch ∈ (longTurn fullThought).interleavedBatches .enUs,
      ∃ before ∈ batch.rights, ∃ after ∈ batch.rights,
        before.sequence < thought.sequence ∧ thought.sequence < after.sequence := by
  have hbatches := longTurn_batches fullThought_trim fullThought_long
  refine ⟨longTurn_distinct _, ⟨stepOf 6, ?_, ?_⟩,
    ⟨"a", fullThought, 2⟩, mem_cons_self, ?_⟩
  · exact mem_map_of_mem (by decide)
  · rw [hbatches]
    decide +kernel
  · rw [hbatches]
    exact ⟨_, mem_cons_self, stepOf 1, mem_cons_self, stepOf 3,
      mem_cons_of_mem _ mem_cons_self, Nat.lt_succ_self 1, Nat.lt_succ_self 2⟩

/-- A turn of two thoughts between three steps. -/
theorem short_turn_in_gaps : ∃ snapshot, DistinctSequences snapshot ∧
    InGaps .enUs snapshot (snapshot.interleavedBatches .enUs) ∧
      (snapshot.renderInterleavedProgress .enUs fun _ => true).filterMap InterleavedBlock.batch =
        (snapshot.interleavedBatches .enUs).filter fun batch => batch.isRight || batch.lefts.any fun _ => true :=
  have hdistinct : DistinctSequences (turnSnapshot [⟨"a", "a", 2⟩, ⟨"b", "b", 4⟩] [1, 3, 5]) := by decide
  ⟨_, hdistinct, interleaved_in_gaps .enUs _ (fun _ => true) hdistinct⟩

end MochiPort

import MochiPort.ProgressEntries
import MochiPort.Runs

namespace MochiPort

open List ProgressItem Roster

/-- The progress of a thread, with what the calls of the turn have shown so far: the items that got an entry, the
entries that were removed, and the first number of each item. -/
structure ProgressLedger where
  row : ThreadProgress
  commandsSeen : List String
  commentariesSeen : List String
  removed : Nat
  firstNumbers : Table ProgressItem Nat

namespace ProgressLedger

variable (turnId : String)

def progress (s : ProgressLedger) : TelegramCommandProgressState := s.row.entryOfTurn turnId

def start (row : ThreadProgress) : ProgressLedger := ⟨row, [], [], 0, ∅⟩

/-- The numbers with that of an item that has one now and had none before. -/
def noteNumber (numbers : Table ProgressItem Nat) (p : TelegramCommandProgressState) (item : ProgressItem) :
    Table ProgressItem Nat :=
  match numbers.lookup item, p.numberOf item with
  | none, some n => numbers.insert item n
  | _, _ => numbers

def step (s : ProgressLedger) (call : ProgressCall) : ProgressLedger :=
  let row := call.apply turnId s.row
  let p := row.entryOfTurn turnId
  { row := row
    commandsSeen :=
      match call with
      | .upsertCommand entry _ =>
        if p.listsCommand entry.itemId then s.commandsSeen.insert entry.itemId else s.commandsSeen
      | _ => s.commandsSeen
    commentariesSeen :=
      match call with
      | .upsertCommentary itemId _ =>
        if p.listsCommentary itemId then s.commentariesSeen.insert itemId else s.commentariesSeen
      | _ => s.commentariesSeen
    removed :=
      match call with
      | .removeCommentary _ | .removeCommentaryText _ =>
        s.removed + ((s.progress turnId).commentaryEntries.length - p.commentaryEntries.length)
      | _ => s.removed
    firstNumbers :=
      match call.item with
      | some item => noteNumber s.firstNumbers p item
      | none => s.firstNumbers }

/-- No call brings back an item whose entry was dropped or removed, and the numbers do not run out. -/
def BringsNothingBack (s : ProgressLedger) : ProgressCall → Prop
  | .upsertCommand entry _ =>
    (s.progress turnId).completed = true ∨ (s.progress turnId).listsCommand entry.itemId = true ∨
      (entry.itemId ∉ s.commandsSeen ∧ (s.progress turnId).nextSequence < u64Max)
  | .upsertCommentary itemId _ =>
    s.row.currentTurn ≠ some turnId ∨ (s.progress turnId).completed = true ∨
      (s.progress turnId).listsCommentary itemId = true ∨
      (itemId ∉ s.commentariesSeen ∧
        ((s.progress turnId).reservedCommentarySequences.lookup itemId = none →
          (s.progress turnId).nextSequence < u64Max))
  | .reserveCommentary itemId =>
    (s.progress turnId).numberOf (.commentary itemId) = none → (s.progress turnId).nextSequence < u64Max
  | _ => True

instance (s : ProgressLedger) (call : ProgressCall) : Decidable (s.BringsNothingBack turnId call) := by
  cases call <;> unfold BringsNothingBack <;> infer_instance

/-- Every item that was seen is listed once or counted as dropped or removed; its number is the first one it had,
and nobody else's. -/
structure Accounted (s : ProgressLedger) : Prop where
  commandCount : (s.progress turnId).entries.length + (s.progress turnId).droppedEntries = s.commandsSeen.length
  commentaryCount : (s.progress turnId).commentaryEntries.length + (s.progress turnId).commentaryDroppedEntries +
    s.removed = s.commentariesSeen.length
  commandsSeen : s.commandsSeen.Nodup
  commentariesSeen : s.commentariesSeen.Nodup
  commandsOnce : ((s.progress turnId).entries.map (·.itemId)).Nodup
  commentariesOnce : ((s.progress turnId).commentaryEntries.map (·.itemId)).Nodup
  commandNumbers : ∀ entry ∈ (s.progress turnId).entries, entry.sequence ≠ 0 ∧
    s.firstNumbers.lookup (.command entry.itemId) = some entry.sequence
  commentaryNumbers : ∀ entry ∈ (s.progress turnId).commentaryEntries, entry.sequence ≠ 0 ∧
    s.firstNumbers.lookup (.commentary entry.itemId) = some entry.sequence
  distinct : ∀ item other n, s.firstNumbers.lookup item = some n → s.firstNumbers.lookup other = some n → item = other

end ProgressLedger

namespace ProgressLedger

open TelegramCommandProgressState

variable {turnId : String} {s t : ProgressLedger} {q : TelegramCommandProgressState}

/-- The two lists account for the items that were seen, and the number of an item that was not seen is the one
reserved for it. -/
structure Sound (turnId : String) (s : ProgressLedger) : Prop where
  commands : Keeps (s.progress turnId).commandRoster (s.progress turnId).droppedEntries s.commandsSeen
    fun itemId => s.firstNumbers.lookup (.command itemId)
  commentaries : Keeps (s.progress turnId).commentaryRoster
    ((s.progress turnId).commentaryDroppedEntries + s.removed) s.commentariesSeen
    fun itemId => s.firstNumbers.lookup (.commentary itemId)
  fits : (s.progress turnId).commentaryRoster.length ≤ telegramCommentaryMaxEntries
  numbered : Numbered (s.progress turnId).nextSequence s.firstNumbers.lookup
  next_pos : 0 < (s.progress turnId).nextSequence
  next_le : (s.progress turnId).nextSequence ≤ u64Max
  commands_numbered : ∀ itemId ∈ s.commandsSeen, (s.firstNumbers.lookup (.command itemId)).isSome
  commentaries_numbered : ∀ itemId ∈ s.commentariesSeen, (s.firstNumbers.lookup (.commentary itemId)).isSome
  command_unseen : ∀ itemId, itemId ∉ s.commandsSeen → s.firstNumbers.lookup (.command itemId) = none
  commentary_unseen : ∀ itemId, itemId ∉ s.commentariesSeen →
    s.firstNumbers.lookup (.commentary itemId) = (s.progress turnId).reservedCommentarySequences.lookup itemId

theorem Sound.accounted (h : Sound turnId s) : s.Accounted turnId where
  commandCount := by
    have hcount := h.commands.count
    rwa [commandRoster, length_map] at hcount
  commentaryCount := by
    have hcount := h.commentaries.count
    rw [commentaryRoster, length_map] at hcount
    omega
  commandsSeen := h.commands.seen_nodup
  commentariesSeen := h.commentaries.seen_nodup
  commandsOnce := by
    have hnodup := h.commands.listed_nodup
    rwa [commandRoster, map_map] at hnodup
  commentariesOnce := by
    have hnodup := h.commentaries.listed_nodup
    rwa [commentaryRoster, map_map] at hnodup
  commandNumbers := by
    intro entry hentry
    have hfirst := h.commands.numbered _ (mem_map_of_mem hentry)
    have hpos := h.numbered.pos _ _ hfirst
    exact ⟨Nat.ne_of_gt hpos, hfirst⟩
  commentaryNumbers := by
    intro entry hentry
    have hfirst := h.commentaries.numbered _ (mem_map_of_mem hentry)
    have hpos := h.numbered.pos _ _ hfirst
    exact ⟨Nat.ne_of_gt hpos, hfirst⟩
  distinct := h.numbered.unique

theorem sound_start {row : ThreadProgress} (h : ∀ p ∈ row.progress, p.turnId ≠ turnId) : Sound turnId (start row) := by
  have hnew : (start row).progress turnId = .new turnId := by
    show (if (row.progress.getD (.new turnId)).turnId = turnId then row.progress.getD (.new turnId) else _) = _
    cases hp : row.progress with
    | none => exact if_pos rfl
    | some p => exact if_neg (h p hp)
  constructor
  case commands => rw [hnew]; exact keeps_nil _
  case commentaries => rw [hnew]; exact keeps_nil _
  case fits => rw [hnew]; exact Nat.zero_le _
  case numbered =>
    constructor
    case pos => exact fun k n hk => absurd hk (by simp [start])
    case lt => exact fun k n hk => absurd hk (by simp [start])
    case unique => exact fun k l n hk => absurd hk (by simp [start])
  case next_pos => rw [hnew]; exact Nat.one_pos
  case next_le => rw [hnew]; exact Nat.le_of_ble_eq_true rfl
  case commands_numbered => exact fun itemId hmem => absurd hmem not_mem_nil
  case commentaries_numbered => exact fun itemId hmem => absurd hmem not_mem_nil
  case command_unseen => exact fun itemId _ => rfl
  case commentary_unseen => rw [hnew]; exact fun itemId _ => rfl

variable {item : ProgressItem} {n : Nat}

section

variable (h : Sound turnId s)
include h

theorem Sound.isSome_of_numberOf (hn : (s.progress turnId).numberOf item = some n) :
    (s.firstNumbers.lookup item).isSome := by
  cases item with
  | command itemId =>
    obtain ⟨e, he, hitem⟩ := lookup_isSome_iff.mp (Option.isSome_of_eq_some hn)
    rw [eq_of_beq hitem]
    exact h.commands_numbered _ (h.commands.listed_seen e he)
  | commentary itemId =>
    by_cases hseen : itemId ∈ s.commentariesSeen
    · exact h.commentaries_numbered itemId hseen
    · have hunlisted : (s.progress turnId).commentaryRoster.lookup itemId = none := by
        refine lookup_eq_none_iff.mpr fun e he => bne_iff_ne.mpr ?_
        intro hitem
        exact hseen (hitem ▸ h.commentaries.listed_seen e he)
      have hreserved : (s.progress turnId).reservedCommentarySequences.lookup itemId = some n := by
        have hboth : ((s.progress turnId).commentaryRoster.lookup itemId).or
          ((s.progress turnId).reservedCommentarySequences.lookup itemId) = some n := hn
        rwa [hunlisted] at hboth
      rw [h.commentary_unseen itemId hseen, hreserved]
      rfl

theorem Sound.commandsSeen_lt : s.commandsSeen.length < (s.progress turnId).nextSequence :=
  (h.numbered.comp (f := command) fun _ _ heq => command.inj heq).length_lt h.next_pos
    h.commands.seen_nodup h.commands_numbered

theorem Sound.commentariesSeen_lt : s.commentariesSeen.length < (s.progress turnId).nextSequence :=
  (h.numbered.comp (f := commentary) fun _ _ heq => commentary.inj heq).length_lt h.next_pos
    h.commentaries.seen_nodup h.commentaries_numbered

theorem Sound.same (hsame : (s.progress turnId).SameRosters (t.progress turnId))
    (hcommands : t.commandsSeen = s.commandsSeen) (hcommentaries : t.commentariesSeen = s.commentariesSeen)
    (hremoved : t.removed = s.removed) (hnumbers : t.firstNumbers = s.firstNumbers) : Sound turnId t where
  commands := by
    rw [hsame.commands, hsame.commandsDropped, hcommands, hnumbers]
    exact h.commands
  commentaries := by
    rw [hsame.commentaries, hsame.commentariesDropped, hcommentaries, hremoved, hnumbers]
    exact h.commentaries
  fits := by
    rw [hsame.commentaries]
    exact h.fits
  numbered := by
    rw [hsame.nextSequence, hnumbers]
    exact h.numbered
  next_pos := by
    rw [hsame.nextSequence]
    exact h.next_pos
  next_le := by
    rw [hsame.nextSequence]
    exact h.next_le
  commands_numbered := by
    rw [hcommands, hnumbers]
    exact h.commands_numbered
  commentaries_numbered := by
    rw [hcommentaries, hnumbers]
    exact h.commentaries_numbered
  command_unseen := by
    rw [hcommands, hnumbers]
    exact h.command_unseen
  commentary_unseen := by
    rw [hcommentaries, hnumbers, hsame.reserved]
    exact h.commentary_unseen

end

variable {numbers : Table ProgressItem Nat}

theorem lookup_insert_other {item other : ProgressItem} (h : other ≠ item) (n : Nat) :
    (numbers.insert item n).lookup other = numbers.lookup other := by
  rw [Table.lookup_insert_eq, if_neg h]

variable {itemId : String}

theorem Sound.keepsCommand (h : Sound turnId s) (hnew : itemId ∉ s.commandsSeen) :
    Keeps (keepNewest telegramCommandProgressMaxEntries
        ((s.progress turnId).commandRoster ++ [(itemId, (s.progress turnId).nextSequence)])
        (s.progress turnId).droppedEntries).1
      (keepNewest telegramCommandProgressMaxEntries
        ((s.progress turnId).commandRoster ++ [(itemId, (s.progress turnId).nextSequence)])
        (s.progress turnId).droppedEntries).2 (itemId :: s.commandsSeen)
      fun other => (s.firstNumbers.insert (.command itemId) (s.progress turnId).nextSequence).lookup (.command other) := by
  have hroom := Nat.lt_of_lt_of_le h.commandsSeen_lt h.next_le
  refine @keeps_pushNewest _ _ 0 _ _ _ h.commands _ _ hnew ?_ ?_ _ hroom
  · exact (Table.lookup_insert_eq ..).trans (if_pos rfl)
  · intro other hother
    exact lookup_insert_other (fun heq => hother (command.inj heq)) _

theorem Sound.addsCommand (h : Sound turnId s) (hnew : itemId ∉ s.commandsSeen)
    (hroom : (s.progress turnId).nextSequence < u64Max)
    (hadds : (s.progress turnId).AddsCommand (t.progress turnId) itemId)
    (hcommands : t.commandsSeen = itemId :: s.commandsSeen) (hcommentaries : t.commentariesSeen = s.commentariesSeen)
    (hremoved : t.removed = s.removed)
    (hnumbers : t.firstNumbers = s.firstNumbers.insert (.command itemId) (s.progress turnId).nextSequence) :
    Sound turnId t := by
  have hcommentary : ∀ other, t.firstNumbers.lookup (.commentary other) = s.firstNumbers.lookup (.commentary other) := by
    intro other
    rw [hnumbers]
    exact lookup_insert_other (fun heq => by cases heq) _
  have hcommand : ∀ other, other ≠ itemId →
      t.firstNumbers.lookup (.command other) = s.firstNumbers.lookup (.command other) := by
    intro other hother
    rw [hnumbers]
    exact lookup_insert_other (fun heq => hother (command.inj heq)) _
  have hitem : t.firstNumbers.lookup (.command itemId) = some (s.progress turnId).nextSequence := by
    rw [hnumbers]
    exact (Table.lookup_insert_eq ..).trans (if_pos rfl)
  have hnext : (t.progress turnId).nextSequence = (s.progress turnId).nextSequence + 1 := by
    rw [hadds.nextSequence, saturatingAdd_one hroom]
  constructor
  case commands =>
    rw [hadds.commands, hadds.commandsDropped, hcommands, hnumbers]
    exact h.keepsCommand hnew
  case commentaries =>
    rw [hadds.commentaries, hadds.commentariesDropped, hcommentaries, hremoved]
    exact h.commentaries.congr fun other _ => hcommentary other
  case fits =>
    rw [hadds.commentaries]
    exact h.fits
  case numbered =>
    rw [hnext]
    refine h.numbered.assign h.next_pos hitem fun other hother => ?_
    rw [hnumbers]
    exact lookup_insert_other hother _
  case next_pos =>
    rw [hnext]
    exact Nat.succ_pos _
  case next_le =>
    rw [hnext]
    exact hroom
  case commands_numbered =>
    intro other hother
    by_cases heq : other = itemId
    · rw [heq, hitem]
      rfl
    · rw [hcommand other heq]
      rw [hcommands] at hother
      exact h.commands_numbered other ((mem_cons.mp hother).resolve_left heq)
  case commentaries_numbered =>
    intro other hother
    rw [hcommentary other]
    exact h.commentaries_numbered other (hcommentaries ▸ hother)
  case command_unseen =>
    intro other hother
    rw [hcommands] at hother
    rw [hcommand other fun heq => hother (heq ▸ mem_cons_self)]
    exact h.command_unseen other fun hmem => hother (mem_cons_of_mem _ hmem)
  case commentary_unseen =>
    intro other hother
    rw [hcommentary other, hadds.reserved]
    exact h.commentary_unseen other (hcommentaries ▸ hother)

/-- The numbers after a new commentary: a reserved number was noted when it was reserved. -/
def withCommentary (turnId : String) (s : ProgressLedger) (itemId : String) : Table ProgressItem Nat :=
  if ((s.progress turnId).reservedCommentarySequences.lookup itemId).isSome then s.firstNumbers
  else s.firstNumbers.insert (.commentary itemId) (s.progress turnId).nextSequence

theorem withCommentary_other {other : ProgressItem} (h : other ≠ .commentary itemId) :
    (s.withCommentary turnId itemId).lookup other = s.firstNumbers.lookup other := by
  unfold withCommentary
  split
  next => rfl
  next => exact lookup_insert_other h _

section

variable (h : Sound turnId s)
include h

section

variable (hnew : itemId ∉ s.commentariesSeen)
include hnew

theorem Sound.withCommentary_item :
    (s.withCommentary turnId itemId).lookup (.commentary itemId) =
      some (((s.progress turnId).reservedCommentarySequences.lookup itemId).getD (s.progress turnId).nextSequence) := by
  have hunseen := h.commentary_unseen itemId hnew
  unfold withCommentary
  cases hreserved : (s.progress turnId).reservedCommentarySequences.lookup itemId with
  | some n =>
    rw [hreserved] at hunseen
    exact hunseen
  | none => exact (Table.lookup_insert_eq ..).trans (if_pos rfl)

theorem Sound.keepsCommentary :
    Keeps (keepNewest telegramCommentaryMaxEntries ((s.progress turnId).commentaryRoster ++
        [(itemId, ((s.progress turnId).reservedCommentarySequences.lookup itemId).getD (s.progress turnId).nextSequence)])
        (s.progress turnId).commentaryDroppedEntries).1
      ((keepNewest telegramCommentaryMaxEntries ((s.progress turnId).commentaryRoster ++
        [(itemId, ((s.progress turnId).reservedCommentarySequences.lookup itemId).getD (s.progress turnId).nextSequence)])
        (s.progress turnId).commentaryDroppedEntries).2 + s.removed) (itemId :: s.commentariesSeen)
      fun other => (s.withCommentary turnId itemId).lookup (.commentary other) := by
  have hroom := Nat.lt_of_lt_of_le h.commentariesSeen_lt h.next_le
  refine keeps_pushNewest h.commentaries hnew (h.withCommentary_item hnew) ?_ _ hroom
  intro other hother
  exact withCommentary_other fun heq => hother (commentary.inj heq)

theorem Sound.addsCommentary (hroom : (s.progress turnId).reservedCommentarySequences.lookup itemId = none →
      (s.progress turnId).nextSequence < u64Max)
    (hadds : (s.progress turnId).AddsCommentary (t.progress turnId) itemId)
    (hcommands : t.commandsSeen = s.commandsSeen) (hcommentaries : t.commentariesSeen = itemId :: s.commentariesSeen)
    (hremoved : t.removed = s.removed) (hnumbers : t.firstNumbers = s.withCommentary turnId itemId) :
    Sound turnId t := by
  have hcommand : ∀ other, t.firstNumbers.lookup (.command other) = s.firstNumbers.lookup (.command other) := by
    intro other
    rw [hnumbers]
    exact withCommentary_other fun heq => by cases heq
  have hcommentary : ∀ other, other ≠ itemId →
      t.firstNumbers.lookup (.commentary other) = s.firstNumbers.lookup (.commentary other) := by
    intro other hother
    rw [hnumbers]
    exact withCommentary_other fun heq => hother (commentary.inj heq)
  have hitem := h.withCommentary_item hnew
  rw [← hnumbers] at hitem
  -- a reserved number uses no further one up
  have hnext : Numbered (t.progress turnId).nextSequence t.firstNumbers.lookup ∧
      (s.progress turnId).nextSequence ≤ (t.progress turnId).nextSequence ∧
      (t.progress turnId).nextSequence ≤ u64Max := by
    have hnextSequence := hadds.nextSequence
    cases hreserved : (s.progress turnId).reservedCommentarySequences.lookup itemId with
    | some n =>
      have hnoted : t.firstNumbers = s.firstNumbers := by
        rw [hnumbers, withCommentary, hreserved]
        rfl
      rw [hreserved, if_pos (Option.isSome_some ..)] at hnextSequence
      rw [hnextSequence, hnoted]
      exact ⟨h.numbered, Nat.le_refl _, h.next_le⟩
    | none =>
      have hfree := hroom hreserved
      rw [hreserved, if_neg (by exact Bool.false_ne_true), saturatingAdd_one hfree] at hnextSequence
      rw [hreserved, Option.getD_none] at hitem
      rw [hnextSequence]
      refine ⟨h.numbered.assign h.next_pos hitem fun other hother => ?_, Nat.le_succ _, hfree⟩
      rw [hnumbers]
      exact withCommentary_other hother
  obtain ⟨hnumbered, hgrows, hle⟩ := hnext
  constructor
  case commands =>
    rw [hadds.commands, hadds.commandsDropped, hcommands]
    exact h.commands.congr fun other _ => hcommand other
  case commentaries =>
    rw [hadds.commentaries, hadds.commentariesDropped, hcommentaries, hremoved, hnumbers]
    exact h.keepsCommentary hnew
  case fits =>
    rw [hadds.commentaries]
    exact keepNewest_length_le ..
  case numbered => exact hnumbered
  case next_pos => exact Nat.lt_of_lt_of_le h.next_pos hgrows
  case next_le => exact hle
  case commands_numbered =>
    intro other hother
    rw [hcommand other]
    exact h.commands_numbered other (hcommands ▸ hother)
  case commentaries_numbered =>
    intro other hother
    by_cases heq : other = itemId
    · rw [heq, hitem]
      rfl
    · rw [hcommentary other heq]
      rw [hcommentaries] at hother
      exact h.commentaries_numbered other ((mem_cons.mp hother).resolve_left heq)
  case command_unseen =>
    intro other hother
    rw [hcommand other]
    exact h.command_unseen other (hcommands ▸ hother)
  case commentary_unseen =>
    intro other hother
    rw [hcommentaries] at hother
    have hne : other ≠ itemId := fun heq => hother (heq ▸ mem_cons_self)
    rw [hcommentary other hne, hadds.reserved other hne]
    exact h.commentary_unseen other fun hmem => hother (mem_cons_of_mem _ hmem)

end

theorem Sound.reservesCommentary (hfree : (s.progress turnId).reservedCommentarySequences.lookup itemId = none)
    (hroom : (s.progress turnId).nextSequence < u64Max)
    (hreserves : (s.progress turnId).ReservesCommentary (t.progress turnId) itemId)
    (hcommands : t.commandsSeen = s.commandsSeen) (hcommentaries : t.commentariesSeen = s.commentariesSeen)
    (hremoved : t.removed = s.removed)
    (hnumbers : t.firstNumbers = if (s.firstNumbers.lookup (.commentary itemId)).isSome then s.firstNumbers
      else s.firstNumbers.insert (.commentary itemId) (s.progress turnId).nextSequence) : Sound turnId t := by
  have hnext : (t.progress turnId).nextSequence = (s.progress turnId).nextSequence + 1 := by
    rw [hreserves.nextSequence, saturatingAdd_one hroom]
  have hother : ∀ item, item ≠ .commentary itemId → t.firstNumbers.lookup item = s.firstNumbers.lookup item := by
    intro item hitem
    rw [hnumbers]
    split
    next => rfl
    next => exact lookup_insert_other hitem _
  -- an item that was seen has its number already
  have hseen : ∀ other ∈ s.commentariesSeen,
      t.firstNumbers.lookup (.commentary other) = s.firstNumbers.lookup (.commentary other) := by
    intro other hmem
    by_cases heq : other = itemId
    · rw [hnumbers, if_pos (heq ▸ h.commentaries_numbered other hmem)]
    · exact hother _ fun hitem => heq (commentary.inj hitem)
  have hnumbered : Numbered (t.progress turnId).nextSequence t.firstNumbers.lookup := by
    rw [hnext]
    by_cases hfirst : (s.firstNumbers.lookup (.commentary itemId)).isSome
    · rw [hnumbers, if_pos hfirst]
      exact h.numbered.mono (Nat.le_succ _)
    · refine h.numbered.assign h.next_pos ?_ hother
      rw [hnumbers, if_neg hfirst, Table.lookup_insert_eq, if_pos rfl]
  constructor
  case commands =>
    rw [hreserves.commands, hreserves.commandsDropped, hcommands]
    exact h.commands.congr fun other _ => hother _ fun hitem => by cases hitem
  case commentaries =>
    rw [hreserves.commentaries, hreserves.commentariesDropped, hcommentaries, hremoved]
    exact h.commentaries.congr hseen
  case fits =>
    rw [hreserves.commentaries]
    exact h.fits
  case numbered => exact hnumbered
  case next_pos =>
    rw [hnext]
    exact Nat.succ_pos _
  case next_le =>
    rw [hnext]
    exact hroom
  case commands_numbered =>
    intro other hmem
    rw [hother _ fun hitem => by cases hitem]
    exact h.commands_numbered other (hcommands ▸ hmem)
  case commentaries_numbered =>
    intro other hmem
    rw [hcommentaries] at hmem
    rw [hseen other hmem]
    exact h.commentaries_numbered other hmem
  case command_unseen =>
    intro other hmem
    rw [hother _ fun hitem => by cases hitem]
    exact h.command_unseen other (hcommands ▸ hmem)
  case commentary_unseen =>
    intro other hmem
    rw [hcommentaries] at hmem
    have hunseen := h.commentary_unseen other hmem
    by_cases heq : other = itemId
    · rw [heq, hfree] at hunseen
      rw [heq, hnumbers, hunseen, if_neg (by exact Bool.false_ne_true), hreserves.reserved, Table.lookup_insert_eq,
        Table.lookup_insert_eq, if_pos rfl, if_pos rfl]
    · rw [hother _ fun hitem => heq (commentary.inj hitem), hunseen, hreserves.reserved,
        Table.lookup_insert_eq, if_neg heq]

theorem Sound.removesCommentaries (hremoves : (s.progress turnId).RemovesCommentaries (t.progress turnId))
    (hcommands : t.commandsSeen = s.commandsSeen) (hcommentaries : t.commentariesSeen = s.commentariesSeen)
    (hremoved : t.removed = s.removed +
      ((s.progress turnId).commentaryEntries.length - (t.progress turnId).commentaryEntries.length))
    (hnumbers : t.firstNumbers = s.firstNumbers) : Sound turnId t := by
  have hkept := h.commentaries.sublist hremoves.commentaries
  have hlengths : (s.progress turnId).commentaryRoster.length - (t.progress turnId).commentaryRoster.length =
      (s.progress turnId).commentaryEntries.length - (t.progress turnId).commentaryEntries.length := by
    rw [commentaryRoster, commentaryRoster, length_map, length_map]
  rw [hlengths] at hkept
  constructor
  case commands =>
    rw [hremoves.commands, hremoves.commandsDropped, hcommands, hnumbers]
    exact h.commands
  case commentaries =>
    rw [hremoves.commentariesDropped, hcommentaries, hremoved, hnumbers, ← Nat.add_assoc]
    exact hkept
  case fits => exact Nat.le_trans hremoves.commentaries.length_le h.fits
  case numbered =>
    rw [hremoves.nextSequence, hnumbers]
    exact h.numbered
  case next_pos =>
    rw [hremoves.nextSequence]
    exact h.next_pos
  case next_le =>
    rw [hremoves.nextSequence]
    exact h.next_le
  case commands_numbered =>
    rw [hcommands, hnumbers]
    exact h.commands_numbered
  case commentaries_numbered =>
    rw [hcommentaries, hnumbers]
    exact h.commentaries_numbered
  case command_unseen =>
    rw [hcommands, hnumbers]
    exact h.command_unseen
  case commentary_unseen =>
    rw [hcommentaries, hnumbers, hremoves.reserved]
    exact h.commentary_unseen

omit h in
theorem noteNumber_same (h : ∀ n, q.numberOf item = some n → (numbers.lookup item).isSome) :
    noteNumber numbers q item = numbers := by
  unfold noteNumber
  split
  next n hnone hsome =>
    have hfirst := h n hsome
    rw [hnone] at hfirst
    cases hfirst
  next => rfl

omit h in
theorem noteNumber_new (hnone : numbers.lookup item = none) (hn : q.numberOf item = some n) :
    noteNumber numbers q item = numbers.insert item n := by
  unfold noteNumber
  rw [hnone, hn]

theorem Sound.noteNumber_eq (hsame : (s.progress turnId).SameRosters q) (item : ProgressItem) :
    noteNumber s.firstNumbers q item = s.firstNumbers := by
  refine noteNumber_same fun n hn => ?_
  rw [hsame.numberOf] at hn
  exact h.isSome_of_numberOf hn

theorem Sound.upsertCommand {entry : TelegramCommandProgressEntry} {deliverUpdate : Bool}
    (hguard : s.BringsNothingBack turnId (.upsertCommand entry deliverUpdate))
    (ht : t = s.step turnId (.upsertCommand entry deliverUpdate)) : Sound turnId t := by
  have hcases : (s.progress turnId).SameRosters (t.progress turnId) ∨
      (s.progress turnId).completed = false ∧ (s.progress turnId).listsCommand entry.itemId = false ∧
        (s.progress turnId).AddsCommand (t.progress turnId) entry.itemId := by
    rw [ht]
    exact s.row.upsertCommand_cases turnId entry deliverUpdate
  have hseen : t.commandsSeen = if (t.progress turnId).listsCommand entry.itemId
      then s.commandsSeen.insert entry.itemId else s.commandsSeen := by
    rw [ht]
    rfl
  have hnumbers : t.firstNumbers = noteNumber s.firstNumbers (t.progress turnId) (.command entry.itemId) := by
    rw [ht]
    rfl
  have hcommentaries : t.commentariesSeen = s.commentariesSeen := by rw [ht]; rfl
  have hremoved : t.removed = s.removed := by rw [ht]; rfl
  rcases hcases with hsame | ⟨hopen, hunlisted, hadds⟩
  · rw [h.noteNumber_eq hsame] at hnumbers
    refine h.same hsame ?_ hcommentaries hremoved hnumbers
    rw [hseen]
    split
    next hlisted =>
      have hmem : entry.itemId ∈ s.commandsSeen := by
        obtain ⟨e, he, hitem⟩ := mem_map.mp (listsCommand_iff.mp hlisted)
        rw [hsame.commands] at he
        exact hitem ▸ h.commands.listed_seen e he
      exact insert_of_mem hmem
    next => rfl
  · have hnew : entry.itemId ∉ s.commandsSeen ∧ (s.progress turnId).nextSequence < u64Max := by
      rcases hguard with hcompleted | hlisted | hnew
      · exact absurd (hcompleted.symm.trans hopen) (by decide)
      · exact absurd (hlisted.symm.trans hunlisted) (by decide)
      · exact hnew
    obtain ⟨hunseen, hroom⟩ := hnew
    have hkeeps := h.keepsCommand hunseen
    have hmem := @mem_keepNewest _ telegramCommandProgressMaxEntries (by decide)
      (s.progress turnId).commandRoster (entry.itemId, (s.progress turnId).nextSequence)
      (s.progress turnId).droppedEntries
    have hnumber := lookup_of_mem hkeeps.listed_nodup hmem
    rw [← hadds.commands] at hmem hnumber
    rw [noteNumber_new (h.command_unseen _ hunseen) hnumber] at hnumbers
    refine h.addsCommand hunseen hroom hadds ?_ hcommentaries hremoved hnumbers
    rw [hseen, if_pos (listsCommand_iff.mpr (mem_map.mpr ⟨_, hmem, rfl⟩))]
    exact insert_of_not_mem hunseen

theorem Sound.upsertCommentary {itemId text : String}
    (hguard : s.BringsNothingBack turnId (.upsertCommentary itemId text))
    (ht : t = s.step turnId (.upsertCommentary itemId text)) : Sound turnId t := by
  have hfits := h.fits
  rw [commentaryRoster, length_map] at hfits
  have hcases : (s.progress turnId).SameRosters (t.progress turnId) ∨
      ¬(s.row.currentTurn ≠ some turnId ∨ (s.progress turnId).completed = true ∨
        (s.progress turnId).listsCommentary itemId = true) ∧
      (s.progress turnId).AddsCommentary (t.progress turnId) itemId := by
    rw [ht]
    exact s.row.upsertCommentary_cases turnId itemId text hfits
  have hseen : t.commentariesSeen = if (t.progress turnId).listsCommentary itemId
      then s.commentariesSeen.insert itemId else s.commentariesSeen := by
    rw [ht]
    rfl
  have hnumbers : t.firstNumbers = noteNumber s.firstNumbers (t.progress turnId) (.commentary itemId) := by
    rw [ht]
    rfl
  have hcommands : t.commandsSeen = s.commandsSeen := by rw [ht]; rfl
  have hremoved : t.removed = s.removed := by rw [ht]; rfl
  rcases hcases with hsame | ⟨hopen, hadds⟩
  · rw [h.noteNumber_eq hsame] at hnumbers
    refine h.same hsame hcommands ?_ hremoved hnumbers
    rw [hseen]
    split
    next hlisted =>
      have hmem : itemId ∈ s.commentariesSeen := by
        obtain ⟨e, he, hitem⟩ := mem_map.mp (listsCommentary_iff.mp hlisted)
        rw [hsame.commentaries] at he
        exact hitem ▸ h.commentaries.listed_seen e he
      exact insert_of_mem hmem
    next => rfl
  · have hnew : itemId ∉ s.commentariesSeen ∧
        ((s.progress turnId).reservedCommentarySequences.lookup itemId = none →
          (s.progress turnId).nextSequence < u64Max) := by
      rcases hguard with hcurrent | hcompleted | hlisted | hnew
      · exact absurd (.inl hcurrent) hopen
      · exact absurd (.inr (.inl hcompleted)) hopen
      · exact absurd (.inr (.inr hlisted)) hopen
      · exact hnew
    obtain ⟨hunseen, hroom⟩ := hnew
    have hkeeps := h.keepsCommentary hunseen
    have hmem := @mem_keepNewest _ telegramCommentaryMaxEntries (by decide)
      (s.progress turnId).commentaryRoster (itemId,
        ((s.progress turnId).reservedCommentarySequences.lookup itemId).getD (s.progress turnId).nextSequence)
      (s.progress turnId).commentaryDroppedEntries
    have hnumber := lookup_of_mem hkeeps.listed_nodup hmem
    rw [← hadds.commentaries] at hmem hnumber
    have hnumberOf : (t.progress turnId).numberOf (.commentary itemId) = some
        (((s.progress turnId).reservedCommentarySequences.lookup itemId).getD (s.progress turnId).nextSequence) := by
      show ((t.progress turnId).commentaryRoster.lookup itemId).or _ = _
      rw [hnumber]
      rfl
    have hnoted : noteNumber s.firstNumbers (t.progress turnId) (.commentary itemId) =
        s.withCommentary turnId itemId := by
      have hfirst := h.commentary_unseen itemId hunseen
      unfold withCommentary
      cases hreserved : (s.progress turnId).reservedCommentarySequences.lookup itemId with
      | some n =>
        rw [hreserved] at hfirst
        exact noteNumber_same fun _ _ => hfirst ▸ rfl
      | none =>
        rw [hreserved] at hfirst hnumberOf
        exact noteNumber_new hfirst hnumberOf
    rw [hnoted] at hnumbers
    refine h.addsCommentary hunseen hroom hadds hcommands ?_ hremoved hnumbers
    rw [hseen, if_pos (listsCommentary_iff.mpr (mem_map.mpr ⟨_, hmem, rfl⟩))]
    exact insert_of_not_mem hunseen

theorem Sound.reserveCommentary (hguard : s.BringsNothingBack turnId (.reserveCommentary itemId))
    (ht : t = s.step turnId (.reserveCommentary itemId)) : Sound turnId t := by
  have hcases : (s.progress turnId).SameRosters (t.progress turnId) ∨
      (s.progress turnId).numberOf (.commentary itemId) = none ∧
        (s.progress turnId).ReservesCommentary (t.progress turnId) itemId := by
    rw [ht]
    exact s.row.reserveCommentary_cases turnId itemId
  have hnumbers : t.firstNumbers = noteNumber s.firstNumbers (t.progress turnId) (.commentary itemId) := by
    rw [ht]
    rfl
  have hcommands : t.commandsSeen = s.commandsSeen := by rw [ht]; rfl
  have hcommentaries : t.commentariesSeen = s.commentariesSeen := by rw [ht]; rfl
  have hremoved : t.removed = s.removed := by rw [ht]; rfl
  rcases hcases with hsame | ⟨hfree, hreserves⟩
  · rw [h.noteNumber_eq hsame] at hnumbers
    exact h.same hsame hcommands hcommentaries hremoved hnumbers
  · obtain ⟨hunlisted, hunreserved⟩ := Option.or_eq_none_iff.mp hfree
    have hnumberOf : (t.progress turnId).numberOf (.commentary itemId) = some (s.progress turnId).nextSequence := by
      show ((t.progress turnId).commentaryRoster.lookup itemId).or _ = _
      rw [hreserves.commentaries, hreserves.reserved, Table.lookup_insert_eq, if_pos rfl]
      rw [hunlisted]
      rfl
    refine h.reservesCommentary hunreserved (hguard hfree) hreserves hcommands hcommentaries hremoved ?_
    rw [hnumbers]
    cases hfirst : s.firstNumbers.lookup (.commentary itemId) with
    | some n => exact noteNumber_same fun _ _ => hfirst ▸ rfl
    | none => exact noteNumber_new hfirst hnumberOf

theorem Sound.step {call : ProgressCall} (hguard : s.BringsNothingBack turnId call) :
    Sound turnId (s.step turnId call) := by
  cases call with
  | upsertCommand entry deliverUpdate => exact h.upsertCommand hguard rfl
  | upsertWebSearch entry => exact h.same (s.row.upsertWebSearch_sameRosters turnId entry) rfl rfl rfl rfl
  | upsertCollab updates => exact h.same (s.row.upsertCollab_sameRosters turnId updates) rfl rfl rfl rfl
  | upsertCommentary itemId text => exact h.upsertCommentary hguard rfl
  | reserveCommentary itemId => exact h.reserveCommentary hguard rfl
  | removeCommentary itemId | removeCommentaryText text =>
    exact h.removesCommentaries (s.row.retainCommentary_removes turnId _) rfl rfl rfl rfl
  | finish failed nowMs => exact h.same (s.row.finish_sameRosters turnId failed nowMs) rfl rfl rfl rfl

end

theorem step_keeps_number (h : s.firstNumbers.lookup item = some n) (call : ProgressCall) :
    (s.step turnId call).firstNumbers.lookup item = some n := by
  have hnoted : ∀ (p : TelegramCommandProgressState) (other : ProgressItem),
      (noteNumber s.firstNumbers p other).lookup item = some n := by
    intro p other
    unfold noteNumber
    split
    next m hnone _ =>
      have hne : item ≠ other := by
        intro heq
        rw [← heq, h] at hnone
        cases hnone
      rw [lookup_insert_other hne, h]
    next => exact h
  cases call with
  | upsertCommand entry deliverUpdate | upsertCommentary itemId text | reserveCommentary itemId => exact hnoted _ _
  | upsertWebSearch _ | upsertCollab _ | removeCommentary _ | removeCommentaryText _ | finish _ _ => exact h

theorem run_keeps_number (h : s.firstNumbers.lookup item = some n) {calls : List ProgressCall}
    (hrun : Runs.run (fun s call => some (s.step turnId call)) s calls = some t) :
    t.firstNumbers.lookup item = some n := by
  refine Runs.run_invariant (fun u => u.firstNumbers.lookup item = some n) ?_ h hrun
  intro u call v hu hstep
  cases Option.some.inj hstep
  exact step_keeps_number hu call

/-- In every run of a turn that brings no item back, the lists account for the items that they were shown, and
what comes later changes none of their numbers. -/
theorem run_accounted {row : ThreadProgress} (hrow : ∀ p ∈ row.progress, p.turnId ≠ turnId)
    {calls : List ProgressCall}
    (hcalls : Runs.Meets (fun s call => some (s.step turnId call)) (BringsNothingBack turnId) (start row) calls)
    (hrun : Runs.run (fun s call => some (s.step turnId call)) (start row) calls = some t) :
    t.Accounted turnId ∧ ∀ more u, Runs.run (fun s call => some (s.step turnId call)) t more = some u →
      ∀ item n, t.firstNumbers.lookup item = some n → u.firstNumbers.lookup item = some n := by
  have hsound : Sound turnId t := by
    refine Runs.run_invariant_of_meets (Sound turnId) ?_ (sound_start hrow) hcalls hrun
    intro s call u hs hguard hstep
    cases Option.some.inj hstep
    exact hs.step hguard
  exact ⟨hsound.accounted, fun more u hmore item n hn => run_keeps_number hn hmore⟩

def announced : List ProgressCall :=
  [.reserveCommentary "said", .upsertCommand ⟨"ran", .command, "ls", .running, none, none, none, 0⟩ true,
    .upsertCommentary "said" "", .upsertCommand ⟨"ran", .command, "ls", .succeeded, some 0, none, none, 0⟩ true]

theorem run_announced_accounted : ∃ t,
    Runs.run (fun s call => some (s.step "turn" call)) (start ⟨some "turn", none⟩) announced = some t ∧
      t.Accounted "turn" := by
  have hrun : (Runs.run (fun s call => some (s.step "turn" call)) (start ⟨some "turn", none⟩) announced).isSome =
      true := by
    decide +kernel
  obtain ⟨t, ht⟩ := Option.isSome_iff_exists.mp hrun
  exact ⟨t, ht, (run_accounted (by decide) (by decide +kernel) ht).1⟩

/-- A turn that comments more often than its list holds, and then corrects its first comment. -/
def correctsFirst : List ProgressCall :=
  (List.range 65).map (fun n => .upsertCommentary (toString n) "") ++ [.upsertCommentary "0" "again"]

/-- The comment that was dropped is listed again under a new number, and counted as dropped all the same. -/
theorem corrected_first_not_accounted : ∃ t,
    Runs.run (fun s call => some (s.step "turn" call)) (start ⟨some "turn", none⟩) correctsFirst = some t ∧
      ¬t.Accounted "turn" := by
  have hcount : (Runs.run (fun s call => some (s.step "turn" call)) (start ⟨some "turn", none⟩) correctsFirst).any
      (fun t => (t.progress "turn").commentaryEntries.length + (t.progress "turn").commentaryDroppedEntries + t.removed ≠
        t.commentariesSeen.length) = true := by
    decide +kernel
  obtain ⟨t, ht, hne⟩ := (Option.any_eq_true _ _).mp hcount
  exact ⟨t, ht, fun h => of_decide_eq_true hne h.commentaryCount⟩

end ProgressLedger

end MochiPort

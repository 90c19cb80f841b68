import MochiPort.Rosters
import MochiPort.TelegramProgress

namespace MochiPort

open List Roster

inductive ProgressItem where
  | command (itemId : String)
  | commentary (itemId : String)
  deriving DecidableEq

inductive ProgressCall where
  | upsertCommand (entry : TelegramCommandProgressEntry) (deliverUpdate : Bool)
  | upsertWebSearch (entry : TelegramWebSearchProgressEntry)
  | upsertCollab (updates : List TelegramCollabProgressUpdate)
  | upsertCommentary (itemId text : String)
  | reserveCommentary (itemId : String)
  | removeCommentary (itemId : String)
  | removeCommentaryText (text : String)
  | finish (failed : Bool) (nowMs : Nat)

def ProgressCall.apply (turnId : String) (r : ThreadProgress) : ProgressCall → ThreadProgress
  | .upsertCommand entry deliverUpdate => (r.upsertTelegramCommandProgress turnId entry deliverUpdate).1
  | .upsertWebSearch entry => (r.upsertTelegramWebSearchProgress turnId entry).1
  | .upsertCollab updates => (r.upsertTelegramCollabTaskProgress turnId updates).1
  | .upsertCommentary itemId text => (r.upsertTelegramCommentaryProgress turnId itemId text).1
  | .reserveCommentary itemId => (r.reserveCommentarySequence turnId itemId).1
  | .removeCommentary itemId => (r.removeTelegramCommentaryProgress turnId itemId).1
  | .removeCommentaryText text => (r.removeCommentaryMatchingText turnId text).1
  | .finish failed nowMs => (r.finishTelegramCommandProgressWithOutcome turnId failed nowMs).1

def ProgressCall.item : ProgressCall → Option ProgressItem
  | .upsertCommand entry _ => some (.command entry.itemId)
  | .upsertCommentary itemId _ => some (.commentary itemId)
  | .reserveCommentary itemId => some (.commentary itemId)
  | _ => none

namespace TelegramCommandProgressState

def commandRoster (p : TelegramCommandProgressState) : List (String × Nat) :=
  p.entries.map fun entry => (entry.itemId, entry.sequence)

def commentaryRoster (p : TelegramCommandProgressState) : List (String × Nat) :=
  p.commentaryEntries.map fun entry => (entry.itemId, entry.sequence)

def listsCommand (p : TelegramCommandProgressState) (itemId : String) : Bool :=
  p.entries.any (·.itemId = itemId)

def listsCommentary (p : TelegramCommandProgressState) (itemId : String) : Bool :=
  p.commentaryEntries.any (·.itemId = itemId)

/-- The sequence number that an item has, or that is reserved for it. -/
def numberOf (p : TelegramCommandProgressState) : ProgressItem → Option Nat
  | .command itemId => p.commandRoster.lookup itemId
  | .commentary itemId => (p.commentaryRoster.lookup itemId).or (p.reservedCommentarySequences.lookup itemId)

end TelegramCommandProgressState

section

variable {turnId : String} {r : ThreadProgress} {p q : TelegramCommandProgressState}

namespace TelegramCommandProgressState

/-- Nothing has changed that the entries are counted and numbered by. -/
structure SameRosters (p q : TelegramCommandProgressState) : Prop where
  commands : q.commandRoster = p.commandRoster
  commandsDropped : q.droppedEntries = p.droppedEntries
  commentaries : q.commentaryRoster = p.commentaryRoster
  commentariesDropped : q.commentaryDroppedEntries = p.commentaryDroppedEntries
  nextSequence : q.nextSequence = p.nextSequence
  reserved : q.reservedCommentarySequences = p.reservedCommentarySequences

theorem SameRosters.refl (p : TelegramCommandProgressState) : SameRosters p p := ⟨rfl, rfl, rfl, rfl, rfl, rfl⟩

theorem SameRosters.numberOf (h : SameRosters p q) (item : ProgressItem) : q.numberOf item = p.numberOf item := by
  cases item with
  | command itemId => exact congrArg (List.lookup itemId) h.commands
  | commentary itemId =>
    show (q.commentaryRoster.lookup itemId).or (q.reservedCommentarySequences.lookup itemId) = _
    rw [h.commentaries, h.reserved]
    rfl

/-- A new command comes to the end of its list under the next number. -/
structure AddsCommand (p q : TelegramCommandProgressState) (itemId : String) : Prop where
  commands : q.commandRoster = (keepNewest telegramCommandProgressMaxEntries
    (p.commandRoster ++ [(itemId, p.nextSequence)]) p.droppedEntries).1
  commandsDropped : q.droppedEntries = (keepNewest telegramCommandProgressMaxEntries
    (p.commandRoster ++ [(itemId, p.nextSequence)]) p.droppedEntries).2
  commentaries : q.commentaryRoster = p.commentaryRoster
  commentariesDropped : q.commentaryDroppedEntries = p.commentaryDroppedEntries
  nextSequence : q.nextSequence = saturatingAdd p.nextSequence 1
  reserved : q.reservedCommentarySequences = p.reservedCommentarySequences

/-- A new commentary comes to the end of its list under a number that was reserved for it, or the next one. -/
structure AddsCommentary (p q : TelegramCommandProgressState) (itemId : String) : Prop where
  commands : q.commandRoster = p.commandRoster
  commandsDropped : q.droppedEntries = p.droppedEntries
  commentaries : q.commentaryRoster = (keepNewest telegramCommentaryMaxEntries
    (p.commentaryRoster ++ [(itemId, (p.reservedCommentarySequences.lookup itemId).getD p.nextSequence)])
    p.commentaryDroppedEntries).1
  commentariesDropped : q.commentaryDroppedEntries = (keepNewest telegramCommentaryMaxEntries
    (p.commentaryRoster ++ [(itemId, (p.reservedCommentarySequences.lookup itemId).getD p.nextSequence)])
    p.commentaryDroppedEntries).2
  nextSequence : q.nextSequence =
    if (p.reservedCommentarySequences.lookup itemId).isSome then p.nextSequence else saturatingAdd p.nextSequence 1
  reserved : ∀ other, other ≠ itemId →
    q.reservedCommentarySequences.lookup other = p.reservedCommentarySequences.lookup other

/-- A commentary that has no entry yet gets the next number reserved. -/
structure ReservesCommentary (p q : TelegramCommandProgressState) (itemId : String) : Prop where
  commands : q.commandRoster = p.commandRoster
  commandsDropped : q.droppedEntries = p.droppedEntries
  commentaries : q.commentaryRoster = p.commentaryRoster
  commentariesDropped : q.commentaryDroppedEntries = p.commentaryDroppedEntries
  nextSequence : q.nextSequence = saturatingAdd p.nextSequence 1
  reserved : q.reservedCommentarySequences = p.reservedCommentarySequences.insert itemId p.nextSequence

structure RemovesCommentaries (p q : TelegramCommandProgressState) : Prop where
  commands : q.commandRoster = p.commandRoster
  commandsDropped : q.droppedEntries = p.droppedEntries
  commentaries : q.commentaryRoster.Sublist p.commentaryRoster
  commentariesDropped : q.commentaryDroppedEntries = p.commentaryDroppedEntries
  nextSequence : q.nextSequence = p.nextSequence
  reserved : q.reservedCommentarySequences = p.reservedCommentarySequences

theorem RemovesCommentaries.refl (p : TelegramCommandProgressState) : RemovesCommentaries p p :=
  ⟨rfl, rfl, .refl _, rfl, rfl, rfl⟩

theorem listsCommand_iff {itemId : String} : p.listsCommand itemId = true ↔ itemId ∈ p.commandRoster.map Prod.fst := by
  simp [listsCommand, commandRoster]

theorem listsCommentary_iff {itemId : String} :
    p.listsCommentary itemId = true ↔ itemId ∈ p.commentaryRoster.map Prod.fst := by
  simp [listsCommentary, commentaryRoster]

end TelegramCommandProgressState

namespace ThreadProgress

theorem entryOfTurn_turnId (r : ThreadProgress) (turnId : String) : (r.entryOfTurn turnId).turnId = turnId := by
  unfold entryOfTurn
  split
  next h => exact h
  next => rfl

theorem entryOfTurn_store (h : p.turnId = turnId) : (r.store p).entryOfTurn turnId = p := by
  show (if p.turnId = turnId then p else .new turnId) = p
  rw [if_pos h]

theorem entryOfTurn_storeChanged (h : p.turnId = turnId) (deliver : Bool) :
    (r.storeChanged p deliver).1.entryOfTurn turnId = p.markChanged := entryOfTurn_store h

theorem entryOfTurn_of_some (hp : r.progress = some p) (h : p.turnId = turnId) : r.entryOfTurn turnId = p := by
  have hentry : r.entry turnId = p := by
    show r.progress.getD _ = p
    rw [hp]
    rfl
  rw [entryOfTurn, hentry, if_pos h]

end ThreadProgress

theorem map_modify_self {α β : Type} (f : α → β) (g : α → α) (l : List α) (i : Nat)
    (h : ∀ a ∈ l[i]?, f (g a) = f a) : (l.modify i g).map f = l.map f := by
  apply ext_getElem?
  intro j
  rw [List.getElem?_map, List.getElem?_modify, List.getElem?_map]
  cases hj : l[j]? with
  | none => rfl
  | some a =>
    by_cases hij : i = j
    · subst hij
      simp [h a hj]
    · simp [hij]

theorem getElem?_findIdx {α : Type} {f : α → Bool} {l : List α} {a : α} (h : l.find? f = some a) :
    l[l.findIdx f]? = some a := by
  induction l with
  | nil => cases h
  | cons b l ih =>
    rw [findIdx_cons]
    cases hb : f b with
    | true =>
      rw [List.find?_cons_of_pos hb] at h
      exact h
    | false =>
      rw [List.find?_cons_of_neg (by rw [hb]; exact Bool.false_ne_true)] at h
      exact ih h

theorem keepNewest_map {α β : Type} (f : α → β) (limit : Nat) (entries : List α) (dropped : Nat) :
    (keepNewest limit (entries.map f) dropped).1 = (keepNewest limit entries dropped).1.map f ∧
      (keepNewest limit (entries.map f) dropped).2 = (keepNewest limit entries dropped).2 := by
  unfold keepNewest
  rw [length_map]
  split
  next => exact ⟨(map_drop ..).symm, rfl⟩
  next => exact ⟨rfl, rfl⟩

theorem keeps_keepNewest {listed : List (String × Nat)} {dropped removed : Nat} {seen : List String}
    {first : String → Option Nat} (h : Keeps listed (dropped + removed) seen first) (limit : Nat)
    (hroom : seen.length ≤ u64Max) :
    Keeps (keepNewest limit listed dropped).1 ((keepNewest limit listed dropped).2 + removed) seen first := by
  unfold keepNewest
  split
  next hlong =>
    have hcount := h.count
    have hsum : saturatingAdd dropped (listed.length - limit) = dropped + (listed.length - limit) :=
      Nat.min_eq_left (by omega)
    have hkept := h.sublist (drop_sublist (listed.length - limit) listed)
    rw [length_drop] at hkept
    rw [hsum]
    have hgone : dropped + (listed.length - limit) + removed =
        dropped + removed + (listed.length - (listed.length - (listed.length - limit))) := by omega
    rw [hgone]
    exact hkept
  next => exact h

theorem keeps_pushNewest {listed : List (String × Nat)} {dropped removed : Nat} {seen : List String}
    {first later : String → Option Nat} (h : Keeps listed (dropped + removed) seen first) {k : String} {n : Nat}
    (hk : k ∉ seen) (hn : later k = some n) (hothers : ∀ l, l ≠ k → later l = first l) (limit : Nat)
    (hroom : seen.length < u64Max) :
    Keeps (keepNewest limit (listed ++ [(k, n)]) dropped).1
      ((keepNewest limit (listed ++ [(k, n)]) dropped).2 + removed) (k :: seen) later := by
  have hlater : Keeps listed (dropped + removed) seen later := by
    refine h.congr fun l hl => hothers l ?_
    intro hlk
    exact hk (hlk ▸ hl)
  exact keeps_keepNewest (hlater.push hk hn) limit hroom

namespace ThreadProgress

theorem sameRosters_stored (h : q.turnId = turnId) (hsame : p.SameRosters q) :
    p.SameRosters ((r.store q).entryOfTurn turnId) := by
  rw [entryOfTurn_store h]
  exact hsame

theorem sameRosters_changed {deliver : Bool} (h : q.turnId = turnId) (hsame : p.SameRosters q) :
    p.SameRosters ((r.storeChanged q deliver).1.entryOfTurn turnId) := by
  rw [entryOfTurn_storeChanged h]
  exact { hsame with }

variable (r)

theorem upsertCommand_cases (turnId : String) (entry : TelegramCommandProgressEntry) (deliverUpdate : Bool) :
    (r.entryOfTurn turnId).SameRosters ((r.upsertTelegramCommandProgress turnId entry deliverUpdate).1.entryOfTurn turnId) ∨
      (r.entryOfTurn turnId).completed = false ∧ (r.entryOfTurn turnId).listsCommand entry.itemId = false ∧
        (r.entryOfTurn turnId).AddsCommand
          ((r.upsertTelegramCommandProgress turnId entry deliverUpdate).1.entryOfTurn turnId) entry.itemId := by
  have hturn := r.entryOfTurn_turnId turnId
  unfold upsertTelegramCommandProgress
  generalize r.entryOfTurn turnId = p at hturn ⊢
  by_cases hcompleted : p.completed = true
  · rw [if_pos hcompleted]
    exact .inl (sameRosters_stored hturn (.refl p))
  rw [if_neg hcompleted]
  cases hfind : p.entries.find? (·.itemId = entry.itemId) with
  | some current =>
    have hfound := List.find?_some hfind
    have hitem : current.itemId = entry.itemId := of_decide_eq_true hfound
    refine .inl ?_
    dsimp only
    by_cases hsame : current = { entry with sequence := current.sequence }
    · rw [if_pos hsame]
      exact sameRosters_stored hturn (.refl p)
    · rw [if_neg hsame]
      refine sameRosters_changed (by exact hturn) ?_
      refine { TelegramCommandProgressState.SameRosters.refl p with commands := ?_ }
      refine map_modify_self _ _ _ _ fun other hother => ?_
      rw [getElem?_findIdx hfind] at hother
      rw [← Option.some.inj hother, hitem]
  | none =>
    have hunlisted : p.listsCommand entry.itemId = false :=
      any_eq_false.mpr fun other hother => List.find?_eq_none.mp hfind other hother
    refine .inr ⟨Bool.eq_false_iff.mpr hcompleted, hunlisted, ?_⟩
    rw [entryOfTurn_storeChanged (by exact hturn)]
    obtain ⟨hkept, hdropped⟩ := keepNewest_map
      (fun entry : TelegramCommandProgressEntry => (entry.itemId, entry.sequence)) telegramCommandProgressMaxEntries
      (p.entries ++ [{ entry with sequence := p.nextSequence }]) p.droppedEntries
    rw [map_append] at hkept hdropped
    exact ⟨hkept.symm, hdropped.symm, rfl, rfl, rfl, rfl⟩

theorem upsertCommentary_cases (turnId itemId text : String)
    (hfits : (r.entryOfTurn turnId).commentaryEntries.length ≤ telegramCommentaryMaxEntries) :
    (r.entryOfTurn turnId).SameRosters ((r.upsertTelegramCommentaryProgress turnId itemId text).1.entryOfTurn turnId) ∨
      ¬(r.currentTurn ≠ some turnId ∨ (r.entryOfTurn turnId).completed = true ∨
          (r.entryOfTurn turnId).listsCommentary itemId = true) ∧
        (r.entryOfTurn turnId).AddsCommentary
          ((r.upsertTelegramCommentaryProgress turnId itemId text).1.entryOfTurn turnId) itemId := by
  have hturn := r.entryOfTurn_turnId turnId
  unfold upsertTelegramCommentaryProgress
  by_cases hcurrent : r.currentTurn ≠ some turnId
  · rw [if_pos hcurrent]
    exact .inl (.refl _)
  rw [if_neg hcurrent]
  generalize r.entryOfTurn turnId = p at hturn hfits ⊢
  by_cases hcompleted : p.completed = true
  · rw [if_pos hcompleted]
    exact .inl (sameRosters_stored hturn (.refl p))
  rw [if_neg hcompleted]
  cases hfind : p.commentaryEntries.find? (·.itemId = itemId) with
  | some existing =>
    refine .inl ?_
    dsimp only
    by_cases hsame : existing.text = text
    · rw [if_pos hsame]
      exact sameRosters_stored hturn (.refl p)
    · rw [if_neg hsame]
      refine sameRosters_changed (by exact hturn) ?_
      -- the list was within its limit, and a changed text does not make it longer
      have hshort : ∀ g : TelegramCommentaryEntry → TelegramCommentaryEntry, ∀ i,
          keepNewest telegramCommentaryMaxEntries (p.commentaryEntries.modify i g) p.commentaryDroppedEntries =
            (p.commentaryEntries.modify i g, p.commentaryDroppedEntries) := by
        intro g i
        rw [keepNewest, length_modify, if_neg (Nat.not_lt.mpr hfits)]
      rw [hshort]
      refine { TelegramCommandProgressState.SameRosters.refl p with commentaries := ?_ }
      exact map_modify_self _ _ _ _ fun other _ => rfl
  | none =>
    have hunlisted : ¬p.listsCommentary itemId = true := by
      intro hlisted
      obtain ⟨other, hother, hitem⟩ := any_eq_true.mp hlisted
      exact List.find?_eq_none.mp hfind other hother hitem
    refine .inr ⟨?_, ?_⟩
    · rintro (h | h | h)
      exacts [hcurrent h, hcompleted h, hunlisted h]
    cases hreserved : p.reservedCommentarySequences.lookup itemId with
    | some n =>
      rw [entryOfTurn_storeChanged (by exact hturn)]
      obtain ⟨hkept, hdropped⟩ := keepNewest_map
        (fun entry : TelegramCommentaryEntry => (entry.itemId, entry.sequence)) telegramCommentaryMaxEntries
        (p.commentaryEntries ++ [⟨itemId, text, n⟩]) p.commentaryDroppedEntries
      rw [map_append] at hkept hdropped
      refine ⟨rfl, rfl, ?_, ?_, ?_, fun other hother => ?_⟩
      · rw [hreserved]
        exact hkept.symm
      · rw [hreserved]
        exact hdropped.symm
      · rw [hreserved]
        rfl
      · show (p.reservedCommentarySequences.erase itemId).lookup other = _
        rw [Table.lookup_erase_eq, if_neg hother]
    | none =>
      rw [entryOfTurn_storeChanged (by exact hturn)]
      obtain ⟨hkept, hdropped⟩ := keepNewest_map
        (fun entry : TelegramCommentaryEntry => (entry.itemId, entry.sequence)) telegramCommentaryMaxEntries
        (p.commentaryEntries ++ [⟨itemId, text, p.nextSequence⟩]) p.commentaryDroppedEntries
      rw [map_append] at hkept hdropped
      refine ⟨rfl, rfl, ?_, ?_, ?_, fun other hother => rfl⟩
      · rw [hreserved]
        exact hkept.symm
      · rw [hreserved]
        exact hdropped.symm
      · rw [hreserved]
        rfl

theorem reserveCommentary_cases (turnId itemId : String) :
    (r.entryOfTurn turnId).SameRosters ((r.reserveCommentarySequence turnId itemId).1.entryOfTurn turnId) ∨
      (r.entryOfTurn turnId).numberOf (.commentary itemId) = none ∧
        (r.entryOfTurn turnId).ReservesCommentary
          ((r.reserveCommentarySequence turnId itemId).1.entryOfTurn turnId) itemId := by
  have hturn := r.entryOfTurn_turnId turnId
  unfold reserveCommentarySequence
  dsimp only
  generalize r.entryOfTurn turnId = p at hturn ⊢
  cases hfind : p.commentaryEntries.find? (·.itemId = itemId) with
  | some existing => exact .inl (sameRosters_stored hturn (.refl p))
  | none =>
    cases hreserved : p.reservedCommentarySequences.lookup itemId with
    | some n => exact .inl (sameRosters_stored hturn (.refl p))
    | none =>
      refine .inr ⟨?_, ?_⟩
      · have hunlisted : p.commentaryRoster.lookup itemId = none := by
          refine lookup_eq_none_iff.mpr fun e he => ?_
          obtain ⟨entry, hentry, rfl⟩ := mem_map.mp he
          have hother := List.find?_eq_none.mp hfind entry hentry
          simp only [decide_eq_true_eq] at hother
          exact bne_iff_ne.mpr fun heq => hother heq.symm
        show (p.commentaryRoster.lookup itemId).or (p.reservedCommentarySequences.lookup itemId) = none
        rw [hunlisted, hreserved]
        rfl
      · dsimp only [TelegramCommandProgressState.allocateSequence]
        rw [entryOfTurn_store (by exact hturn)]
        exact ⟨rfl, rfl, rfl, rfl, rfl, rfl⟩

section

variable (turnId)

theorem retainCommentary_removes (keep : TelegramCommentaryEntry → Bool) :
    (r.entryOfTurn turnId).RemovesCommentaries ((r.retainCommentary turnId keep).1.entryOfTurn turnId) := by
  unfold retainCommentary
  cases hp : r.progress with
  | none => exact .refl _
  | some p =>
    dsimp only
    by_cases hturn : p.turnId = turnId
    · rw [if_neg (not_not.mpr hturn), entryOfTurn_of_some hp hturn]
      split
      next => rw [entryOfTurn_of_some hp hturn]; exact .refl p
      next =>
        rw [entryOfTurn_storeChanged (by exact hturn)]
        exact ⟨rfl, rfl, filter_sublist.map _, rfl, rfl, rfl⟩
    · rw [if_pos hturn]
      exact .refl _

theorem upsertWebSearch_sameRosters (entry : TelegramWebSearchProgressEntry) :
    (r.entryOfTurn turnId).SameRosters ((r.upsertTelegramWebSearchProgress turnId entry).1.entryOfTurn turnId) := by
  have hturn := r.entryOfTurn_turnId turnId
  unfold upsertTelegramWebSearchProgress
  by_cases hcurrent : r.currentTurn ≠ some turnId
  · rw [if_pos hcurrent]
    exact .refl _
  rw [if_neg hcurrent]
  generalize r.entryOfTurn turnId = p at hturn ⊢
  by_cases hcompleted : p.completed = true
  · rw [if_pos hcompleted]
    exact sameRosters_stored hturn (.refl p)
  rw [if_neg hcompleted]
  cases p.webSearches.find? (·.itemId = entry.itemId) with
  | some current =>
    dsimp only
    by_cases hsame : current = entry
    · rw [if_pos hsame]
      exact sameRosters_stored hturn (.refl p)
    · rw [if_neg hsame]
      refine sameRosters_changed (by exact hturn) ?_
      exact ⟨rfl, rfl, rfl, rfl, rfl, rfl⟩
  | none =>
    refine sameRosters_changed (by exact hturn) ?_
    exact ⟨rfl, rfl, rfl, rfl, rfl, rfl⟩

theorem upsertCollab_sameRosters (updates : List TelegramCollabProgressUpdate) :
    (r.entryOfTurn turnId).SameRosters
      ((r.upsertTelegramCollabTaskProgress turnId updates).1.entryOfTurn turnId) := by
  have hturn := r.entryOfTurn_turnId turnId
  unfold upsertTelegramCollabTaskProgress
  split
  next => exact .refl _
  next =>
    dsimp only
    generalize r.entryOfTurn turnId = p at hturn ⊢
    by_cases hcompleted : p.completed = true
    · rw [if_pos hcompleted]
      exact sameRosters_stored hturn (.refl p)
    rw [if_neg hcompleted]
    split
    next => exact sameRosters_stored (by exact hturn) ⟨rfl, rfl, rfl, rfl, rfl, rfl⟩
    next =>
      refine sameRosters_changed (by exact hturn) ?_
      exact ⟨rfl, rfl, rfl, rfl, rfl, rfl⟩

theorem finish_sameRosters (failed : Bool) (nowMs : Nat) :
    (r.entryOfTurn turnId).SameRosters
      ((r.finishTelegramCommandProgressWithOutcome turnId failed nowMs).1.entryOfTurn turnId) := by
  unfold finishTelegramCommandProgressWithOutcome
  cases hp : r.progress with
  | none => exact .refl _
  | some p =>
    dsimp only
    split
    next => exact .refl _
    next hgo =>
      have hturn : p.turnId = turnId := by
        by_contra hturn
        exact hgo (by simp [hturn])
      rw [entryOfTurn_of_some hp hturn]
      have hcommands : (p.entries.map fun entry =>
          if entry.status = .running then { entry with status := .interrupted } else entry).map
            (fun entry : TelegramCommandProgressEntry => (entry.itemId, entry.sequence)) = p.commandRoster := by
        rw [map_map]
        refine map_congr_left fun entry _ => ?_
        rw [Function.comp_apply]
        split <;> rfl
      rw [entryOfTurn_store (by split <;> exact hturn)]
      split
      next => exact ⟨hcommands, rfl, rfl, rfl, rfl, rfl⟩
      next => exact ⟨hcommands, rfl, rfl, rfl, rfl, rfl⟩

end

end ThreadProgress

end

theorem keepNewest_length_le {α : Type} (limit : Nat) (entries : List α) (dropped : Nat) :
    (keepNewest limit entries dropped).1.length ≤ limit := by
  unfold keepNewest
  split
  next hlong =>
    rw [length_drop]
    omega
  next hshort => exact Nat.not_lt.mp hshort

theorem mem_keepNewest {α : Type} {limit : Nat} (hlimit : 0 < limit) (entries : List α) (a : α) (dropped : Nat) :
    a ∈ (keepNewest limit (entries ++ [a]) dropped).1 := by
  unfold keepNewest
  split
  next hlong =>
    rw [length_append, length_singleton] at hlong ⊢
    rw [drop_append_of_le_length (by omega)]
    exact mem_append_right _ (mem_singleton_self a)
  next => exact mem_append_right _ (mem_singleton_self a)

end MochiPort

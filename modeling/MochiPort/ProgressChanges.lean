import MochiPort.TelegramProgress

namespace MochiPort

inductive ProgressChange where
  | upsertCommand (entry : TelegramCommandProgressEntry) (deliverUpdate : Bool)
  | upsertWebSearch (entry : TelegramWebSearchProgressEntry)
  | recordRetry (error : Option String)
  | appendReasoningDelta (itemId : String) (summaryIndex : Int) (delta : String)
  | completeReasoning (itemId : String) (summary : Option String)
  | updatePlan (explanation : Option String) (plan : List TelegramPlanStep) (deliverUpdate : Bool)
  | updateDiff (diffSummary : Option TelegramDiffSummary) (deliverUpdate : Bool)
  | completeFileChange (fallback : Option TelegramDiffSummary)
  | reserveCommentary (itemId : String)
  | upsertCommentary (itemId text : String)
  | removeCommentary (itemId : String)
  | removeCommentaryMatching (text : String)
  | upsertCollab (updates : List TelegramCollabProgressUpdate)
  | setFinalReply (text : String) (elapsedMs : Option Nat)
  | finish (failed : Bool) (nowMs : Nat)

namespace TelegramCommandProgressState

/-- The changes leave the marks of the delivery as they are; what they write besides is the content. -/
structure Keeps (p q : TelegramCommandProgressState) : Prop where
  turnId : q.turnId = p.turnId
  revision : q.revision = p.revision
  messageId : q.messageId = p.messageId
  sending : q.sending = p.sending
  inFlightRevision : q.inFlightRevision = p.inFlightRevision
  cleanupAfterDelivery : q.cleanupAfterDelivery = p.cleanupAfterDelivery
  completed : p.completed = true → q.completed = true

/-- An entry after a change is either rendered as before or marked. -/
structure Touched (p q : TelegramCommandProgressState) : Prop where
  turnId : q.turnId = p.turnId
  messageId : q.messageId = p.messageId
  sending : q.sending = p.sending
  inFlightRevision : q.inFlightRevision = p.inFlightRevision
  cleanupAfterDelivery : q.cleanupAfterDelivery = p.cleanupAfterDelivery
  completed : p.completed = true → q.completed = true
  noted : (q.snapshot = p.snapshot ∧ q.dirty = p.dirty) ∨
    (q.revision = saturatingAdd p.revision 1 ∧ q.dirty = true)

variable {p q : TelegramCommandProgressState}

theorem Touched.refl (p : TelegramCommandProgressState) : Touched p p :=
  ⟨rfl, rfl, rfl, rfl, rfl, id, .inl ⟨rfl, rfl⟩⟩

theorem Keeps.touched (h : Keeps p q) : Touched p q.markChanged := by
  refine ⟨h.turnId, h.messageId, h.sending, h.inFlightRevision, h.cleanupAfterDelivery, h.completed, .inr ⟨?_, rfl⟩⟩
  rw [← h.revision]
  rfl

theorem Keeps.unrendered (h : Keeps p q) (hsnapshot : q.snapshot = p.snapshot) (hdirty : q.dirty = p.dirty) :
    Touched p q :=
  ⟨h.turnId, h.messageId, h.sending, h.inFlightRevision, h.cleanupAfterDelivery, h.completed,
    .inl ⟨hsnapshot, hdirty⟩⟩

end TelegramCommandProgressState

open TelegramCommandProgressState

namespace TelegramCollabProgressEntry

variable {entry : TelegramCollabProgressEntry}

theorem withName_unchanged {name : Option String} (h : (entry.withName name).2 = false) :
    (entry.withName name).1 = entry := by
  unfold withName at h ⊢
  split at h
  next => rfl
  next name _ =>
    split at h
    next hname => rw [if_pos hname]
    next => cases h

theorem withStatus_unchanged {status : Option TelegramCollabProgressStatus} {restart : Bool} {timestamp : Nat}
    (h : (entry.withStatus status restart timestamp).2 = false) :
    (entry.withStatus status restart timestamp).1 = entry := by
  unfold withStatus at h ⊢
  split at h
  next => rfl
  next status =>
    split at h
    next => cases h
    next hs => rw [if_neg hs]

theorem withDetail_unchanged {detail : Option String} {clear : Bool}
    (h : (entry.withDetail detail clear).2 = false) : (entry.withDetail detail clear).1 = entry := by
  unfold withDetail at h ⊢
  split at h
  next detail _ =>
    split at h
    next hdetail => rw [if_pos hdetail]
    next => cases h
  next =>
    split at h
    next => cases h
    next hclear => rw [if_neg hclear]

theorem update_unchanged {update : TelegramCollabProgressUpdate} {timestamp : Nat}
    (h : (entry.update update timestamp).2 = false) : (entry.update update timestamp).1 = entry := by
  unfold TelegramCollabProgressEntry.update at h ⊢
  split at h
  next hold => rw [if_pos hold]
  next hnew =>
    rw [if_neg hnew]
    dsimp only at h ⊢
    split at h
    next => cases h
    next hsame =>
      rw [if_neg hsame]
      simp only [Bool.or_eq_true, not_or, Bool.not_eq_true] at hsame
      obtain ⟨⟨hname, hstatus⟩, hdetail⟩ := hsame
      rw [withDetail_unchanged hdetail, withStatus_unchanged hstatus, withName_unchanged hname]

end TelegramCollabProgressEntry

theorem mergeTelegramCollabProgressUpdates_unchanged {entries : List TelegramCollabProgressEntry}
    {dropped : Nat} {updates : List TelegramCollabProgressUpdate}
    (h : (mergeTelegramCollabProgressUpdates entries dropped updates).2.2 = false) :
    (mergeTelegramCollabProgressUpdates entries dropped updates).1 = entries ∧
      (mergeTelegramCollabProgressUpdates entries dropped updates).2.1 = dropped := by
  induction updates generalizing entries dropped with
  | nil => exact ⟨rfl, rfl⟩
  | cons update rest ih =>
    unfold mergeTelegramCollabProgressUpdates at h ⊢
    dsimp only at h ⊢
    split at h
    next entry hentry =>
      obtain ⟨hupdate, hrest⟩ := Bool.or_eq_false_iff.mp h
      have hsame := TelegramCollabProgressEntry.update_unchanged hupdate
      have hat : entries[entries.findIdx (·.agentId = update.agentId)]? = some entry := by
        rw [← List.find?_eq_getElem?_findIdx, hentry]
      have hmodify : (entries.modify (entries.findIdx (·.agentId = update.agentId)) fun _ => entry) = entries := by
        apply List.ext_getElem?
        intro i
        by_cases hi : entries.findIdx (·.agentId = update.agentId) = i
        · subst hi
          simp [hat]
        · simp [hi]
      rw [hsame, hmodify] at hrest ⊢
      exact ih hrest
    next hentry =>
      split at h
      next hcreate => rw [if_pos hcreate]; exact ih h
      next hcreate =>
        rw [if_neg hcreate]
        split at h
        next => exact ih h
        next => cases h

namespace ThreadProgress

variable {r : ThreadProgress} {turnId : String}

def OfTurn (r : ThreadProgress) (turnId : String) : Prop :=
  ∀ progress, r.progress = some progress → progress.turnId = turnId

/-- A change stores an entry that it has touched, if anything. -/
def Edited (r r' : ThreadProgress) (turnId : String) : Prop :=
  r' = r ∨ ∃ progress, r' = r.store progress ∧ Touched (r.entry turnId) progress

/-- A plan update that takes a plan back before the message has been sent, where nothing else is shown. -/
def EmptiesPlan (r : ThreadProgress) (turnId : String) : ProgressChange → Prop
  | .updatePlan explanation plan _ =>
    let progress := r.entry turnId
    r.currentTurn = some turnId ∧ progress.completed = false ∧ progress.messageId = none ∧
      (progress.planExplanation ≠ explanation.filter notBlank ∨ progress.plan ≠ plan.take telegramPlanMaxSteps) ∧
      { progress with
        planExplanation := explanation.filter notBlank
        plan := plan.take telegramPlanMaxSteps }.hasContent = false
  | _ => False

instance (change : ProgressChange) : Decidable (r.EmptiesPlan turnId change) :=
  match change with
  | .updatePlan _ _ _ => inferInstanceAs (Decidable (_ ∧ _ ∧ _ ∧ _ ∧ _))
  | .upsertCommand _ _ | .upsertWebSearch _ | .recordRetry _ | .appendReasoningDelta _ _ _ | .completeReasoning _ _
  | .updateDiff _ _ | .completeFileChange _ | .reserveCommentary _ | .upsertCommentary _ _ | .removeCommentary _
  | .removeCommentaryMatching _ | .upsertCollab _ | .setFinalReply _ _ | .finish _ _ => .isFalse id

/-- The rows of the thread after a change for the turn. -/
def apply (r : ThreadProgress) (turnId : String) : ProgressChange → ThreadProgress
  | .upsertCommand entry deliverUpdate => (r.upsertTelegramCommandProgress turnId entry deliverUpdate).1
  | .upsertWebSearch entry => (r.upsertTelegramWebSearchProgress turnId entry).1
  | .recordRetry error => (r.recordTelegramRetry turnId error).1
  | .appendReasoningDelta itemId summaryIndex delta => r.appendTelegramReasoningDelta turnId itemId summaryIndex delta
  | .completeReasoning itemId summary => (r.completeTelegramReasoning turnId itemId summary).1
  | .updatePlan explanation plan deliverUpdate => (r.updateTelegramPlan turnId explanation plan deliverUpdate).1
  | .updateDiff diffSummary deliverUpdate => (r.updateTelegramDiff turnId diffSummary deliverUpdate).1
  | .completeFileChange fallback => (r.completeTelegramFileChange turnId fallback).1
  | .reserveCommentary itemId => (r.reserveCommentarySequence turnId itemId).1
  | .upsertCommentary itemId text => (r.upsertTelegramCommentaryProgress turnId itemId text).1
  | .removeCommentary itemId => (r.removeTelegramCommentaryProgress turnId itemId).1
  | .removeCommentaryMatching text => (r.removeCommentaryMatchingText turnId text).1
  | .upsertCollab updates => (r.upsertTelegramCollabTaskProgress turnId updates).1
  | .setFinalReply text elapsedMs => (r.setTelegramCommandProgressFinalReply turnId text elapsedMs).1
  | .finish failed nowMs => (r.finishTelegramCommandProgressWithOutcome turnId failed nowMs).1

theorem entry_turnId (hr : r.OfTurn turnId) : (r.entry turnId).turnId = turnId := by
  unfold entry
  cases hp : r.progress with
  | none => rfl
  | some progress => exact hr progress hp

theorem entryOfTurn_eq (hr : r.OfTurn turnId) : r.entryOfTurn turnId = r.entry turnId :=
  if_pos (entry_turnId hr)

theorem entry_of_some {progress : TelegramCommandProgressState} (hp : r.progress = some progress) :
    r.entry turnId = progress := by
  rw [entry, hp]
  rfl

namespace Edited

theorem same : Edited r (r.store (r.entry turnId)) turnId := .inr ⟨_, rfl, .refl _⟩

variable {progress : TelegramCommandProgressState}

theorem unrendered (h : Keeps (r.entry turnId) progress)
    (hsnapshot : progress.snapshot = (r.entry turnId).snapshot) (hdirty : progress.dirty = (r.entry turnId).dirty) :
    Edited r (r.store progress) turnId :=
  .inr ⟨progress, rfl, h.unrendered hsnapshot hdirty⟩

theorem changed (h : Keeps (r.entry turnId) progress) : Edited r (r.store progress.markChanged) turnId :=
  .inr ⟨progress.markChanged, rfl, h.touched⟩

end Edited

theorem upsertTelegramCommandProgress_edited (hr : r.OfTurn turnId) (entry : TelegramCommandProgressEntry)
    (deliverUpdate : Bool) : Edited r (r.upsertTelegramCommandProgress turnId entry deliverUpdate).1 turnId := by
  unfold upsertTelegramCommandProgress
  rw [entryOfTurn_eq hr]
  dsimp only
  split
  next => exact .same
  next =>
    split
    next =>
      split
      next => exact .same
      next => exact .changed ⟨rfl, rfl, rfl, rfl, rfl, rfl, id⟩
    next => exact .changed ⟨rfl, rfl, rfl, rfl, rfl, rfl, id⟩

theorem upsertTelegramWebSearchProgress_edited (hr : r.OfTurn turnId) (entry : TelegramWebSearchProgressEntry) :
    Edited r (r.upsertTelegramWebSearchProgress turnId entry).1 turnId := by
  unfold upsertTelegramWebSearchProgress
  rw [entryOfTurn_eq hr]
  dsimp only
  split
  next => exact .inl rfl
  next =>
    split
    next => exact .same
    next =>
      split
      next =>
        split
        next => exact .same
        next => exact .changed ⟨rfl, rfl, rfl, rfl, rfl, rfl, id⟩
      next => exact .changed ⟨rfl, rfl, rfl, rfl, rfl, rfl, id⟩

theorem recordTelegramRetry_edited (hr : r.OfTurn turnId) (error : Option String) :
    Edited r (r.recordTelegramRetry turnId error).1 turnId := by
  unfold recordTelegramRetry
  rw [entryOfTurn_eq hr]
  dsimp only
  split
  next => exact .inl rfl
  next =>
    split
    next => exact .same
    next => exact .changed ⟨rfl, rfl, rfl, rfl, rfl, rfl, id⟩

theorem appendTelegramReasoningDelta_edited (itemId : String) (summaryIndex : Int) (delta : String) :
    Edited r (r.appendTelegramReasoningDelta turnId itemId summaryIndex delta) turnId := by
  unfold appendTelegramReasoningDelta
  dsimp only
  split
  next => exact .inl rfl
  next =>
    split
    next => exact .same
    next =>
      split
      next => exact .changed ⟨rfl, rfl, rfl, rfl, rfl, rfl, id⟩
      next =>
        split
        next => exact .same
        next => exact .changed ⟨rfl, rfl, rfl, rfl, rfl, rfl, id⟩

theorem completeTelegramReasoning_edited (itemId : String) (summary : Option String) :
    Edited r (r.completeTelegramReasoning turnId itemId summary).1 turnId := by
  unfold completeTelegramReasoning
  split
  next => exact .inl rfl
  next =>
    cases hp : r.progress with
    | none => exact .inl rfl
    | some progress =>
      obtain rfl : r.entry turnId = progress := entry_of_some hp
      dsimp only
      split
      next => exact .inl rfl
      next =>
        split
        next summary _ =>
          split
          next hsame =>
            -- the text is the one shown already, so only the index that deltas are checked against is dropped
            simp only [Bool.and_eq_true, Bool.not_eq_true', Bool.or_eq_false_iff, decide_eq_false_iff_not, ne_eq,
              not_not] at hsame
            obtain ⟨⟨hitem, rfl⟩, hcompleted⟩ := hsame
            exact .unrendered ⟨rfl, rfl, rfl, rfl, rfl, rfl, id⟩ rfl rfl
          next => exact .changed ⟨rfl, rfl, rfl, rfl, rfl, rfl, id⟩
        next =>
          split
          next => exact .inl rfl
          next => exact .changed ⟨rfl, rfl, rfl, rfl, rfl, rfl, id⟩

theorem updateTelegramPlan_edited (explanation : Option String) (plan : List TelegramPlanStep) (deliverUpdate : Bool)
    (hg : ¬ r.EmptiesPlan turnId (.updatePlan explanation plan deliverUpdate)) :
    Edited r (r.updateTelegramPlan turnId explanation plan deliverUpdate).1 turnId := by
  unfold updateTelegramPlan
  dsimp only
  split
  next => exact .inl rfl
  next hcurrent =>
    split
    next => exact .same
    next hopen =>
      split
      next => exact .same
      next hplan =>
        split
        next hempty =>
          refine absurd ⟨not_not.mp hcurrent, ?_, ?_, ?_, ?_⟩ hg
          · simp only [Bool.or_eq_true, not_or, Bool.not_eq_true] at hopen
            exact hopen.2
          · simp only [Bool.and_eq_true, Option.isNone_iff_eq_none] at hempty
            exact hempty.1
          · simp only [Bool.and_eq_true, decide_eq_true_eq] at hplan
            exact not_and_or.mp hplan
          · simp only [Bool.and_eq_true, Bool.not_eq_true'] at hempty
            exact hempty.2
        next => exact .changed ⟨rfl, rfl, rfl, rfl, rfl, rfl, id⟩

theorem updateTelegramDiff_edited (diffSummary : Option TelegramDiffSummary) (deliverUpdate : Bool) :
    Edited r (r.updateTelegramDiff turnId diffSummary deliverUpdate).1 turnId := by
  unfold updateTelegramDiff
  dsimp only
  split
  next => exact .inl rfl
  next =>
    split
    next => exact .same
    next =>
      split
      next => exact .same
      next => exact .changed ⟨rfl, rfl, rfl, rfl, rfl, rfl, id⟩

theorem completeTelegramFileChange_edited (fallback : Option TelegramDiffSummary) :
    Edited r (r.completeTelegramFileChange turnId fallback).1 turnId := by
  unfold completeTelegramFileChange
  dsimp only
  split
  next => exact .inl rfl
  next =>
    split
    next => exact .same
    next =>
      split
      next => exact .changed ⟨rfl, rfl, rfl, rfl, rfl, rfl, id⟩
      next => exact .same

theorem reserveCommentarySequence_edited (hr : r.OfTurn turnId) (itemId : String) :
    Edited r (r.reserveCommentarySequence turnId itemId).1 turnId := by
  unfold reserveCommentarySequence
  rw [entryOfTurn_eq hr]
  dsimp only
  split
  next => exact .same
  next =>
    split
    next => exact .same
    next => exact .unrendered ⟨rfl, rfl, rfl, rfl, rfl, rfl, id⟩ rfl rfl

theorem upsertTelegramCommentaryProgress_edited (hr : r.OfTurn turnId) (itemId text : String) :
    Edited r (r.upsertTelegramCommentaryProgress turnId itemId text).1 turnId := by
  unfold upsertTelegramCommentaryProgress
  rw [entryOfTurn_eq hr]
  dsimp only
  split
  next => exact .inl rfl
  next =>
    split
    next => exact .same
    next =>
      split
      next =>
        split
        next => exact .same
        next => exact .changed ⟨rfl, rfl, rfl, rfl, rfl, rfl, id⟩
      next =>
        split
        next => exact .changed ⟨rfl, rfl, rfl, rfl, rfl, rfl, id⟩
        next => exact .changed ⟨rfl, rfl, rfl, rfl, rfl, rfl, id⟩

theorem retainCommentary_edited (keep : TelegramCommentaryEntry → Bool) :
    Edited r (r.retainCommentary turnId keep).1 turnId := by
  unfold retainCommentary
  cases hp : r.progress with
  | none => exact .inl rfl
  | some progress =>
    obtain rfl : r.entry turnId = progress := entry_of_some hp
    dsimp only
    split
    next => exact .inl rfl
    next =>
      split
      next => exact .inl rfl
      next => exact .changed ⟨rfl, rfl, rfl, rfl, rfl, rfl, id⟩

theorem upsertTelegramCollabTaskProgress_edited (hr : r.OfTurn turnId) (updates : List TelegramCollabProgressUpdate) :
    Edited r (r.upsertTelegramCollabTaskProgress turnId updates).1 turnId := by
  unfold upsertTelegramCollabTaskProgress
  rw [entryOfTurn_eq hr]
  dsimp only
  split
  next => exact .inl rfl
  next =>
    split
    next => exact .same
    next =>
      split
      next hmerged =>
        obtain ⟨hentries, hdropped⟩ :=
          mergeTelegramCollabProgressUpdates_unchanged (by simpa using hmerged)
        rw [hentries, hdropped]
        exact .same
      next => exact .changed ⟨rfl, rfl, rfl, rfl, rfl, rfl, id⟩

theorem setTelegramCommandProgressFinalReply_edited (text : String) (elapsedMs : Option Nat) :
    Edited r (r.setTelegramCommandProgressFinalReply turnId text elapsedMs).1 turnId := by
  unfold setTelegramCommandProgressFinalReply
  cases hp : r.progress with
  | none => exact .inl rfl
  | some progress =>
    obtain rfl : r.entry turnId = progress := entry_of_some hp
    dsimp only
    split
    next => exact .inl rfl
    next => exact .changed ⟨rfl, rfl, rfl, rfl, rfl, rfl, id⟩

theorem map_ite_of_none {α : Type} {p : α → Prop} [DecidablePred p] {f : α → α} {l : List α}
    (h : (l.any fun a => p a) = false) : (l.map fun a => if p a then f a else a) = l := by
  induction l with
  | nil => rfl
  | cons a l ih =>
    obtain ⟨ha, hl⟩ := Bool.or_eq_false_iff.mp h
    rw [List.map_cons, ih hl, if_neg (of_decide_eq_false ha)]

theorem finishTelegramCommandProgressWithOutcome_edited (failed : Bool) (nowMs : Nat) :
    Edited r (r.finishTelegramCommandProgressWithOutcome turnId failed nowMs).1 turnId := by
  unfold finishTelegramCommandProgressWithOutcome
  cases hp : r.progress with
  | none => exact .inl rfl
  | some progress =>
    obtain rfl : r.entry turnId = progress := entry_of_some hp
    dsimp only
    split
    next => exact .inl rfl
    next =>
      split
      next => exact .changed ⟨rfl, rfl, rfl, rfl, rfl, rfl, fun _ => rfl⟩
      next hsame =>
        simp only [Bool.or_eq_true, not_or, Bool.not_eq_true, Bool.not_eq_false'] at hsame
        obtain ⟨⟨⟨_, hentries⟩, hcollab⟩, hfailed⟩ := hsame
        rw [map_ite_of_none hentries, map_ite_of_none hcollab, hfailed, Bool.or_false]
        exact .same

theorem apply_edited (hr : r.OfTurn turnId) (change : ProgressChange) (hg : ¬ r.EmptiesPlan turnId change) :
    Edited r (r.apply turnId change) turnId := by
  cases change with
  | upsertCommand entry deliverUpdate => exact upsertTelegramCommandProgress_edited hr entry deliverUpdate
  | upsertWebSearch entry => exact upsertTelegramWebSearchProgress_edited hr entry
  | recordRetry error => exact recordTelegramRetry_edited hr error
  | appendReasoningDelta itemId summaryIndex delta =>
    exact appendTelegramReasoningDelta_edited itemId summaryIndex delta
  | completeReasoning itemId summary => exact completeTelegramReasoning_edited itemId summary
  | updatePlan explanation plan deliverUpdate => exact updateTelegramPlan_edited explanation plan deliverUpdate hg
  | updateDiff diffSummary deliverUpdate => exact updateTelegramDiff_edited diffSummary deliverUpdate
  | completeFileChange fallback => exact completeTelegramFileChange_edited fallback
  | reserveCommentary itemId => exact reserveCommentarySequence_edited hr itemId
  | upsertCommentary itemId text => exact upsertTelegramCommentaryProgress_edited hr itemId text
  | removeCommentary itemId | removeCommentaryMatching text => exact retainCommentary_edited _
  | upsertCollab updates => exact upsertTelegramCollabTaskProgress_edited hr updates
  | setFinalReply text elapsedMs => exact setTelegramCommandProgressFinalReply_edited text elapsedMs
  | finish failed nowMs => exact finishTelegramCommandProgressWithOutcome_edited failed nowMs

end ThreadProgress

end MochiPort

import MochiPort.Runs
import Mathlib.Data.List.Infix
import Mathlib.Tactic.Common

namespace MochiPort

open List

/-- The listener of a bot's updates, with what has happened at the server: the updates that have arrived there and the
offsets of the calls that have reached it. -/
structure UpdatePolling where
  arrived : List Nat
  called : List Nat
  offset : Option Nat
  slotClaimed : Bool
  /-- The rest of the updates that the loop has fetched. -/
  updates : List Nat
  handled : List Nat
  /-- What `claim_polling_slot` has passed over. -/
  skipped : List Nat

/-- An update arrives; a call of `get_updates` is answered, or reaches the server and the answer is lost; the loop
takes its next update; the listener is started again. -/
inductive PollingStep where
  | arrive (updateId : Nat)
  | answer (updates : List Nat)
  | loseAnswer
  | next
  | restart

namespace UpdatePolling

def start : UpdatePolling := ⟨[], [], none, false, [], [], []⟩

def getUpdates (s : UpdatePolling) : UpdatePolling := { s with called := s.called ++ s.offset.toList }

def step (s : UpdatePolling) : PollingStep → Option UpdatePolling
  | .arrive updateId => some { s with arrived := s.arrived ++ [updateId] }
  | .loseAnswer => if s.updates = [] then some s.getUpdates else none
  | .answer updates =>
    if s.updates ≠ [] then none
    else if s.slotClaimed then some { s.getUpdates with updates := updates }
    else some { s.getUpdates with
      offset := updates.foldl (fun _ updateId => some (updateId + 1)) s.offset
      slotClaimed := true
      skipped := s.skipped ++ updates }
  | .next =>
    match s.updates with
    | [] => none
    | updateId :: updates =>
      some { s with offset := some (updateId + 1), updates := updates, handled := s.handled ++ [updateId] }
  | .restart => some { s with offset := none, slotClaimed := false, updates := [] }

/-- The offset of a call confirms the updates before it. -/
def Confirmed (s : UpdatePolling) (updateId : Nat) : Prop := ∃ offset ∈ s.called, updateId < offset

instance (s : UpdatePolling) (updateId : Nat) : Decidable (s.Confirmed updateId) :=
  inferInstanceAs (Decidable (∃ offset ∈ s.called, updateId < offset))

def pending (s : UpdatePolling) : List Nat := s.arrived.filter fun updateId => ¬s.Confirmed updateId

/-- What the server promises: ids increase, and an answer brings updates in their order from the earliest on that is
not confirmed, be it all of them or not. -/
def EarliestFirst (s : UpdatePolling) : PollingStep → Prop
  | .arrive updateId => ∀ other ∈ s.arrived, other < updateId
  | .answer updates => updates <+: s.getUpdates.pending
  | _ => True

/-- An answer brings `limit` updates at most, and the answer to a startup probe all that it may. -/
def FullProbes (limit : Nat) (s : UpdatePolling) : PollingStep → Prop
  | .answer updates =>
    updates.length ≤ limit ∧ (s.slotClaimed = false → updates.length = min limit s.getUpdates.pending.length)
  | _ => True

instance (s : UpdatePolling) : (a : PollingStep) → Decidable (s.EarliestFirst a)
  | .arrive updateId => inferInstanceAs (Decidable (∀ other ∈ s.arrived, other < updateId))
  | .answer updates => inferInstanceAs (Decidable (updates <+: s.getUpdates.pending))
  | .loseAnswer | .next | .restart => .isTrue trivial

instance (limit : Nat) (s : UpdatePolling) : (a : PollingStep) → Decidable (s.FullProbes limit a)
  | .answer updates => inferInstanceAs (Decidable (updates.length ≤ limit ∧ (s.slotClaimed = false → _)))
  | .arrive _ | .loseAnswer | .next | .restart => .isTrue trivial

variable {limit : Nat} {s t : UpdatePolling}

/-- Every update before the bound has been seen, and what will arrive is not before it. -/
structure Behind (arrived seen : List Nat) (bound : Nat) : Prop where
  reached : ∃ last ∈ arrived, bound ≤ last + 1
  seen : ∀ updateId ∈ arrived, updateId < bound → updateId ∈ seen

theorem Behind.arrive {arrived seen : List Nat} {bound updateId : Nat} (h : Behind arrived seen bound)
    (hnew : ∀ other ∈ arrived, other < updateId) : Behind (arrived ++ [updateId]) seen bound := by
  obtain ⟨⟨last, hlast, hle⟩, hseen⟩ := h
  refine ⟨⟨last, mem_append_left _ hlast, hle⟩, fun other hother hlt => ?_⟩
  rcases mem_append.mp hother with hother | hother
  · exact hseen other hother hlt
  · have hlater := hnew last hlast
    rw [mem_singleton.mp hother] at hlt
    omega

theorem Behind.mono {arrived seen more : List Nat} {bound : Nat} (h : Behind arrived seen bound) (hsub : seen ⊆ more) :
    Behind arrived more bound :=
  ⟨h.reached, fun updateId hmem hlt => hsub (h.seen updateId hmem hlt)⟩

/-- All before an offset has been handled or passed over, and so has all before a fetched update but what was fetched
with it. -/
structure Sound (s : UpdatePolling) : Prop where
  arrived : s.arrived.Pairwise (· < ·)
  fetched : s.updates.Pairwise (· < ·)
  offsets : ∀ offset ∈ s.getUpdates.called, Behind s.arrived (s.handled ++ s.skipped) offset
  updates : ∀ last ∈ s.updates, Behind s.arrived (s.handled ++ s.skipped ++ s.updates) (last + 1)

theorem mem_of_le_last {l updates : List Nat} (hl : l.Pairwise (· < ·)) (hp : updates <+: l) {last updateId : Nat}
    (hlast : last ∈ updates) (hmem : updateId ∈ l) (hle : updateId ≤ last) : updateId ∈ updates := by
  obtain ⟨rest, rfl⟩ := hp
  refine (mem_append.mp hmem).resolve_right fun hrest => ?_
  have hlt := (pairwise_append.mp hl).2.2 last hlast updateId hrest
  omega

theorem foldl_offset (updates : List Nat) (offset : Option Nat) :
    updates.foldl (fun _ updateId => some (updateId + 1)) offset =
      (updates.getLast?.map (· + 1)).or offset := by
  induction updates generalizing offset with
  | nil => rfl
  | cons updateId updates ih =>
    rw [foldl_cons, ih, List.getLast?_cons]
    cases updates.getLast? <;> rfl

theorem Sound.answered (hs : s.Sound) {updates : List Nat} (hp : updates <+: s.getUpdates.pending) :
    updates.Pairwise (· < ·) ∧
      ∀ last ∈ updates, Behind s.arrived (s.handled ++ s.skipped ++ updates) (last + 1) := by
  have hpending : s.getUpdates.pending.Pairwise (· < ·) := hs.arrived.filter _
  refine ⟨hpending.sublist hp.sublist, fun last hlast => ?_⟩
  refine ⟨⟨last, mem_of_mem_filter (hp.subset hlast), le_rfl⟩, fun updateId hmem hlt => ?_⟩
  by_cases hconfirmed : s.getUpdates.Confirmed updateId
  · obtain ⟨offset, hoffset, hbefore⟩ := hconfirmed
    exact mem_append_left _ ((hs.offsets offset hoffset).seen updateId hmem hbefore)
  · have hwaits : updateId ∈ s.getUpdates.pending := mem_filter.mpr ⟨hmem, decide_eq_true hconfirmed⟩
    exact mem_append_right _ (mem_of_le_last hpending hp hlast hwaits (Nat.le_of_lt_succ hlt))

@[simp] theorem mem_called {offset : Nat} :
    offset ∈ s.getUpdates.called ↔ offset ∈ s.called ∨ s.offset = some offset := by
  simp [getUpdates]

theorem Sound.step {a : PollingStep} (hs : s.Sound) (ha : s.EarliestFirst a) (h : step s a = some t) : t.Sound := by
  obtain ⟨harrived, hfetched, hoffsets, hseen⟩ := id hs
  simp only [mem_called] at hoffsets
  cases a with
  | arrive updateId =>
    cases h
    refine ⟨pairwise_append.mpr ⟨harrived, pairwise_singleton _ _, ?_⟩, hfetched, ?_, ?_⟩
    · intro last hlast other hother
      rw [mem_singleton.mp hother]
      exact ha last hlast
    · exact fun offset hoffset => (hs.offsets offset hoffset).arrive ha
    · exact fun last hlast => (hseen last hlast).arrive ha
  | restart =>
    cases h
    exact ⟨harrived, .nil, fun offset hoffset => hoffsets offset ((mem_called.mp hoffset).imp_right nofun), nofun⟩
  | loseAnswer =>
    obtain ⟨-, hstep⟩ := Option.ite_none_right_eq_some.mp h
    cases hstep
    refine ⟨harrived, hfetched, fun offset hoffset => hoffsets offset ?_, hseen⟩
    simpa [getUpdates, or_assoc] using hoffset
  | answer updates =>
    obtain ⟨hsorted, hbehind⟩ := hs.answered ha
    simp only [UpdatePolling.step] at h
    split at h
    next => cases h
    split at h
    next =>
      cases h
      refine ⟨harrived, hsorted, fun offset hoffset => hoffsets offset ?_, hbehind⟩
      simpa [getUpdates, or_assoc] using hoffset
    next hempty _ =>
      cases h
      have hnone : s.updates = [] := not_not.mp hempty
      refine ⟨harrived, hfetched, fun offset hoffset => ?_, by simp [hnone, getUpdates]⟩
      rw [← append_assoc]
      have hkept : offset ∈ s.called ∨ s.offset = some offset →
          Behind s.arrived (s.handled ++ s.skipped ++ updates) offset :=
        fun hold => (hoffsets offset hold).mono (subset_append_left _ _)
      rcases mem_called.mp hoffset with hold | hnew
      · exact hkept (by simpa using hold)
      rw [foldl_offset] at hnew
      cases hlast : updates.getLast? with
      | none =>
        rw [hlast] at hnew
        exact hkept (.inr hnew)
      | some last =>
        rw [hlast] at hnew
        cases hnew
        exact hbehind last (mem_of_getLast? hlast)
  | next =>
    simp only [UpdatePolling.step] at h
    split at h
    next => cases h
    next updateId updates hupdates =>
      cases h
      rw [hupdates] at hfetched hseen
      obtain ⟨hfirst, hrest⟩ := pairwise_cons.mp hfetched
      refine ⟨harrived, hrest, fun offset hoffset => ?_, fun last hlast => ?_⟩
      · rcases mem_called.mp hoffset with hold | hnew
        · refine (hoffsets offset (.inl hold)).mono fun other hother => ?_
          simp only [mem_append] at hother ⊢
          tauto
        · cases hnew
          have hreached := hseen updateId mem_cons_self
          refine ⟨hreached.reached, fun other hother hlt => ?_⟩
          have hall := hreached.seen other hother hlt
          have hlater : other ∉ updates := fun hmem => by
            have := hfirst other hmem
            omega
          simp only [mem_append, mem_cons, not_mem_nil, or_false] at hall ⊢
          tauto
      · refine (hseen last (mem_cons_of_mem _ hlast)).mono fun other hother => ?_
        simp only [mem_append, mem_cons, not_mem_nil, or_false] at hother ⊢
        tauto

theorem mem_take_filter {l : List Nat} {p : Nat → Bool} {n a : Nat} (h : a ∈ l.take n) (hp : p a) :
    a ∈ (l.filter p).take n := by
  induction l generalizing n with
  | nil => simp at h
  | cons b l ih =>
    cases n with
    | zero => simp at h
    | succ n =>
      rw [take_succ_cons, mem_cons] at h
      rw [filter_cons]
      rcases h with rfl | h
      · simp [hp]
      · split
        · exact mem_cons_of_mem b (ih h)
        · exact (take_prefix_take_left (Nat.le_succ n)).subset (ih h)

/-- While the slot is claimed, the next call confirms all that has been handled. Before that, the answer to the probe
brings all of it that is not confirmed, since one answer brought it before. -/
structure Once (limit : Nat) (s : UpdatePolling) : Prop where
  sorted : s.handled.Pairwise (· < ·)
  ahead : ∀ updateId ∈ s.handled, ∀ later ∈ s.updates, updateId < later
  claimed : s.slotClaimed = true → ∀ updateId ∈ s.handled, s.getUpdates.Confirmed updateId
  window : ∀ updateId ∈ s.handled ++ s.updates, s.Confirmed updateId ∨ updateId ∈ s.pending.take limit

theorem Confirmed.getUpdates {updateId : Nat} (h : s.Confirmed updateId) : s.getUpdates.Confirmed updateId := by
  obtain ⟨offset, hoffset, hlt⟩ := h
  exact ⟨offset, mem_called.mpr (.inl hoffset), hlt⟩

theorem window_getUpdates {updateId : Nat} (h : s.Confirmed updateId ∨ updateId ∈ s.pending.take limit) :
    s.getUpdates.Confirmed updateId ∨ updateId ∈ s.getUpdates.pending.take limit := by
  by_cases hconfirmed : s.getUpdates.Confirmed updateId
  · exact .inl hconfirmed
  · have hpending : s.getUpdates.pending = s.pending.filter fun other => ¬s.getUpdates.Confirmed other := by
      rw [pending, pending, filter_filter]
      refine filter_congr fun other _ => ?_
      have hkept := @Confirmed.getUpdates s other
      grind
    rw [hpending]
    exact .inr (mem_take_filter (h.resolve_left fun hold => hconfirmed hold.getUpdates) (decide_eq_true hconfirmed))

theorem Once.answer (ho : s.Once limit) (hs : s.Sound) {updates : List Nat} (ha : s.EarliestFirst (.answer updates))
    (hf : s.FullProbes limit (.answer updates)) (h : step s (.answer updates) = some t) : t.Once limit := by
  obtain ⟨hfront, hlength, hfull⟩ : updates <+: s.getUpdates.pending ∧ _ := ⟨ha, hf⟩
  have hwindow : ∀ updateId ∈ s.handled, s.getUpdates.Confirmed updateId ∨ updateId ∈ s.getUpdates.pending.take limit :=
    fun updateId hmem => window_getUpdates (ho.window updateId (mem_append_left _ hmem))
  simp only [UpdatePolling.step] at h
  split at h
  next => cases h
  next hempty =>
    have hnone : s.updates = [] := not_not.mp hempty
    split at h
    next hclaimed =>
      cases h
      have hconfirmed := ho.claimed hclaimed
      refine ⟨ho.sorted, fun updateId hmem later hlater => ?_, fun _ updateId hmem => ?_, fun updateId hmem => ?_⟩
      · obtain ⟨offset, hoffset, hlt⟩ := hconfirmed updateId hmem
        have hwaits := of_decide_eq_true (mem_filter.mp (hfront.subset hlater)).2
        exact hlt.trans_le (not_lt.mp fun hbefore => hwaits ⟨offset, hoffset, hbefore⟩)
      · exact (hconfirmed updateId hmem).getUpdates
      · rcases mem_append.mp hmem with hmem | hmem
        · exact hwindow updateId hmem
        · exact .inr ((prefix_take_iff.mpr ⟨hfront, hlength⟩).subset hmem)
    next hclaimed =>
      cases h
      -- the probe brings what was handled and is not confirmed, and the offset is behind it
      have hall : updates = s.getUpdates.pending.take limit := by
        rw [prefix_iff_eq_take.mp hfront, hfull (Bool.not_eq_true _ ▸ hclaimed), ← take_eq_take_min]
      have hsorted := (hs.answered ha).1
      refine ⟨ho.sorted, by simp [hnone, getUpdates], fun _ updateId hmem => ?_, fun updateId hmem => ?_⟩
      · rcases hwindow updateId hmem with ⟨offset, hoffset, hlt⟩ | hbrought
        · exact ⟨offset, mem_called.mpr (.inl hoffset), hlt⟩
        · rw [← hall] at hbrought
          obtain ⟨last, hlast⟩ := Option.isSome_iff_exists.mp (List.getLast?_isSome.mpr (ne_nil_of_mem hbrought))
          obtain ⟨before, rfl⟩ := List.getLast?_eq_some_iff.mp hlast
          refine ⟨last + 1, mem_called.mpr (.inr ?_), ?_⟩
          · rw [foldl_offset, hlast]
            rfl
          · have hle := (pairwise_append.mp hsorted).2.2 updateId
            grind
      · refine hwindow updateId ?_
        simpa [getUpdates, hnone] using hmem

theorem Once.step {a : PollingStep} (ho : s.Once limit) (hs : s.Sound) (ha : s.EarliestFirst a)
    (hf : s.FullProbes limit a) (h : step s a = some t) : t.Once limit := by
  cases a with
  | answer updates => exact ho.answer hs ha hf h
  | arrive updateId =>
    cases h
    refine ⟨ho.sorted, ho.ahead, ho.claimed, fun other hmem => (ho.window other hmem).imp_right fun hin => ?_⟩
    rw [pending, filter_append]
    exact ((prefix_append _ _).take limit).subset hin
  | restart =>
    cases h
    refine ⟨ho.sorted, by simp, nofun, fun other hmem => ho.window other ?_⟩
    exact mem_append_left _ (by simpa using hmem)
  | loseAnswer =>
    obtain ⟨-, hstep⟩ := Option.ite_none_right_eq_some.mp h
    cases hstep
    refine ⟨ho.sorted, ho.ahead, fun hclaimed other hmem => (ho.claimed hclaimed other hmem).getUpdates, ?_⟩
    exact fun other hmem => window_getUpdates (ho.window other hmem)
  | next =>
    simp only [UpdatePolling.step] at h
    split at h
    next => cases h
    next updateId updates hupdates =>
      cases h
      obtain ⟨hsorted, hahead, -, hwindow⟩ := ho
      have hfetched := hs.fetched
      rw [hupdates] at hfetched hahead hwindow
      obtain ⟨hfirst, -⟩ := pairwise_cons.mp hfetched
      have hbefore : ∀ other ∈ s.handled, other < updateId := fun other hmem => hahead other hmem updateId (by simp)
      refine ⟨pairwise_append.mpr ⟨hsorted, pairwise_singleton _ _, ?_⟩, ?_, fun _ other hmem => ?_, ?_⟩
      · simpa using hbefore
      · grind
      · refine ⟨updateId + 1, mem_called.mpr (.inr rfl), ?_⟩
        grind
      · intro other hmem
        exact hwindow other (by simpa using hmem)

/-- Whichever calls fail and whenever the listener starts again, an update that has arrived was handled, or a startup
probe has passed over it, or the next call does not confirm it; and if probes are answered in full, no update is
handled twice. -/
theorem updates_handled_once {steps : List PollingStep} (h : Runs.run step start steps = some s)
    (horder : Runs.Meets step EarliestFirst start steps) :
    (∀ updateId ∈ s.arrived, updateId ∈ s.handled ∨ updateId ∈ s.skipped ∨ updateId ∈ s.getUpdates.pending) ∧
      ∀ limit, Runs.Meets step (FullProbes limit) start steps → s.handled.Pairwise (· < ·) := by
  have hstart : start.Sound := ⟨.nil, .nil, nofun, nofun⟩
  constructor
  · have hs := Runs.run_invariant_of_meets Sound (fun _ _ _ hs ha hstep => hs.step ha hstep) hstart horder h
    intro updateId harrived
    by_cases hconfirmed : s.getUpdates.Confirmed updateId
    · obtain ⟨offset, hoffset, hlt⟩ := hconfirmed
      have hseen := (hs.offsets offset hoffset).seen updateId harrived hlt
      rw [mem_append] at hseen
      exact hseen.imp_right .inl
    · exact .inr (.inr (mem_filter.mpr ⟨harrived, decide_eq_true hconfirmed⟩))
  · intro limit hfull
    refine (Runs.run_invariant_of_meets (fun s : UpdatePolling => s.Sound ∧ s.Once limit) ?_ ⟨hstart, ?_⟩
      (Runs.meets_and.mpr ⟨horder, hfull⟩) h).2.sorted
    · exact fun _ _ _ hi ha hstep => ⟨hi.1.step ha.1 hstep, hi.2.step hi.1 ha.1 ha.2 hstep⟩
    · exact ⟨.nil, nofun, nofun, nofun⟩

def restartedPolling : List PollingStep :=
  [.answer [], .arrive 7, .arrive 9, .answer [7, 9], .next, .restart, .answer [7, 9], .arrive 12, .loseAnswer,
    .answer [12], .next]

/-- The probe of the second listener passes over what the first one has fetched, handled or not. -/
theorem updates_handled_once_restarted :
    ∃ s, Runs.run step start restartedPolling = some s ∧ s.handled = [7, 12] ∧ s.skipped = [7, 9] ∧
      s.getUpdates.pending = [] ∧
      (∀ updateId ∈ s.arrived, updateId ∈ s.handled ∨ updateId ∈ s.skipped ∨ updateId ∈ s.getUpdates.pending) ∧
      s.handled.Pairwise (· < ·) := by
  have hall := @updates_handled_once _ restartedPolling rfl (by decide)
  exact ⟨_, rfl, rfl, rfl, by decide, hall.1, hall.2 100 (by decide)⟩

end UpdatePolling

end MochiPort

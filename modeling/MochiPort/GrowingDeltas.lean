import Mathlib.Data.List.Basic

/-! A growing text that is sent piece by piece: each piece is what the text before it lacks, or all of it when the
text before is no prefix. -/

namespace GrowingDeltas

open List

variable {α : Type*} [DecidableEq α]

/-- What is sent for a text when `sent` was the last one. -/
def delta (sent full : List α) : List α := if sent <+: full then full.drop sent.length else full

/-- The pieces for the texts; an empty one is not sent. -/
def deltas : List α → List (List α) → List (List α)
  | _, [] => []
  | sent, full :: fulls =>
    if delta sent full = [] then deltas sent fulls else delta sent full :: deltas full fulls

variable {sent full : List α} {fulls : List (List α)}

theorem append_delta (h : sent <+: full) : sent ++ delta sent full = full := by
  obtain ⟨rest, rfl⟩ := h
  rw [delta, if_pos (prefix_append _ _), drop_left]

theorem eq_of_delta_nil (h : sent <+: full) (hnil : delta sent full = []) : full = sent := by
  have happend := append_delta h
  rw [hnil, append_nil] at happend
  exact happend.symm

theorem delta_of_not_prefix (h : ¬ sent <+: full) : delta sent full = full := if_neg h

/-- While every text is a prefix of the next one, the pieces make up the last. -/
theorem deltas_of_prefix (h : ∀ full ∈ fulls, sent <+: full) (hgrow : fulls.Pairwise (· <+: ·)) :
    sent ++ (deltas sent fulls).flatten = fulls.getLastD sent := by
  induction fulls generalizing sent with
  | nil => exact append_nil sent
  | cons full fulls ih =>
    obtain ⟨hfirst, hrest⟩ := pairwise_cons.mp hgrow
    have hsent := h full mem_cons_self
    rw [deltas, getLastD_cons]
    split
    next hnil =>
      have hsame := eq_of_delta_nil hsent hnil
      subst hsame
      exact ih hfirst hrest
    next =>
      rw [flatten_cons, ← append_assoc, append_delta hsent]
      exact ih hfirst hrest

def lastSent : List α → List (List α) → List α
  | sent, [] => sent
  | sent, full :: fulls => if delta sent full = [] then lastSent sent fulls else lastSent full fulls

theorem deltas_append (sent : List α) (fulls later : List (List α)) :
    deltas sent (fulls ++ later) = deltas sent fulls ++ deltas (lastSent sent fulls) later := by
  induction fulls generalizing sent with
  | nil => rfl
  | cons full fulls ih =>
    rw [cons_append, deltas, deltas, lastSent]
    split
    next => exact ih sent
    next =>
      rw [ih full]
      rfl

theorem lastSent_of_prefix (h : ∀ full ∈ fulls, sent <+: full) (hgrow : fulls.Pairwise (· <+: ·)) :
    lastSent sent fulls = fulls.getLastD sent := by
  induction fulls generalizing sent with
  | nil => rfl
  | cons full fulls ih =>
    obtain ⟨hfirst, hrest⟩ := pairwise_cons.mp hgrow
    rw [lastSent, getLastD_cons]
    split
    next hnil =>
      have hsame := eq_of_delta_nil (h full mem_cons_self) hnil
      subst hsame
      exact ih hfirst hrest
    next => exact ih hfirst hrest

theorem prefix_getLastD (h : ∀ full ∈ fulls, sent <+: full) (hgrow : fulls.Pairwise (· <+: ·)) :
    sent <+: fulls.getLastD sent := by
  rw [← deltas_of_prefix h hgrow]
  exact prefix_append _ _

/-- After something else was sent, the pieces complete it only if the last text begins with it and no text shows less. -/
theorem deltas_after_iff (hsent : sent ≠ []) (hgrow : fulls.Pairwise (· <+: ·)) :
    sent ++ (deltas sent fulls).flatten = fulls.getLastD [] ↔
      sent <+: fulls.getLastD [] ∧ ∀ full ∈ fulls, full = [] ∨ sent.length ≤ full.length := by
  induction fulls with
  | nil =>
    refine iff_of_false (fun h => hsent ?_) fun h => hsent (prefix_nil.mp h.1)
    simpa [deltas] using h
  | cons full fulls ih =>
    obtain ⟨hfirst, hrest⟩ := pairwise_cons.mp hgrow
    rw [getLastD_cons]
    have hshown := prefix_getLastD hfirst hrest
    by_cases hbegins : sent <+: full
    · have hall : ∀ f ∈ full :: fulls, sent <+: f :=
        forall_mem_cons.mpr ⟨hbegins, fun f hf => hbegins.trans (hfirst f hf)⟩
      have htotal := deltas_of_prefix hall hgrow
      rw [getLastD_cons] at htotal
      exact iff_of_true htotal ⟨hbegins.trans hshown, fun f hf => .inr (hall f hf).length_le⟩
    · rw [deltas, delta_of_not_prefix hbegins, forall_mem_cons]
      by_cases hnil : full = []
      · rw [if_pos hnil, hnil, ih hrest]
        exact and_congr_right fun _ => (and_iff_right (.inl rfl)).symm
      · rw [if_neg hnil, flatten_cons, deltas_of_prefix hfirst hrest]
        -- the whole of this text is sent again
        refine iff_of_false (fun h => ?_) ?_
        · have hlength := congrArg List.length h
          have hpos := length_pos_iff.mpr hsent
          rw [length_append] at hlength
          omega
        · rintro ⟨hwhole, hlong, _⟩
          exact hbegins (prefix_of_prefix_length_le hwhole hshown (hlong.resolve_left hnil))

/-- The pieces of two growing runs of texts, one after the other, make up the last text exactly when the first run shows
nothing but the beginning of it and the second never shows less than that. -/
theorem deltas_two_runs_iff {blanks : List (List α)} (hblanks : blanks.Pairwise (· <+: ·))
    (hgrow : fulls.Pairwise (· <+: ·)) :
    (deltas [] (blanks ++ fulls)).flatten = fulls.getLastD [] ↔
      blanks.getLastD [] = [] ∨
        blanks.getLastD [] <+: fulls.getLastD [] ∧
          ∀ full ∈ fulls, full = [] ∨ (blanks.getLastD []).length ≤ full.length := by
  have hnil : ∀ l : List (List α), ∀ full ∈ l, [] <+: full := fun l full _ => nil_prefix
  have hfirst := deltas_of_prefix (hnil blanks) hblanks
  rw [nil_append] at hfirst
  rw [deltas_append, flatten_append, hfirst, lastSent_of_prefix (hnil blanks) hblanks]
  by_cases hblank : blanks.getLastD [] = []
  · have hsecond := deltas_of_prefix (hnil fulls) hgrow
    rw [nil_append] at hsecond
    rw [hblank, nil_append, hsecond]
    exact iff_of_true rfl (.inl rfl)
  · rw [deltas_after_iff hblank hgrow]
    exact ⟨.inr, fun h => h.resolve_left hblank⟩

end GrowingDeltas

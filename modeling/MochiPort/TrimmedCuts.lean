import Mathlib.Data.List.DropRight

/-! Texts that are cut into pieces of bounded length, without the blanks at the cuts. -/

/-- A piece of a text, with the blanks that come before it. -/
structure Stretch (α : Type*) where
  gap : List α
  piece : List α

namespace Cuts

open List

variable {α : Type*}

/-- The text of some stretches and of the blanks after them. -/
def whole : List (Stretch α) → List α → List α
  | [], tail => tail
  | s :: stretches, tail => s.gap ++ (s.piece ++ whole stretches tail)

variable (blank : α → Bool)

structure Trimmed (text : List α) : Prop where
  ne_nil : text ≠ []
  head : ∀ c ∈ text.head?, blank c = false
  last : ∀ c ∈ text.getLast?, blank c = false

variable (limit : Nat) (cutAt : List α → Nat)

def pieceAt (remaining : List α) : List α := (remaining.take (cutAt remaining)).rdropWhile blank

def gapAt (remaining : List α) : List α :=
  (remaining.take (cutAt remaining)).rtakeWhile blank ++ (remaining.drop (cutAt remaining)).takeWhile blank

def restAt (remaining : List α) : List α := (remaining.drop (cutAt remaining)).dropWhile blank

/-- The stretches that what remains of a text is cut into; `gap` came before it. -/
inductive CutInto : List α → List α → List (Stretch α) → Prop
  | last (gap : List α) {remaining : List α} (hne : remaining ≠ []) (h : remaining.length ≤ limit) :
      CutInto gap remaining [⟨gap, remaining⟩]
  | cut (gap : List α) {remaining : List α} {stretches : List (Stretch α)} (h : limit < remaining.length)
      (hrest : CutInto (gapAt blank cutAt remaining) (restAt blank cutAt remaining) stretches) :
      CutInto gap remaining (⟨gap, pieceAt blank cutAt remaining⟩ :: stretches)

/-- The pieces, cut off one after the other; `none` after `fuel` rounds. -/
def loop : Nat → List α → Option (List (List α))
  | _, [] => some []
  | 0, _ :: _ => none
  | fuel + 1, remaining =>
    if remaining.length ≤ limit then some [remaining]
    else (loop fuel (restAt blank cutAt remaining)).map fun pieces => pieceAt blank cutAt remaining :: pieces

/-- A cut takes something, but not more than the limit. -/
def CutsOff : Prop := ∀ remaining : List α, limit < remaining.length → 0 < cutAt remaining ∧ cutAt remaining ≤ limit

section

variable {blank limit cutAt} {gap remaining part text tail : List α} {stretches : List (Stretch α)}
  {pieces : List (List α)} {fuel : Nat}

theorem pieceAt_gapAt_restAt (blank : α → Bool) (cutAt : List α → Nat) (remaining : List α) :
    pieceAt blank cutAt remaining ++ (gapAt blank cutAt remaining ++ restAt blank cutAt remaining) = remaining := by
  rw [gapAt, restAt, append_assoc, takeWhile_append_dropWhile, ← append_assoc, pieceAt,
    rdropWhile_append_rtakeWhile, take_append_drop]

theorem blank_gapAt {c : α} (h : c ∈ gapAt blank cutAt remaining) : blank c = true := by
  rcases mem_append.mp h with h | h
  · exact mem_rtakeWhile_imp h
  · exact mem_takeWhile_imp h

theorem Trimmed.dropWhile_suffix (h : Trimmed blank text) (hpart : part <:+ text) (hne : part ≠ []) :
    Trimmed blank (part.dropWhile blank) := by
  obtain ⟨before, rfl⟩ := hpart
  have hlast := h.last
  rw [List.getLast?_append_of_ne_nil before hne] at hlast
  have hnil : part.dropWhile blank ≠ [] := by
    intro hblank
    have hmem := getLast_mem hne
    have hc := hlast _ (List.getLast?_eq_some_getLast hne)
    rw [dropWhile_eq_nil_iff.mp hblank _ hmem] at hc
    cases hc
  refine ⟨hnil, fun c hc => ?_, fun c hc => hlast c ?_⟩
  · have hhead := List.head?_dropWhile_not blank part
    rw [hc] at hhead
    exact hhead
  · obtain ⟨blanks, hblanks⟩ := List.dropWhile_suffix blank (l := part)
    rw [← hblanks, List.getLast?_append_of_ne_nil blanks hnil]
    exact hc

theorem Trimmed.rdropWhile_prefix (h : Trimmed blank text) (hpart : part <+: text) (hne : part ≠ []) :
    Trimmed blank (part.rdropWhile blank) := by
  obtain ⟨after, rfl⟩ := hpart
  have hhead := h.head
  rw [List.head?_append_of_ne_nil part hne] at hhead
  have hnil : part.rdropWhile blank ≠ [] := by
    intro hblank
    have hmem := head_mem hne
    have hc := hhead _ (List.head?_eq_some_head hne)
    rw [rdropWhile_eq_nil_iff.mp hblank _ hmem] at hc
    cases hc
  refine ⟨hnil, fun c hc => hhead c ?_, fun c hc => ?_⟩
  · obtain ⟨blanks, hblanks⟩ := List.rdropWhile_prefix blank part
    rw [← hblanks, List.head?_append_of_ne_nil _ hnil]
    exact hc
  · have hlast := rdropWhile_last_not blank part hnil
    rw [List.getLast?_eq_some_getLast hnil] at hc
    cases hc
    exact Bool.eq_false_iff.mpr hlast

theorem Trimmed.restAt (h : Trimmed blank remaining) (hlong : limit < remaining.length)
    (hcut : CutsOff limit cutAt) : Trimmed blank (restAt blank cutAt remaining) := by
  refine h.dropWhile_suffix (drop_suffix _ _) fun hnil => ?_
  have hlength := congrArg List.length hnil
  have hmax := (hcut remaining hlong).2
  rw [length_drop, length_nil] at hlength
  omega

theorem Trimmed.pieceAt (h : Trimmed blank remaining) (hlong : limit < remaining.length)
    (hcut : CutsOff limit cutAt) : Trimmed blank (pieceAt blank cutAt remaining) := by
  refine h.rdropWhile_prefix (List.take_prefix _ _) fun hnil => ?_
  have hlength := congrArg List.length hnil
  have hpos := (hcut remaining hlong).1
  rw [length_take, length_nil] at hlength
  omega

theorem restAt_length_lt (hlong : limit < remaining.length) (hcut : CutsOff limit cutAt) :
    (restAt blank cutAt remaining).length < remaining.length := by
  have hle := (List.dropWhile_suffix blank (l := remaining.drop (cutAt remaining))).length_le
  rw [length_drop] at hle
  have hpos := (hcut remaining hlong).1
  rw [restAt]
  omega

theorem pieceAt_length_le (hlong : limit < remaining.length) (hcut : CutsOff limit cutAt) :
    (pieceAt blank cutAt remaining).length ≤ limit := by
  have hle := (List.rdropWhile_prefix blank (remaining.take (cutAt remaining))).length_le
  rw [length_take] at hle
  have hmax := (hcut remaining hlong).2
  rw [pieceAt]
  omega

namespace CutInto

section

variable (h : CutInto blank limit cutAt gap remaining stretches)
include h

theorem exists_cons : ∃ piece later, stretches = ⟨gap, piece⟩ :: later := by
  cases h with
  | last gap hne h | cut gap h hrest => exact ⟨_, _, rfl⟩

theorem first_eq (hlong : limit < remaining.length) :
    ∃ later, stretches = ⟨gap, pieceAt blank cutAt remaining⟩ :: later := by
  cases h with
  | last gap hne h => omega
  | cut gap h hrest => exact ⟨_, rfl⟩

theorem whole_eq (tail : List α) : whole stretches tail = gap ++ (remaining ++ tail) := by
  induction h with
  | last gap hne h => rfl
  | cut gap h hrest ih =>
    rw [whole, ih]
    refine congrArg (gap ++ ·) ?_
    rw [← append_assoc (gapAt _ _ _), ← append_assoc, pieceAt_gapAt_restAt]

theorem trimmed (hcut : CutsOff limit cutAt)
    (htrimmed : Trimmed blank remaining) : ∀ s ∈ stretches, Trimmed blank s.piece := by
  induction h with
  | last gap hne h =>
    intro s hs
    rw [mem_singleton.mp hs]
    exact htrimmed
  | cut gap h hrest ih =>
    intro s hs
    rcases mem_cons.mp hs with rfl | hs
    · exact htrimmed.pieceAt h hcut
    · exact ih (htrimmed.restAt h hcut) s hs

theorem piece_infix : ∀ s ∈ stretches, s.piece <:+: remaining := by
  induction h with
  | last gap hne h =>
    intro s hs
    obtain rfl := mem_singleton.mp hs
    exact infix_rfl
  | @cut gap remaining stretches h hrest ih =>
    intro s hs
    rcases mem_cons.mp hs with rfl | hs
    · exact ((List.rdropWhile_prefix blank _).trans (List.take_prefix _ remaining)).isInfix
    · exact (ih s hs).trans ((List.dropWhile_suffix blank).trans (drop_suffix _ remaining)).isInfix

theorem piece_length_le (hcut : CutsOff limit cutAt) : ∀ s ∈ stretches, s.piece.length ≤ limit := by
  induction h with
  | last gap hne h =>
    intro s hs
    rw [mem_singleton.mp hs]
    exact h
  | cut gap h hrest ih =>
    intro s hs
    rcases mem_cons.mp hs with rfl | hs
    · exact pieceAt_length_le h hcut
    · exact ih s hs

theorem blank_gap (hgap : ∀ c ∈ gap, blank c = true) : ∀ s ∈ stretches, ∀ c ∈ s.gap, blank c = true := by
  induction h with
  | last gap hne h =>
    intro s hs
    rw [mem_singleton.mp hs]
    exact hgap
  | cut gap h hrest ih =>
    intro s hs
    rcases mem_cons.mp hs with rfl | hs
    · exact hgap
    · exact ih (fun c hc => blank_gapAt hc) s hs

theorem unique {stretches' : List (Stretch α)}
    (h' : CutInto blank limit cutAt gap remaining stretches') : stretches = stretches' := by
  induction h generalizing stretches' with
  | last gap hne h =>
    cases h' with
    | last gap hne' h' => rfl
    | cut gap h' hrest' => omega
  | cut gap h hrest ih =>
    cases h' with
    | last gap hne' h' => omega
    | cut gap h' hrest' => rw [ih hrest']

theorem loop_eq (hcut : CutsOff limit cutAt) (htrimmed : Trimmed blank remaining) :
    ∃ fuel, loop blank limit cutAt fuel remaining = some (stretches.map Stretch.piece) := by
  induction h with
  | @last gap remaining hne h =>
    refine ⟨1, ?_⟩
    cases remaining with
    | nil => exact absurd rfl hne
    | cons c remaining => exact if_pos h
  | @cut gap remaining stretches h hrest ih =>
    obtain ⟨fuel, hfuel⟩ := ih (htrimmed.restAt h hcut)
    refine ⟨fuel + 1, ?_⟩
    cases remaining with
    | nil => exact absurd rfl htrimmed.ne_nil
    | cons c remaining =>
      rw [loop, if_neg (Nat.not_le.mpr h), hfuel]
      · rfl
      · exact cons_ne_nil _ _

end

end CutInto

theorem exists_cutInto (hcut : CutsOff limit cutAt) (htrimmed : Trimmed blank remaining) (gap : List α) :
    ∃ stretches, CutInto blank limit cutAt gap remaining stretches := by
  induction hlength : remaining.length using Nat.strongRecOn generalizing remaining gap with
  | ind n ih =>
    subst hlength
    by_cases hlong : limit < remaining.length
    · obtain ⟨stretches, hstretches⟩ := ih _ (restAt_length_lt hlong hcut) (htrimmed.restAt hlong hcut)
        (gapAt blank cutAt remaining) rfl
      exact ⟨_, .cut gap hlong hstretches⟩
    · exact ⟨_, .last gap htrimmed.ne_nil (Nat.not_lt.mp hlong)⟩

theorem loop_fuel_mono {fuel' : Nat} (hle : fuel ≤ fuel') (h : loop blank limit cutAt fuel remaining = some pieces) :
    loop blank limit cutAt fuel' remaining = some pieces := by
  induction fuel generalizing fuel' remaining pieces with
  | zero =>
    cases remaining with
    | nil =>
      rw [← h]
      cases fuel' with
      | _ => rfl
    | cons c remaining => cases h
  | succ fuel ih =>
    cases remaining with
    | nil =>
      rw [← h]
      cases fuel' with
      | _ => rfl
    | cons c remaining =>
      cases fuel' with
      | zero => omega
      | succ fuel' =>
        rw [loop] at h ⊢
        · split
          next hle' => rwa [if_pos hle'] at h
          next hlong =>
            rw [if_neg hlong] at h
            obtain ⟨later, hlater, hpieces⟩ := Option.map_eq_some_iff.mp h
            rw [ih (Nat.le_of_succ_le_succ hle) hlater, ← hpieces]
            rfl
        · exact cons_ne_nil _ _
        · exact cons_ne_nil _ _

theorem CutInto.of_loop (h : CutInto blank limit cutAt gap remaining stretches) (hcut : CutsOff limit cutAt)
    (htrimmed : Trimmed blank remaining) (hloop : loop blank limit cutAt fuel remaining = some pieces) :
    pieces = stretches.map Stretch.piece := by
  obtain ⟨fuel', hfuel'⟩ := h.loop_eq hcut htrimmed
  have hfirst := loop_fuel_mono (Nat.le_max_left fuel fuel') hloop
  have hsecond := loop_fuel_mono (Nat.le_max_right fuel fuel') hfuel'
  exact Option.some.inj (hfirst.symm.trans hsecond)

theorem loop_of_cutAt_zero (htrimmed : Trimmed blank remaining) (hlong : limit < remaining.length)
    (hzero : cutAt remaining = 0) : loop blank limit cutAt fuel remaining = none := by
  have hrest : restAt blank cutAt remaining = remaining := by
    rw [restAt, hzero, drop_zero]
    cases remaining with
    | nil => rfl
    | cons c remaining =>
      have hc := htrimmed.head c rfl
      exact dropWhile_cons_of_neg (by simp [hc])
  induction fuel with
  | zero =>
    cases remaining with
    | nil => exact absurd rfl htrimmed.ne_nil
    | cons c remaining => rfl
  | succ fuel ih =>
    rw [loop, if_neg (Nat.not_le.mpr hlong), hrest, ih]
    · rfl
    · exact htrimmed.ne_nil

theorem trimmed_trim (h : (text.dropWhile blank).rdropWhile blank ≠ []) :
    Trimmed blank ((text.dropWhile blank).rdropWhile blank) := by
  obtain ⟨blanks, hblanks⟩ := List.rdropWhile_prefix blank (text.dropWhile blank)
  refine ⟨h, fun c hc => ?_, fun c hc => ?_⟩
  · have hhead := List.head?_dropWhile_not blank text
    rw [← hblanks, List.head?_append_of_ne_nil _ h, hc] at hhead
    exact hhead
  · have hlast := rdropWhile_last_not blank _ h
    rw [List.getLast?_eq_some_getLast h] at hc
    cases hc
    exact Bool.eq_false_iff.mpr hlast

variable {piece piece' after after' : List α}

theorem blanks_unique {blanks blanks' : List α} (hblanks : ∀ c ∈ blanks, blank c = true)
    (hblanks' : ∀ c ∈ blanks', blank c = true) (h : Trimmed blank piece)
    (h' : Trimmed blank piece') (heq : blanks ++ (piece ++ after) = blanks' ++ (piece' ++ after')) :
    blanks = blanks' ∧ piece ++ after = piece' ++ after' := by
  have htake : ∀ {blanks piece after : List α}, (∀ c ∈ blanks, blank c = true) → Trimmed blank piece →
      (blanks ++ (piece ++ after)).takeWhile blank = blanks := by
    intro blanks piece after hblanks h
    cases piece with
    | nil => exact absurd rfl h.ne_nil
    | cons c piece =>
      have hc := h.head c rfl
      rw [takeWhile_append_of_pos hblanks, cons_append, takeWhile_cons_of_neg (by simp [hc]),
        append_nil]
  have hfirst : blanks = blanks' := by rw [← htake hblanks h, heq, htake hblanks' h']
  rw [hfirst, append_cancel_left_eq] at heq
  exact ⟨hfirst, heq⟩

theorem beginnings_unique (h' : Trimmed blank piece')
    (hfilter : piece.filter (!blank ·) = piece'.filter (!blank ·)) (hle : piece.length ≤ piece'.length)
    (heq : piece ++ after = piece' ++ after') : piece = piece' := by
  have hprefix : piece <+: piece' :=
    prefix_of_prefix_length_le (heq ▸ prefix_append piece after) (prefix_append piece' after') hle
  obtain ⟨rest, rfl⟩ := hprefix
  rw [filter_append, self_eq_append_right, filter_eq_nil_iff] at hfilter
  by_cases hrest : rest = []
  · rw [hrest, append_nil]
  · have hlast := h'.last (rest.getLast hrest)
      (by rw [List.getLast?_append_of_ne_nil _ hrest, List.getLast?_eq_some_getLast hrest]; rfl)
    exact absurd (by simp [hlast]) (hfilter _ (getLast_mem hrest))

end

end Cuts

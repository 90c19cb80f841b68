import Mathlib.Data.Finset.Card

namespace Tickets

/-- Debts that are paid with numbered tickets: there are as many tickets as debts, and up to any number no more tickets
than debts. -/
structure Covers (tickets debts : Finset Nat) : Prop where
  card_eq : tickets.card = debts.card
  card_le : ∀ bound, (tickets.filter (· ≤ bound)).card ≤ (debts.filter (· ≤ bound)).card

variable {tickets debts : Finset Nat}

theorem covers_empty : Covers ∅ ∅ where
  card_eq := rfl
  card_le _ := le_rfl

section

variable (h : Covers tickets debts)
include h

theorem Covers.incur {n : Nat} (hticket : n ∉ tickets) (hdebt : n ∉ debts) :
    Covers (insert n tickets) (insert n debts) := by
  refine ⟨?_, ?_⟩
  · rw [Finset.card_insert_of_notMem hticket, Finset.card_insert_of_notMem hdebt, h.card_eq]
  · intro bound
    have hle := h.card_le bound
    rw [Finset.filter_insert, Finset.filter_insert]
    by_cases hn : n ≤ bound
    · rw [if_pos hn, if_pos hn]
      rw [Finset.card_insert_of_notMem fun hmem => hticket (Finset.mem_filter.mp hmem).1,
        Finset.card_insert_of_notMem fun hmem => hdebt (Finset.mem_filter.mp hmem).1]
      omega
    · rw [if_neg hn, if_neg hn]
      exact hle

/-- Any debt may be paid, but always with the first ticket. -/
theorem Covers.pay {ticket debt : Nat} (hticket : ticket ∈ tickets)
    (hfirst : ∀ other ∈ tickets, ticket ≤ other) (hdebt : debt ∈ debts) :
    Covers (tickets.erase ticket) (debts.erase debt) := by
  refine ⟨?_, ?_⟩
  · rw [Finset.card_erase_of_mem hticket, Finset.card_erase_of_mem hdebt, h.card_eq]
  · intro bound
    have hle := h.card_le bound
    rw [Finset.filter_erase, Finset.filter_erase]
    by_cases hbound : ticket ≤ bound
    · have hmem : ticket ∈ tickets.filter (· ≤ bound) := Finset.mem_filter.mpr ⟨hticket, hbound⟩
      have hpred := Finset.pred_card_le_card_erase (s := debts.filter (· ≤ bound)) (a := debt)
      rw [Finset.card_erase_of_mem hmem]
      omega
    · have hnone : tickets.filter (· ≤ bound) = ∅ := by
        rw [Finset.filter_eq_empty_iff]
        intro other hother hle
        have hfirst := hfirst other hother
        omega
      rw [hnone]
      exact Nat.zero_le _

theorem Covers.nonempty {debt : Nat} (hdebt : debt ∈ debts) : tickets.Nonempty := by
  have hpos : 0 < debts.card := Finset.card_pos.mpr ⟨debt, hdebt⟩
  rw [← h.card_eq] at hpos
  exact Finset.card_pos.mp hpos

theorem Covers.eq_empty (hdebts : debts = ∅) : tickets = ∅ := by
  have hcard := h.card_eq
  rw [hdebts, Finset.card_empty] at hcard
  exact Finset.card_eq_zero.mp hcard

theorem Covers.notMem_of_lt {n : Nat} (hdebts : ∀ debt ∈ debts, n < debt) : n ∉ tickets := by
  intro hticket
  have hle := h.card_le n
  have hpos : 0 < (tickets.filter (· ≤ n)).card :=
    Finset.card_pos.mpr ⟨n, Finset.mem_filter.mpr ⟨hticket, le_rfl⟩⟩
  have hnone : debts.filter (· ≤ n) = ∅ := by
    rw [Finset.filter_eq_empty_iff]
    intro debt hdebt hle
    have hlt := hdebts debt hdebt
    omega
  rw [hnone, Finset.card_empty] at hle
  omega

end

end Tickets

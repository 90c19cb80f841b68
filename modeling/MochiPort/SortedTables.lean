import Mathlib.Data.List.Sort
import MochiPort.Tables

/-! The entries of a table in the order of their keys. -/

namespace Table

variable {K V : Type*} [LinearOrder K] {m n : Table K V}

def sorted (m : Table K V) : List (Sigma fun _ : K => V) := m.entries.insertionSort fun a b => a.1 ≤ b.1

theorem sorted_perm (m : Table K V) : m.sorted.Perm m.entries := List.perm_insertionSort _ _

theorem mem_sorted {entry : Sigma fun _ : K => V} : entry ∈ m.sorted ↔ m.lookup entry.1 = some entry.2 := by
  rw [m.sorted_perm.mem_iff]
  exact lookup_eq_some_iff.symm

theorem sorted_nodup (m : Table K V) : (m.sorted.map Sigma.fst).Nodup :=
  (m.sorted_perm.map Sigma.fst).nodup_iff.mpr m.nodupKeys

theorem sorted_increasing (m : Table K V) : m.sorted.Pairwise fun a b => a.1 < b.1 := by
  have hsorted : m.sorted.Pairwise fun a b => a.1 ≤ b.1 := List.pairwise_insertionSort _ m.entries
  have hdistinct : m.sorted.Pairwise fun a b => a.1 ≠ b.1 := List.pairwise_map.mp m.sorted_nodup
  exact hsorted.imp₂ (fun _ _ hle hne => lt_of_le_of_ne hle hne) hdistinct

theorem sorted_congr (h : ∀ k, m.lookup k = n.lookup k) : m.sorted = n.sorted := by
  have hnodup : ∀ l : Table K V, l.sorted.Nodup := fun l => List.Nodup.of_map Sigma.fst l.sorted_nodup
  have hperm : m.sorted.Perm n.sorted := by
    refine (List.perm_ext_iff_of_nodup (hnodup m) (hnodup n)).mpr fun entry => ?_
    rw [mem_sorted, mem_sorted, h]
  refine hperm.eq_of_pairwise (fun a b _ _ hab hba => ?_) m.sorted_increasing n.sorted_increasing
  exact absurd hab (not_lt_of_gt hba)

end Table

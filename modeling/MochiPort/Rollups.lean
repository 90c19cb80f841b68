import Mathlib.Data.List.Induction
import Mathlib.Order.Basic
import MochiPort.Tables

/-! Amounts that are added up under their keys. -/

namespace Rollups

variable {K A : Type*} [DecidableEq K]

def under (key : K) (items : List (K × A)) : List A :=
  items.filterMap fun item => if item.1 = key then some item.2 else none

section

variable (add : A → A → A) (zero : A)

def put (groups : Table K (A × Nat)) (item : K × A) : Table K (A × Nat) :=
  let group := (groups.lookup item.1).getD (zero, 0)
  groups.insert item.1 (add group.1 item.2, group.2 + 1)

/-- The total of each key, and how many amounts make it up. -/
def rollUp (items : List (K × A)) : Table K (A × Nat) := items.foldl (put add zero) ∅

end

variable {add : A → A → A} {zero : A} {key : K} {items items' : List (K × A)}

theorem under_append : under key (items ++ items') = under key items ++ under key items' := List.filterMap_append

theorem under_singleton {item : K × A} : under key [item] = if item.1 = key then [item.2] else [] := by
  by_cases hkey : item.1 = key
  · simp [under, hkey]
  · simp [under, hkey]

theorem under_flatMap {B : Type*} {f : B → List (K × A)} {bs : List B} :
    under key (bs.flatMap f) = bs.flatMap fun b => under key (f b) := List.filterMap_flatMap

theorem under_entries (key : K) (m : Table K A) : under key (m.entries.map fun e => (e.1, e.2)) = (m.lookup key).toList := by
  have hunder : ∀ entries : List (Sigma fun _ : K => A), entries.NodupKeys →
      under key (entries.map fun e => (e.1, e.2)) = (entries.dlookup key).toList := by
    intro entries hnodup
    induction entries with
    | nil => rfl
    | cons e entries ih =>
      obtain ⟨k, a⟩ := e
      have hrest := ih (List.nodupKeys_cons.mp hnodup).2
      have hhead : under key (((⟨k, a⟩ : Sigma fun _ : K => A) :: entries).map fun e => (e.1, e.2)) =
          under key [(k, a)] ++ under key (entries.map fun e => (e.1, e.2)) := by
        rw [List.map_cons, ← List.singleton_append, under_append]
      rw [hhead, hrest, under_singleton]
      by_cases hk : k = key
      · subst hk
        have hnone : entries.dlookup k = none := List.dlookup_eq_none.mpr (List.nodupKeys_cons.mp hnodup).1
        simp [hnone]
      · have hlookup : (⟨k, a⟩ :: entries : List (Sigma fun _ : K => A)).dlookup key = entries.dlookup key :=
          List.dlookup_cons_ne entries ⟨k, a⟩ (Ne.symm hk)
        simp [hk, hlookup]
  exact hunder m.entries m.nodupKeys

theorem rollUp_append_singleton {item : K × A} :
    rollUp add zero (items ++ [item]) = put add zero (rollUp add zero items) item := List.foldl_append

theorem lookup_rollUp (items : List (K × A)) (key : K) :
    (rollUp add zero items).lookup key =
      if under key items = [] then none else some ((under key items).foldl add zero, (under key items).length) := by
  induction items using List.reverseRecOn with
  | nil => rfl
  | append_singleton items item ih =>
    rw [rollUp_append_singleton, put, Table.lookup_insert_eq, under_append, under_singleton]
    by_cases hkey : item.1 = key
    · subst hkey
      rw [if_pos rfl, if_pos rfl, ih]
      by_cases hnone : under item.1 items = []
      · simp [hnone]
      · simp [hnone, List.foldl_append]
    · rw [if_neg (Ne.symm hkey), if_neg hkey, List.append_nil, ih]

theorem mem_rollUp {total : A} {count : Nat} :
    (⟨key, total, count⟩ : Sigma fun _ : K => A × Nat) ∈ (rollUp add zero items).entries ↔
      under key items ≠ [] ∧ total = (under key items).foldl add zero ∧ count = (under key items).length := by
  rw [← Table.lookup_eq_some_iff, lookup_rollUp]
  by_cases hnone : under key items = []
  · simp [hnone]
  · simp [hnone, eq_comm]

/-- More amounts never make a smaller total, as long as adding neither lowers it nor swaps two of them. -/
theorem foldl_le_of_sublist [Preorder A] (hgrows : ∀ a b, a ≤ add a b) (hmono : ∀ a b c, a ≤ b → add a c ≤ add b c)
    {xs ys : List A} (h : xs.Sublist ys) {a b : A} (hab : a ≤ b) : xs.foldl add a ≤ ys.foldl add b := by
  induction h generalizing a b with
  | slnil => exact hab
  | cons y h ih =>
    have hskip : a ≤ add b y := hab.trans (hgrows b y)
    exact ih hskip
  | cons_cons x h ih =>
    have hboth : add a x ≤ add b x := hmono a b x hab
    exact ih hboth

end Rollups

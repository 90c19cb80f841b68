import Mathlib.Data.List.Nodup
import Mathlib.Data.List.TakeDrop

/-- The keys that were recorded last: a set of them, and their order with the oldest first. -/
structure RecentKeys (κ : Type*) where
  keys : List κ
  order : List κ

namespace RecentKeys

open List

variable {κ : Type*} [DecidableEq κ]

def empty : RecentKeys κ := ⟨[], []⟩

/-- Forgets the oldest keys until `limit` of them are left. -/
def forgetOldest (limit : Nat) (keys : List κ) : List κ → RecentKeys κ
  | [] => ⟨keys, []⟩
  | oldest :: rest =>
    if limit < (oldest :: rest).length then forgetOldest limit (keys.filter (· ≠ oldest)) rest
    else ⟨keys, oldest :: rest⟩

/-- Records a key that is not recorded yet. -/
def remember (limit : Nat) (r : RecentKeys κ) (key : κ) : RecentKeys κ :=
  if key ∈ r.keys then r else forgetOldest limit (key :: r.keys) (r.order ++ [key])

/-- The record of a log, newest first, of which `limit` entries are kept. -/
structure Follows (limit : Nat) (r : RecentKeys κ) (log : List κ) : Prop where
  order : r.order = (log.take limit).reverse
  nodup : r.order.Nodup
  mem : ∀ key, key ∈ r.keys ↔ key ∈ r.order

theorem forgetOldest_of_le {limit : Nat} {keys order : List κ} (h : order.length ≤ limit) :
    forgetOldest limit keys order = ⟨keys, order⟩ := by
  cases order with
  | nil => rfl
  | cons oldest rest => rw [forgetOldest, if_neg (by omega)]

namespace Follows

variable {limit : Nat} {r : RecentKeys κ} {log : List κ}

omit [DecidableEq κ] in
theorem empty : Follows limit (.empty : RecentKeys κ) [] where
  order := by simp [RecentKeys.empty]
  nodup := nodup_nil
  mem _ := Iff.rfl

omit [DecidableEq κ] in
theorem mem_iff (h : Follows limit r log) (key : κ) : key ∈ r.keys ↔ key ∈ log.take limit := by
  rw [h.mem, h.order, mem_reverse]

omit [DecidableEq κ] in
theorem length_eq (h : Follows limit r log) : r.order.length = min limit log.length := by
  rw [h.order, length_reverse, length_take]

variable {key : κ}

omit [DecidableEq κ] in
theorem push_nodup (h : Follows limit r log) (hkey : key ∉ r.keys) : (r.order ++ [key]).Nodup := by
  refine nodup_append.mpr ⟨h.nodup, nodup_singleton key, ?_⟩
  intro a ha b hb hab
  rw [mem_singleton] at hb
  subst hb hab
  exact hkey ((h.mem a).mpr ha)

omit [DecidableEq κ] in
theorem mem_push (h : Follows limit r log) (key k : κ) : k ∈ key :: r.keys ↔ k ∈ r.order ++ [key] := by
  rw [mem_cons, h.mem, mem_append, mem_singleton, or_comm]

theorem remember_of_room (h : Follows limit r log) (hkey : key ∉ r.keys) (hroom : log.length < limit) :
    Follows limit (r.remember limit key) (key :: log) := by
  have hlen : (r.order ++ [key]).length ≤ limit := by
    rw [length_append, h.length_eq, length_singleton]
    omega
  rw [remember, if_neg hkey, forgetOldest_of_le hlen]
  refine ⟨?_, h.push_nodup hkey, h.mem_push key⟩
  rw [h.order, take_of_length_le (by omega), take_of_length_le (by simp; omega), reverse_cons]

theorem remember_of_full (h : Follows limit r log) (hkey : key ∉ r.keys) (hfull : limit ≤ log.length) :
    Follows limit (r.remember limit key) (key :: log) := by
  have horder : r.order ++ [key] = ((key :: log).take (limit + 1)).reverse := by
    rw [h.order, take_succ_cons, reverse_cons]
  have hlen : (r.order ++ [key]).length = limit + 1 := by
    rw [length_append, h.length_eq, length_singleton]
    omega
  have hnodup := h.push_nodup hkey
  have hmem := h.mem_push key
  rw [remember, if_neg hkey]
  cases hpush : r.order ++ [key] with
  | nil =>
    rw [hpush] at hlen
    cases hlen
  | cons oldest rest =>
    rw [hpush] at horder hlen hnodup hmem
    have hrest : rest.length = limit := by simpa using hlen
    rw [forgetOldest, if_pos (by omega), forgetOldest_of_le (by omega)]
    refine ⟨?_, (nodup_cons.mp hnodup).2, ?_⟩
    · have htail := congrArg (List.drop 1) horder
      rw [drop_one, tail_cons, drop_reverse, take_take] at htail
      rw [length_take, length_cons, show min (min (limit + 1) (log.length + 1) - 1) (limit + 1) = limit by
        omega] at htail
      exact htail
    · intro k
      rw [mem_filter, hmem, mem_cons]
      constructor
      · rintro ⟨hk, hne⟩
        exact hk.resolve_left (of_decide_eq_true hne)
      · intro hk
        refine ⟨.inr hk, decide_eq_true ?_⟩
        rintro rfl
        exact (nodup_cons.mp hnodup).1 hk

/-- Recording a key that is not recorded puts it in front of the log. -/
theorem remember (h : Follows limit r log) (hkey : key ∉ r.keys) :
    Follows limit (r.remember limit key) (key :: log) := by
  obtain hroom | hfull := Nat.lt_or_ge log.length limit
  · exact h.remember_of_room hkey hroom
  · exact h.remember_of_full hkey hfull

end Follows

end RecentKeys

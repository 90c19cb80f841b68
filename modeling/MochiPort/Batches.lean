import Mathlib.Data.List.Sort

/-! Two kinds of items in one order, where neighbours of one kind make a batch. -/

namespace Batches

open List

variable {α β : Type*}

inductive Batch (α β : Type*) where
  | left (items : List α)
  | right (items : List β)
  deriving DecidableEq

namespace Batch

def items : Batch α β → List (α ⊕ β)
  | left as => as.map .inl
  | right bs => bs.map .inr

def lefts : Batch α β → List α
  | left as => as
  | right _ => []

def rights : Batch α β → List β
  | left _ => []
  | right bs => bs

def isRight : Batch α β → Bool
  | left _ => false
  | right _ => true

end Batch

/-- An item joins the last batch if that is of its kind, and begins a new one otherwise. -/
def push (batches : List (Batch α β)) (item : α ⊕ β) : List (Batch α β) :=
  match item, batches.getLast? with
  | .inl a, some (.left as) => batches.dropLast ++ [.left (as ++ [a])]
  | .inl a, _ => batches ++ [.left [a]]
  | .inr b, some (.right bs) => batches.dropLast ++ [.right (bs ++ [b])]
  | .inr b, _ => batches ++ [.right [b]]

def batch (items : List (α ⊕ β)) : List (Batch α β) := items.foldl push []

section

variable (batches : List (Batch α β))

theorem flatMap_push (item : α ⊕ β) :
    (push batches item).flatMap Batch.items = batches.flatMap Batch.items ++ [item] := by
  have hjoin : ∀ last, batches.getLast? = some last →
      batches.flatMap Batch.items = batches.dropLast.flatMap Batch.items ++ last.items := by
    intro last hlast
    have hsplit := dropLast_append_getLast? last hlast
    rw [← append_nil last.items, ← flatMap_nil, ← flatMap_cons, ← flatMap_append, hsplit]
  cases item with
  | inl a =>
    cases hlast : batches.getLast? with
    | none => simp [push, hlast, Batch.items]
    | some last =>
      cases last with
      | left as => simp [push, hlast, hjoin _ hlast, Batch.items]
      | right bs => simp [push, hlast, Batch.items]
  | inr b =>
    cases hlast : batches.getLast? with
    | none => simp [push, hlast, Batch.items]
    | some last =>
      cases last with
      | left as => simp [push, hlast, Batch.items]
      | right bs => simp [push, hlast, hjoin _ hlast, Batch.items]

theorem flatMap_batch (items : List (α ⊕ β)) : (batch items).flatMap Batch.items = items := by
  have hfold : ∀ batches : List (Batch α β),
      (items.foldl push batches).flatMap Batch.items = batches.flatMap Batch.items ++ items := by
    induction items with
    | nil => exact fun batches => (append_nil _).symm
    | cons item items ih =>
      intro batches
      rw [foldl_cons, ih, flatMap_push, append_assoc]
      rfl
  exact hfold []

theorem inl_mem_flatMap {batches : List (Batch α β)} {a : α} :
    .inl a ∈ batches.flatMap Batch.items ↔ a ∈ batches.flatMap Batch.lefts := by
  simp only [mem_flatMap]
  have hitems : ∀ batch : Batch α β, .inl a ∈ batch.items ↔ a ∈ batch.lefts := by
    intro batch
    cases batch with
    | left as | right bs => simp [Batch.items, Batch.lefts]
  simp only [hitems]

theorem flatMap_lefts : batches.flatMap Batch.lefts = (batches.flatMap Batch.items).filterMap Sum.getLeft? := by
  induction batches with
  | nil => rfl
  | cons batch batches ih =>
    rw [flatMap_cons, flatMap_cons, filterMap_append, ih]
    cases batch with
    | left as | right bs => simp [Batch.items, Batch.lefts, Function.comp_def]

theorem flatMap_rights : batches.flatMap Batch.rights = (batches.flatMap Batch.items).filterMap Sum.getRight? := by
  induction batches with
  | nil => rfl
  | cons batch batches ih =>
    rw [flatMap_cons, flatMap_cons, filterMap_append, ih]
    cases batch with
    | left as | right bs => simp [Batch.items, Batch.rights, Function.comp_def]

end

/-- In items that come in the order of their keys, a batch of the second kind lies between the items of the first
kind whose keys enclose its own. -/
theorem right_between {key : α ⊕ β → Nat} {items : List (α ⊕ β)} (hsorted : items.Pairwise fun x y => key x < key y)
    {before after : List (Batch α β)} {bs : List β} (hsplit : batch items = before ++ .right bs :: after)
    {b : β} (hb : b ∈ bs) {a : α} (ha : .inl a ∈ items) :
    (key (.inl a) < key (.inr b) ↔ a ∈ before.flatMap Batch.lefts) ∧
      (key (.inr b) < key (.inl a) ↔ a ∈ after.flatMap Batch.lefts) := by
  have hitems : items = before.flatMap Batch.items ++ (bs.map .inr ++ after.flatMap Batch.items) := by
    rw [← flatMap_batch items, hsplit, flatMap_append, flatMap_cons]
    rfl
  have hmem : (.inr b : α ⊕ β) ∈ bs.map .inr := mem_map_of_mem hb
  rw [hitems, pairwise_append, pairwise_append] at hsorted
  obtain ⟨-, ⟨-, -, hafter⟩, hbefore⟩ := hsorted
  have hlow : ∀ a, .inl a ∈ before.flatMap Batch.items → key (.inl a) < key (.inr b) := by
    intro a ha
    exact hbefore _ ha _ (mem_append_left _ hmem)
  have hhigh : ∀ a, .inl a ∈ after.flatMap Batch.items → key (.inr b) < key (.inl a) := by
    intro a ha
    exact hafter _ hmem _ ha
  have hcases : .inl a ∈ before.flatMap Batch.items ∨ .inl a ∈ after.flatMap Batch.items := by
    rw [hitems, mem_append, mem_append] at ha
    rcases ha with ha | ha | ha
    · exact .inl ha
    · obtain ⟨c, -, hc⟩ := mem_map.mp ha
      cases hc
    · exact .inr ha
  rw [← inl_mem_flatMap, ← inl_mem_flatMap]
  constructor
  · constructor
    · intro hlt
      refine hcases.resolve_right fun ha => ?_
      have hgt := hhigh a ha
      omega
    · exact hlow a
  · constructor
    · intro hgt
      refine hcases.resolve_left fun ha => ?_
      have hlt := hlow a ha
      omega
    · exact hhigh a

theorem pairwise_insertionSort_key (key : α → Nat) (items : List α) :
    (items.insertionSort fun a b => key a ≤ key b).Pairwise fun a b => key a ≤ key b := by
  exact pairwise_insertionSort _ items

end Batches

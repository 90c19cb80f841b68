import Mathlib.Data.List.Basic

/-! Streams that are polled, and what they have yielded when they end. -/

/-- What a stream answers to a poll; an answer without an item is its end. -/
inductive Polled (α : Type*) where
  | pending
  | ready (item : Option α)

namespace Polled

variable {σ α : Type*} {poll : σ → Polled α × σ} {s t : σ} {items others : List α}

/-- Polled until its end, the stream yields the items. -/
inductive Yields (poll : σ → Polled α × σ) : σ → List α → Prop
  | ended {s t : σ} (h : poll s = (.ready none, t)) : Yields poll s []
  | pending {s t : σ} {items : List α} (h : poll s = (.pending, t)) (rest : Yields poll t items) : Yields poll s items
  | item {s t : σ} {a : α} {items : List α} (h : poll s = (.ready (some a), t)) (rest : Yields poll t items) :
    Yields poll s (a :: items)

theorem Yields.unique (h : Yields poll s items) (h' : Yields poll s others) : items = others := by
  induction h generalizing others with
  | ended hp =>
    cases h' with
    | ended => rfl
    | pending hq | item hq => rw [hp] at hq; cases hq
  | pending hp _ ih =>
    cases h' with
    | ended hq | item hq => rw [hp] at hq; cases hq
    | pending hq rest =>
      rw [hp] at hq
      cases hq
      exact ih rest
  | item hp _ ih =>
    cases h' with
    | ended hq | pending hq => rw [hp] at hq; cases hq
    | item hq rest =>
      rw [hp] at hq
      cases hq
      rw [ih rest]

/-- What a poll does in a state that still owes the items: it hands out the first of them, it waits for less than
before, or it ends the stream when none is left. -/
inductive Keeps (owes : σ → List α → Prop) (left : σ → Nat) (s : σ) (items : List α) : Polled α × σ → Prop
  | ended {t : σ} (h : items = []) : Keeps owes left s items (.ready none, t)
  | pending {t : σ} (h : owes t items) (hless : left t < left s) : Keeps owes left s items (.pending, t)
  | item {t : σ} {a : α} {rest : List α} (hitems : items = a :: rest) (h : owes t rest) (hle : left t ≤ left s) :
    Keeps owes left s items (.ready (some a), t)

theorem Keeps.mono {owes : σ → List α → Prop} {left : σ → Nat} {answer : Polled α × σ}
    (h : Keeps owes left t items answer) (hle : left t ≤ left s) : Keeps owes left s items answer := by
  cases h with
  | ended hnil => exact .ended hnil
  | pending howes hless => exact .pending howes (Nat.lt_of_lt_of_le hless hle)
  | item hitems howes hless => exact .item hitems howes (Nat.le_trans hless hle)

theorem yields_of_keeps (owes : σ → List α → Prop) (left : σ → Nat)
    (keeps : ∀ s items, owes s items → Keeps owes left s items (poll s)) (h : owes s items) : Yields poll s items := by
  induction hn : left s + items.length using Nat.strongRecOn generalizing s items with
  | ind n ih =>
    have hkeeps := keeps s items h
    generalize hp : poll s = answer at hkeeps
    cases hkeeps with
    | ended hnil =>
      rw [hnil]
      exact .ended hp
    | pending howes hless => exact .pending hp (ih _ (by omega) howes rfl)
    | item hitems howes hle =>
      have hlength := congrArg List.length hitems
      rw [List.length_cons] at hlength
      rw [hitems]
      exact .item hp (ih _ (by omega) howes rfl)

end Polled

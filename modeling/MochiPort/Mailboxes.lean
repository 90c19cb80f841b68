import Mathlib.Logic.Function.Basic

/-- First-in first-out boxes over the keys `K`: what waits in each box, what was ever accepted into it,
and what left it with which fate, oldest first. -/
@[ext] structure Mailboxes (K M F : Type*) where
  waiting : K → List M
  accepted : K → List M
  settled : K → List (M × F)

namespace Mailboxes

variable {K M F : Type*} [DecidableEq K] {b c : Mailboxes K M F}

def post (b : Mailboxes K M F) (k : K) (m : M) : Mailboxes K M F where
  waiting := Function.update b.waiting k (b.waiting k ++ [m])
  accepted := Function.update b.accepted k (b.accepted k ++ [m])
  settled := b.settled

def take (b : Mailboxes K M F) (k : K) (fate : F) : Mailboxes K M F where
  waiting := Function.update b.waiting k (b.waiting k).tail
  accepted := b.accepted
  settled := Function.update b.settled k (b.settled k ++ (b.waiting k).head?.toList.map fun m => (m, fate))

def discard (b : Mailboxes K M F) (k : K) (fate : F) : Mailboxes K M F where
  waiting := Function.update b.waiting k []
  accepted := b.accepted
  settled := Function.update b.settled k (b.settled k ++ (b.waiting k).map fun m => (m, fate))

inductive Step : Mailboxes K M F → Mailboxes K M F → Prop
  | same (b : Mailboxes K M F) : Step b b
  | post (b : Mailboxes K M F) (k : K) (m : M) : Step b (b.post k m)
  | take (b : Mailboxes K M F) (k : K) (fate : F) : Step b (b.take k fate)
  | discard (b : Mailboxes K M F) (k : K) (fate : F) : Step b (b.discard k fate)

/-- Each accepted message has left or waits, in the order of acceptance. -/
def Accounted (b : Mailboxes K M F) : Prop :=
  ∀ k, b.accepted k = (b.settled k).map Prod.fst ++ b.waiting k

section

variable (hb : b.Accounted)
include hb

theorem Accounted.post (k : K) (m : M) : (b.post k m).Accounted := by
  intro j
  by_cases hj : j = k
  · subst hj
    simp only [Mailboxes.post, Function.update_self]
    rw [hb j, List.append_assoc]
  · simp only [Mailboxes.post, Function.update_of_ne hj]
    exact hb j

theorem Accounted.take (k : K) (fate : F) : (b.take k fate).Accounted := by
  intro j
  by_cases hj : j = k
  · subst hj
    have hsplit : (b.waiting j).head?.toList ++ (b.waiting j).tail = b.waiting j := by
      cases b.waiting j with
      | nil | cons m rest => rfl
    simp only [Mailboxes.take, Function.update_self, List.map_append, List.map_map, Function.comp_def,
      List.map_id']
    rw [List.append_assoc, hsplit]
    exact hb j
  · simp only [Mailboxes.take, Function.update_of_ne hj]
    exact hb j

theorem Accounted.discard (k : K) (fate : F) : (b.discard k fate).Accounted := by
  intro j
  by_cases hj : j = k
  · subst hj
    simp only [Mailboxes.discard, Function.update_self, List.map_append, List.map_map, Function.comp_def,
      List.map_id', List.append_nil]
    exact hb j
  · simp only [Mailboxes.discard, Function.update_of_ne hj]
    exact hb j

theorem Accounted.step (h : Step b c) : c.Accounted := by
  cases h with
  | same => exact hb
  | post k m => exact hb.post k m
  | take k fate => exact hb.take k fate
  | discard k fate => exact hb.discard k fate

end

theorem filter_append_of_key {A : Type*} (key : A → K) (log : List A) {added : List A} {k : K}
    (h : ∀ a ∈ added, key a = k) :
    (fun j => (log ++ added).filter fun a => key a = j) =
      Function.update (fun j => log.filter fun a => key a = j) k ((log.filter fun a => key a = k) ++ added) := by
  funext j
  by_cases hj : j = k
  · subst hj
    have hadded : (added.filter fun a => key a = j) = added := by
      apply List.filter_eq_self.mpr
      intro a ha
      simp [h a ha]
    rw [Function.update_self, List.filter_append, hadded]
  · have hadded : (added.filter fun a => key a = j) = [] := by
      apply List.filter_eq_nil_iff.mpr
      intro a ha heq
      exact hj ((of_decide_eq_true heq).symm.trans (h a ha))
    rw [Function.update_of_ne hj, List.filter_append, hadded, List.append_nil]

end Mailboxes

import MochiPort.Runs
import MochiPort.Tables
import Mathlib.Data.List.Perm.Basic

namespace ItemLedger

open List

/-- What an event says about the items of a stream: an item is added, its text grows, it is named while it is
open, or it is done. Where `whole` is given, it is the text that the item is said to have. -/
inductive Act (I : Type*) where
  | added (index : Nat) (id : I) (exclusive : Bool)
  | delta (index : Nat) (id : I) (piece : String)
  | mention (index : Nat) (id : I) (whole : Option String)
  | done (index : Nat) (id : I) (whole : Option String)
  | other

structure OpenItem (I : Type*) where
  id : I
  exclusive : Bool
  text : String

structure State (I : Type*) where
  nextIndex : Nat
  opened : Table Nat (OpenItem I)

variable {I : Type*}

def start : State I := ⟨0, ∅⟩

def OpenItem.agrees (item : OpenItem I) (whole : Option String) : Bool := whole.all (· = item.text)

namespace State

variable [DecidableEq I]

/-- The open item that an event names by its index and its id. -/
def named (l : State I) (index : Nat) (id : I) : Option (OpenItem I) :=
  (l.opened.lookup index).filter (·.id = id)

def hasExclusive (l : State I) : Bool := l.opened.entries.any (·.2.exclusive)

end State

/-- Reads an event, unless it breaks the rules: items are numbered in the order in which they are added, an
exclusive one is added while no exclusive one is open, and every other event names an item that is open. -/
def step [DecidableEq I] (l : State I) : Act I → Option (State I)
  | .added index id exclusive =>
    if index = l.nextIndex && !(exclusive && l.hasExclusive) then
      some ⟨l.nextIndex + 1, l.opened.insert index ⟨id, exclusive, ""⟩⟩
    else none
  | .delta index id piece =>
    (l.named index id).map fun item =>
      { l with opened := l.opened.insert index { item with text := item.text ++ piece } }
  | .mention index id whole => ((l.named index id).filter (·.agrees whole)).map fun _ => l
  | .done index id whole =>
    ((l.named index id).filter (·.agrees whole)).map fun _ => { l with opened := l.opened.erase index }
  | .other => some l

section

variable {l m : State I} {index : Nat} {item : OpenItem I}

theorem hasExclusive_eq_false (h : ∀ i item, l.opened.lookup i = some item → item.exclusive = false) :
    l.hasExclusive = false := by
  refine any_eq_false.mpr ?_
  intro e he
  rw [h e.1 e.2 (Table.lookup_eq_some_iff.mpr he)]
  decide

def Act.addedIndex : Act I → Option Nat
  | .added index _ _ => some index
  | _ => none

def Act.doneIndex : Act I → Option Nat
  | .done index _ _ => some index
  | _ => none

/-- Where the items of the events read so far have gone. -/
structure Accounted (acts : List (Act I)) (l : State I) : Prop where
  added : acts.filterMap Act.addedIndex = List.range l.nextIndex
  settled : (acts.filterMap Act.doneIndex ++ l.opened.keys).Perm (List.range l.nextIndex)
  alone : ∀ i j a b, l.opened.lookup i = some a → l.opened.lookup j = some b → a.exclusive = true →
    b.exclusive = true → i = j

theorem accounted_start : Accounted [] (start : State I) := by
  refine ⟨rfl, .refl _, ?_⟩
  intro i j a b ha
  cases ha

variable {acts : List (Act I)}

theorem Accounted.lt (ha : Accounted acts l) (h : l.opened.lookup index = some item) : index < l.nextIndex := by
  have hmem : index ∈ l.opened.keys := AList.mem_keys.mp (AList.lookup_isSome.mp (by rw [h]; rfl))
  exact mem_range.mp (ha.settled.subset (mem_append_right _ hmem))

theorem filterMap_concat {α β : Type*} (f : α → Option β) (as : List α) (a : α) :
    (as ++ [a]).filterMap f = as.filterMap f ++ (f a).toList := by
  cases hf : f a with
  | none | some b => simp [hf]

variable [DecidableEq I]

theorem step_added (id : I) {exclusive : Bool}
    (h : exclusive = true → ∀ i item, l.opened.lookup i = some item → item.exclusive = false) :
    step l (.added l.nextIndex id exclusive) =
      some ⟨l.nextIndex + 1, l.opened.insert l.nextIndex ⟨id, exclusive, ""⟩⟩ := by
  have hfree : (exclusive && l.hasExclusive) = false := by
    cases exclusive with
    | false => rfl
    | true => exact hasExclusive_eq_false (h rfl)
  simp [step, hfree]

section

variable (h : l.opened.lookup index = some item)
include h

theorem named_eq : l.named index item.id = some item := by
  simp [State.named, h]

theorem step_delta (piece : String) :
    step l (.delta index item.id piece) =
      some { l with opened := l.opened.insert index { item with text := item.text ++ piece } } := by
  simp [step, named_eq h]

theorem step_mention {whole : Option String}
    (hwhole : item.agrees whole = true) : step l (.mention index item.id whole) = some l := by
  simp [step, named_eq h, hwhole]

theorem step_done {whole : Option String} (hwhole : item.agrees whole = true) :
    step l (.done index item.id whole) = some { l with opened := l.opened.erase index } := by
  simp [step, named_eq h, hwhole]

end

theorem named_eq_some {id : I} (h : l.named index id = some item) :
    l.opened.lookup index = some item ∧ item.id = id := by
  obtain ⟨hlookup, hid⟩ := Option.filter_eq_some_iff.mp h
  exact ⟨hlookup, of_decide_eq_true hid⟩

theorem Accounted.step {act : Act I} (ha : Accounted acts l) (h : ItemLedger.step l act = some m) :
    Accounted (acts ++ [act]) m := by
  cases act with
  | added index id exclusive =>
    rw [ItemLedger.step] at h
    split at h
    next hrules =>
      cases Option.some.inj h
      obtain ⟨hindex, hfree⟩ := (Bool.and_eq_true ..).mp hrules
      have hindex : index = l.nextIndex := of_decide_eq_true hindex
      subst hindex
      have hnew : l.nextIndex ∉ l.opened.keys := by
        intro hmem
        exact absurd (mem_range.mp (ha.settled.subset (mem_append_right _ hmem))) (Nat.lt_irrefl _)
      refine ⟨?_, ?_, ?_⟩
      · rw [filterMap_concat, ha.added, range_succ]
        rfl
      · rw [filterMap_concat, AList.keys_insert, erase_of_not_mem hnew, range_succ]
        have hmove : (acts.filterMap Act.doneIndex ++ l.nextIndex :: l.opened.keys).Perm
            (l.nextIndex :: (acts.filterMap Act.doneIndex ++ l.opened.keys)) := perm_middle
        simpa [Act.doneIndex] using
          hmove.trans ((ha.settled.cons l.nextIndex).trans (perm_append_singleton _ _).symm)
      · intro i j a b hi hj hea heb
        have hnone : ∀ k c, l.opened.lookup k = some c → exclusive = true → c.exclusive = false := by
          intro k c hk hexclusive
          simp only [hexclusive, Bool.true_and, Bool.not_eq_true', State.hasExclusive, any_eq_false] at hfree
          exact eq_false_of_ne_true (hfree _ (Table.lookup_eq_some_iff.mp hk))
        rcases Table.of_lookup_insert hi with ⟨hik, rfl⟩ | ⟨_, hi⟩
        · rcases Table.of_lookup_insert hj with ⟨hjk, _⟩ | ⟨_, hj⟩
          · exact hik.trans hjk.symm
          · exact absurd heb (by simp [hnone j b hj hea])
        · rcases Table.of_lookup_insert hj with ⟨_, rfl⟩ | ⟨_, hj⟩
          · exact absurd hea (by simp [hnone i a hi heb])
          · exact ha.alone i j a b hi hj hea heb
    next => cases h
  | delta index id piece =>
    obtain ⟨item, hitem, rfl⟩ := Option.map_eq_some_iff.mp h
    obtain ⟨hlookup, -⟩ := named_eq_some hitem
    have hmem : index ∈ l.opened.keys := AList.mem_keys.mp (AList.lookup_isSome.mp (by rw [hlookup]; rfl))
    refine ⟨?_, ?_, ?_⟩
    · rw [filterMap_concat]
      simpa [Act.addedIndex] using ha.added
    · rw [filterMap_concat, AList.keys_insert]
      have hkeys : (index :: l.opened.keys.erase index).Perm l.opened.keys := (perm_cons_erase hmem).symm
      simpa [Act.doneIndex] using (hkeys.append_left _).trans ha.settled
    · intro i j a b hi hj hea heb
      have hold : ∀ k c, (l.opened.insert index { item with text := item.text ++ piece }).lookup k = some c →
          c.exclusive = true → ∃ d, l.opened.lookup k = some d ∧ d.exclusive = true := by
        intro k c hk hc
        rcases Table.of_lookup_insert hk with ⟨rfl, rfl⟩ | ⟨_, hk⟩
        · exact ⟨item, hlookup, hc⟩
        · exact ⟨c, hk, hc⟩
      obtain ⟨a', hi', hea'⟩ := hold i a hi hea
      obtain ⟨b', hj', heb'⟩ := hold j b hj heb
      exact ha.alone i j a' b' hi' hj' hea' heb'
  | mention index id whole =>
    obtain ⟨item, hitem, rfl⟩ := Option.map_eq_some_iff.mp h
    refine ⟨?_, ?_, ha.alone⟩
    · rw [filterMap_concat]
      simpa [Act.addedIndex] using ha.added
    · rw [filterMap_concat]
      simpa [Act.doneIndex] using ha.settled
  | done index id whole =>
    obtain ⟨item, hitem, rfl⟩ := Option.map_eq_some_iff.mp h
    obtain ⟨hlookup, -⟩ := named_eq_some (Option.filter_eq_some_iff.mp hitem).1
    have hmem : index ∈ l.opened.keys := AList.mem_keys.mp (AList.lookup_isSome.mp (by rw [hlookup]; rfl))
    refine ⟨?_, ?_, ?_⟩
    · rw [filterMap_concat]
      simpa [Act.addedIndex] using ha.added
    · rw [filterMap_concat, AList.keys_erase, append_assoc]
      have hkeys : ([index] ++ l.opened.keys.erase index).Perm l.opened.keys := (perm_cons_erase hmem).symm
      exact (hkeys.append_left _).trans ha.settled
    · intro i j a b hi hj
      exact ha.alone i j a b (Table.of_lookup_erase hi).2 (Table.of_lookup_erase hj).2
  | other =>
    cases Option.some.inj h
    refine ⟨?_, ?_, ha.alone⟩
    · rw [filterMap_concat]
      simpa [Act.addedIndex] using ha.added
    · rw [filterMap_concat]
      simpa [Act.doneIndex] using ha.settled

theorem Accounted.run {acts rest : List (Act I)} (ha : Accounted acts l)
    (h : Runs.run ItemLedger.step l rest = some m) : Accounted (acts ++ rest) m := by
  induction rest generalizing acts l with
  | nil =>
    cases Option.some.inj h
    rwa [append_nil]
  | cons act rest ih =>
    obtain ⟨next, hnext, h⟩ := Runs.run_cons_eq_some.mp h
    have hrest := ih (ha.step hnext) h
    rwa [append_assoc] at hrest

theorem accounted_of_run (h : Runs.run step start acts = some l) : Accounted acts l :=
  accounted_start.run h

theorem done_perm_added_iff (h : Runs.run step start acts = some l) :
    (acts.filterMap Act.doneIndex).Perm (acts.filterMap Act.addedIndex) ↔ l.opened = ∅ := by
  have ha := accounted_of_run h
  rw [ha.added]
  constructor
  · intro hdone
    have hlength := (hdone.trans ha.settled.symm).length_eq
    rw [length_append] at hlength
    have hkeys : l.opened.keys = [] := eq_nil_of_length_eq_zero (by omega)
    have hentries : l.opened.entries = [] := map_eq_nil_iff.mp hkeys
    exact AList.ext hentries
  · intro hopened
    have hsettled := ha.settled
    rw [hopened] at hsettled
    simpa using hsettled

end

end ItemLedger

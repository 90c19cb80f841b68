import Mathlib.Data.List.Count
import Mathlib.Data.List.Sublists

/-!
Answers that are claimed for questions: for each key in turn the first answer that has the key and is not claimed yet.
-/

namespace AnswerClaims

open List

variable {α K : Type*} [DecidableEq K]

/-- The first entry that fits and is not claimed, and the flags with it claimed. -/
def claim (fits : α → Bool) : List α → List Bool → Option (α × List Bool)
  | x :: xs, flag :: flags =>
    if !flag && fits x then some (x, true :: flags)
    else (claim fits xs flags).map fun found => (found.1, flag :: found.2)
  | [], _ => none
  | _ :: _, [] => none

/-- Claims an answer for each key that still has one; the keys come with their answers. -/
def claimAll (fits : K → α → Bool) : List K → List α → List Bool → List (K × α) × List Bool
  | [], _, flags => ([], flags)
  | k :: ks, xs, flags =>
    match claim (fits k) xs flags with
    | some (x, flags) => ((k, x) :: (claimAll fits ks xs flags).1, (claimAll fits ks xs flags).2)
    | none => claimAll fits ks xs flags

def unclaimed : List α → List Bool → List α
  | x :: xs, flag :: flags => if flag then unclaimed xs flags else x :: unclaimed xs flags
  | [], _ => []
  | _ :: _, [] => []

def flagsOf (key : α → Option K) (k : K) : List α → List Bool → List Bool
  | x :: xs, flag :: flags => if key x = some k then flag :: flagsOf key k xs flags else flagsOf key k xs flags
  | [], _ => []
  | _ :: _, [] => []

def ClaimedFirst (flags : List Bool) : Prop := flags.Pairwise fun a b => a = false → b = false

theorem claimedFirst_replicate (m : Nat) : ClaimedFirst (List.replicate m false) :=
  pairwise_replicate.mpr (.inr fun _ => rfl)

theorem ClaimedFirst.count_true {flags : List Bool} (h : ClaimedFirst (false :: flags)) : flags.count true = 0 := by
  refine count_eq_zero.mpr ?_
  intro hmem
  have hfalse := (pairwise_cons.mp h).1 true hmem rfl
  cases hfalse

theorem ClaimedFirst.set {before after : List Bool} (hbefore : false ∉ before)
    (h : ClaimedFirst (before ++ false :: after)) : ClaimedFirst (before ++ true :: after) := by
  obtain ⟨_, hafter, _⟩ := pairwise_append.mp h
  refine pairwise_append.mpr ⟨?_, pairwise_cons.mpr ⟨?_, (pairwise_cons.mp hafter).2⟩, ?_⟩
  · exact List.Pairwise.imp_of_mem (fun ha _ _ hfalse => absurd (hfalse ▸ ha) hbefore) (pairwise_append.mp h).1
  · exact fun _ _ hfalse => nomatch hfalse
  · exact fun a ha _ _ hfalse => absurd (hfalse ▸ ha) hbefore

section

variable {key : α → Option K} {xs : List α} {flags flags' : List Bool} {k : K} {x : α}

/-- What is left of the claims: only answers are claimed, for each key the first ones. -/
structure Sound (key : α → Option K) (xs : List α) (flags : List Bool) : Prop where
  length : flags.length = xs.length
  first : ∀ k, ClaimedFirst (flagsOf key k xs flags)
  answers : ∀ p ∈ xs.zip flags, p.2 = true → ∃ k, key p.1 = some k

theorem flagsOf_replicate (key : α → Option K) (k : K) (xs : List α) :
    flagsOf key k xs (List.replicate xs.length false) = List.replicate (xs.countP fun x => key x = some k) false := by
  induction xs with
  | nil => rfl
  | cons x xs ih =>
    rw [length_cons, replicate_succ, flagsOf, ih]
    by_cases h : key x = some k
    · rw [if_pos h, countP_cons_of_pos (by simpa using h), replicate_succ]
    · rw [if_neg h, countP_cons_of_neg (by simpa using h)]

theorem sound_replicate (key : α → Option K) (xs : List α) : Sound key xs (List.replicate xs.length false) := by
  refine ⟨length_replicate, fun k => ?_, ?_⟩
  · rw [flagsOf_replicate]
    exact claimedFirst_replicate _
  · intro p hp hclaimed
    have hflag := eq_of_mem_replicate (of_mem_zip hp).2
    rw [hflag] at hclaimed
    cases hclaimed

theorem unclaimed_replicate (xs : List α) : unclaimed xs (List.replicate xs.length false) = xs := by
  induction xs with
  | nil => rfl
  | cons x xs ih =>
    rw [length_cons, replicate_succ, unclaimed, ih]
    rfl

theorem unclaimed_sublist (xs : List α) (flags : List Bool) : (unclaimed xs flags).Sublist xs := by
  induction xs generalizing flags with
  | nil => exact List.Sublist.refl []
  | cons x xs ih =>
    cases flags with
    | nil => exact nil_sublist _
    | cons flag flags =>
      cases flag with
      | true => exact (ih flags).cons x
      | false => exact (ih flags).cons_cons x

theorem count_flagsOf (h : flags.length = xs.length) :
    (flagsOf key k xs flags).count true + (flagsOf key k xs flags).count false =
      xs.countP fun x => key x = some k := by
  induction xs generalizing flags with
  | nil => rfl
  | cons x xs ih =>
    obtain ⟨flag, flags, rfl⟩ := exists_cons_of_length_eq_add_one h
    have hrest := ih (Nat.succ.inj h)
    by_cases hx : key x = some k
    · rw [flagsOf, if_pos hx, countP_cons_of_pos (by simpa using hx)]
      cases flag with
      | true | false =>
        rw [count_cons_self, count_cons_of_ne (by decide)]
        omega
    · rw [flagsOf, if_neg hx, countP_cons_of_neg (by simpa using hx)]
      exact hrest

theorem claim_eq_some (h : claim (fun x => decide (key x = some k)) xs flags = some (x, flags')) :
    key x = some k ∧ flags'.length = flags.length ∧ (unclaimed xs flags).Perm (x :: unclaimed xs flags') ∧
      (∃ before after, false ∉ before ∧ flagsOf key k xs flags = before ++ false :: after ∧
        flagsOf key k xs flags' = before ++ true :: after) ∧
      (∀ j, j ≠ k → flagsOf key j xs flags' = flagsOf key j xs flags) ∧
      ∀ p ∈ xs.zip flags', p.2 = true → p ∈ xs.zip flags ∨ key p.1 = some k := by
  induction xs generalizing flags flags' with
  | nil => cases h
  | cons y ys ih =>
    cases flags with
    | nil => cases h
    | cons flag flags =>
      rw [claim] at h
      split at h
      next hfits =>
        obtain ⟨hflag, hkey⟩ := (Bool.and_eq_true ..).mp hfits
        have hkey : key y = some k := of_decide_eq_true hkey
        have hflag : flag = false := (Bool.not_eq_true' flag).mp hflag
        obtain ⟨rfl, rfl⟩ := Prod.mk.inj (Option.some.inj h)
        subst hflag
        refine ⟨hkey, rfl, List.Perm.refl _, ⟨[], flagsOf key k ys flags, not_mem_nil, ?_, ?_⟩, ?_, ?_⟩
        · rw [flagsOf, if_pos hkey]
          rfl
        · rw [flagsOf, if_pos hkey]
          rfl
        · intro j hj
          have hne : ¬ key y = some j := fun heq => hj (Option.some.inj (heq.symm.trans hkey))
          rw [flagsOf, flagsOf, if_neg hne, if_neg hne]
        · intro p hp _
          rcases mem_cons.mp hp with rfl | hp
          · exact .inr hkey
          · exact .inl (mem_cons_of_mem _ hp)
      next hfits =>
        obtain ⟨⟨z, found⟩, hfound, heq⟩ := Option.map_eq_some_iff.mp h
        obtain ⟨rfl, rfl⟩ := Prod.mk.inj heq
        obtain ⟨hkey, hlength, hperm, ⟨before, after, hbefore, hflags, hflags'⟩, hothers, hclaimed⟩ := ih hfound
        refine ⟨hkey, congrArg Nat.succ hlength, ?_, ?_, ?_, ?_⟩
        · cases flag with
          | true => exact hperm
          | false => exact (hperm.cons y).trans (.swap z y _)
        · by_cases hy : key y = some k
          · have hflag : flag = true := by
              cases flag with
              | true => rfl
              | false => exact absurd (by simp [hy]) hfits
            refine ⟨flag :: before, after, ?_, ?_, ?_⟩
            · rw [hflag]
              exact fun hmem => (mem_cons.mp hmem).elim (fun h => nomatch h) hbefore
            · rw [flagsOf, if_pos hy, hflags]
              rfl
            · rw [flagsOf, if_pos hy, hflags']
              rfl
          · refine ⟨before, after, hbefore, ?_, ?_⟩
            · rw [flagsOf, if_neg hy, hflags]
            · rw [flagsOf, if_neg hy, hflags']
        · intro j hj
          rw [flagsOf, flagsOf, hothers j hj]
        · intro p hp htrue
          rcases mem_cons.mp hp with rfl | hp
          · exact .inl mem_cons_self
          · exact (hclaimed p hp htrue).imp (mem_cons_of_mem _) id

theorem claim_eq_none (hlength : flags.length = xs.length)
    (h : claim (fun x => decide (key x = some k)) xs flags = none) : (flagsOf key k xs flags).count false = 0 := by
  induction xs generalizing flags with
  | nil => rfl
  | cons y ys ih =>
    obtain ⟨flag, flags, rfl⟩ := exists_cons_of_length_eq_add_one hlength
    rw [claim] at h
    split at h
    next => cases h
    next hfits =>
      have hrest := ih (Nat.succ.inj hlength) (Option.map_eq_none_iff.mp h)
      rw [flagsOf]
      split
      next hy =>
        cases flag with
        | true => rwa [count_cons_of_ne (by decide)]
        | false => exact absurd (by simp [hy]) hfits
      next => exact hrest

theorem Sound.claim (hs : Sound key xs flags)
    (h : AnswerClaims.claim (fun x => decide (key x = some k)) xs flags = some (x, flags')) : Sound key xs flags' := by
  obtain ⟨_, hlength, _, ⟨before, after, hbefore, hflags, hflags'⟩, hothers, hclaimed⟩ := claim_eq_some h
  refine ⟨hlength.trans hs.length, fun j => ?_, ?_⟩
  · by_cases hj : j = k
    · have hfirst := hs.first k
      rw [hflags] at hfirst
      rw [hj, hflags']
      exact hfirst.set hbefore
    · rw [hothers j hj]
      exact hs.first j
  · intro p hp htrue
    rcases hclaimed p hp htrue with hp | hkey
    · exact hs.answers p hp htrue
    · exact ⟨k, hkey⟩

theorem Sound.tail {flag : Bool} (hs : Sound key (x :: xs) (flag :: flags)) : Sound key xs flags := by
  refine ⟨Nat.succ.inj hs.length, fun k => ?_, fun p hp => hs.answers p (mem_cons_of_mem _ hp)⟩
  have hfirst := hs.first k
  rw [flagsOf] at hfirst
  split at hfirst
  next => exact (pairwise_cons.mp hfirst).2
  next => exact hfirst

structure Claimed (key : α → Option K) (ks : List K) (xs : List α) (flags flags' : List Bool)
    (found : List (K × α)) : Prop where
  sound : Sound key xs flags'
  keys : ∀ p ∈ found, key p.2 = some p.1
  sublist : (found.map Prod.fst).Sublist ks
  perm : (unclaimed xs flags).Perm (found.map Prod.snd ++ unclaimed xs flags')
  count : ∀ k, (found.map Prod.fst).count k = min (ks.count k) ((flagsOf key k xs flags).count false)
  taken : ∀ k, (flagsOf key k xs flags').count true =
    (flagsOf key k xs flags).count true + (found.map Prod.fst).count k

theorem Sound.claimAll (hs : Sound key xs flags) (ks : List K) :
    Claimed key ks xs flags (AnswerClaims.claimAll (fun k x => decide (key x = some k)) ks xs flags).2
      (AnswerClaims.claimAll (fun k x => decide (key x = some k)) ks xs flags).1 := by
  induction ks generalizing flags with
  | nil =>
    refine ⟨hs, fun p hp => absurd hp not_mem_nil, List.Sublist.refl [], List.Perm.refl _, fun k => ?_, fun k => rfl⟩
    exact (Nat.zero_min _).symm
  | cons k ks ih =>
    rw [AnswerClaims.claimAll]
    cases hclaim : AnswerClaims.claim (fun x => decide (key x = some k)) xs flags with
    | none =>
      have hnone := claim_eq_none hs.length hclaim
      have hrest := ih hs
      refine ⟨hrest.sound, hrest.keys, hrest.sublist.cons k, hrest.perm, fun j => ?_, hrest.taken⟩
      rw [hrest.count]
      by_cases hj : j = k
      · rw [hj, hnone]
        omega
      · rw [count_cons_of_ne (Ne.symm hj)]
    | some claimed =>
      obtain ⟨x, next⟩ := claimed
      obtain ⟨hkey, _, hperm, ⟨before, after, hbefore, hflags, hflags'⟩, hothers, _⟩ := claim_eq_some hclaim
      have hrest := ih (hs.claim hclaim)
      refine ⟨hrest.sound, ?_, hrest.sublist.cons_cons k, ?_, fun j => ?_, fun j => ?_⟩
      · intro p hp
        rcases mem_cons.mp hp with rfl | hp
        · exact hkey
        · exact hrest.keys p hp
      · exact hperm.trans (hrest.perm.cons x)
      · rw [map_cons]
        by_cases hj : j = k
        · have hcount := hrest.count k
          rw [hflags', count_append, count_cons_of_ne (by decide)] at hcount
          rw [hj, count_cons_self, count_cons_self, hcount, hflags, count_append, count_cons_self]
          omega
        · rw [count_cons_of_ne (Ne.symm hj), count_cons_of_ne (Ne.symm hj), hrest.count, hothers j hj]
      · rw [map_cons, hrest.taken]
        by_cases hj : j = k
        · rw [hj, count_cons_self, hflags, hflags', count_append, count_append, count_cons_self,
            count_cons_of_ne (by decide)]
          omega
        · rw [count_cons_of_ne (Ne.symm hj), hothers j hj]

end

/-- What remains of the questions when only those with an answer are kept: the answered ones, if none was asked
more often than it was answered. -/
theorem filter_mem_eq_iff {ks found : List K} (h : found.Sublist ks) :
    ks.filter (fun k => decide (k ∈ found)) = found ↔ ∀ k ∈ found, ks.count k ≤ found.count k := by
  have hsub : found.Sublist (ks.filter fun k => decide (k ∈ found)) := by
    have hfilter := h.filter fun k => decide (k ∈ found)
    rwa [filter_eq_self.mpr fun k hk => decide_eq_true hk] at hfilter
  have hkept : ∀ k ∈ found, (ks.filter fun k => decide (k ∈ found)).count k = ks.count k := fun k hk =>
    count_filter (by simpa using hk)
  constructor
  · intro heq k hk
    rw [← hkept k hk, heq]
  · intro hle
    have hperm : found.Perm (ks.filter fun k => decide (k ∈ found)) := by
      refine perm_iff_count.mpr ?_
      intro k
      by_cases hk : k ∈ found
      · rw [hkept k hk]
        exact Nat.le_antisymm (h.count_le k) (hle k hk)
      · rw [count_eq_zero.mpr hk, count_eq_zero.mpr]
        exact fun hmem => hk (of_decide_eq_true (mem_filter.mp hmem).2)
    exact (hsub.eq_of_length hperm.length_eq).symm

inductive Entry (K : Type*) where
  | turn (ids : List K)
  | answer (id : K)
  deriving DecidableEq

/-- Each turn has an answer left for all of its questions with the key, or for none; `owed` answers went to earlier
turns. -/
def Answered (k : K) : Nat → List (Entry K) → Prop
  | _, [] => True
  | owed, .answer id :: entries => if id = k then Answered k (owed - 1) entries else Answered k owed entries
  | owed, .turn ids :: entries =>
    let free := entries.count (.answer k) - owed
    (free = 0 ∨ ids.count k ≤ free) ∧ Answered k (owed + min (ids.count k) free) entries

end AnswerClaims

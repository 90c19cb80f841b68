import Mathlib.Data.List.DropRight
import Mathlib.Data.List.GetD
import Mathlib.Data.List.Infix

namespace RustText

open List

/-- The code points with the Unicode property `White_Space`. -/
def isWhitespace (c : Char) : Bool :=
  (9 ≤ c.toNat && c.toNat ≤ 13) || c.toNat == 0x20 || c.toNat == 0x85 || c.toNat == 0xa0 ||
    c.toNat == 0x1680 || (0x2000 ≤ c.toNat && c.toNat ≤ 0x200a) || c.toNat == 0x2028 ||
    c.toNat == 0x2029 || c.toNat == 0x202f || c.toNat == 0x205f || c.toNat == 0x3000

def trim (s : String) : String :=
  String.ofList ((s.toList.dropWhile isWhitespace).reverse.dropWhile isWhitespace).reverse

@[simp] theorem trim_trim (s : String) : trim (trim s) = trim s := by
  let d := s.toList.dropWhile isWhitespace
  let r := (d.reverse.dropWhile isWhitespace).reverse
  have hr : r.dropWhile isWhitespace = r := by
    have hprefix : r <+: d := by
      have hsuffix := List.dropWhile_suffix isWhitespace (l := d.reverse)
      have hreverse := reverse_prefix.mpr hsuffix
      rwa [reverse_reverse] at hreverse
    cases h : r with
    | nil => rfl
    | cons c rest =>
      obtain ⟨tail, htail⟩ := hprefix
      have hd : s.toList.dropWhile isWhitespace = c :: (rest ++ tail) := by
        rw [← cons_append, ← h]
        exact htail.symm
      have hc := head_dropWhile_not isWhitespace (l := s.toList) (by simp [hd])
      simp only [hd, head_cons] at hc
      exact dropWhile_cons_of_neg (by simp [hc])
  have hlast : (r.reverse.dropWhile isWhitespace).reverse = r := by
    simp only [r, reverse_reverse]
    rw [dropWhile_idempotent]
  rw [trim, trim, String.toList_ofList]
  rw [hr, hlast]

def toAsciiLowercase (s : String) : String :=
  String.ofList (s.toList.map Char.toLower)

def eqIgnoreAsciiCase (s t : String) : Bool := toAsciiLowercase s = toAsciiLowercase t

def contains (s pattern : String) : Bool :=
  pattern.toList <:+: s.toList

def splitOnceList (pattern : List Char) : List Char → Option (List Char × List Char)
  | [] => if pattern.isPrefixOf [] then some ([], []) else none
  | c :: rest =>
    if pattern.isPrefixOf (c :: rest) then some ([], (c :: rest).drop pattern.length)
    else (splitOnceList pattern rest).map fun (before, after) => (c :: before, after)

/-- What stands before and after the first occurrence of the pattern. -/
def splitOnce (s pattern : String) : Option (String × String) :=
  (splitOnceList pattern.toList s.toList).map fun (before, after) =>
    (String.ofList before, String.ofList after)

variable {c : Char}

theorem splitOnceList_append {before : List Char} (after : List Char) (h : c ∉ before) :
    splitOnceList [c] (before ++ c :: after) = some (before, after) := by
  induction before with
  | nil => simp [splitOnceList, List.isPrefixOf]
  | cons head rest ih =>
    obtain ⟨hne, hrest⟩ := not_or.mp (mt mem_cons.mpr h)
    simp [splitOnceList, List.isPrefixOf, ih hrest, hne]

theorem splitOnceList_isSome {l : List Char} (h : c ∈ l) : (splitOnceList [c] l).isSome := by
  obtain ⟨before, after, rfl, hc⟩ := eq_append_cons_of_mem h
  rw [splitOnceList_append _ hc]
  rfl

theorem splitOnce_append {before after pattern : String} (hp : pattern.toList = [c]) (h : c ∉ before.toList) :
    splitOnce (before ++ pattern ++ after) pattern = some (before, after) := by
  simp [splitOnce, hp, splitOnceList_append _ h]

theorem splitOnce_isSome {s pattern : String} (hp : pattern.toList = [c]) (h : c ∈ s.toList) :
    (splitOnce s pattern).isSome := by
  rw [splitOnce, hp, Option.isSome_map]
  exact splitOnceList_isSome h

/-- A positive `i64` in decimal. -/
def parsePositiveI64 (s : String) : Option Nat :=
  let digits := match s.toList with
    | '+' :: rest => rest
    | all => all
  if digits ≠ [] && digits.all Char.isDigit then
    let value := digits.foldl (fun n c => 10 * n + (c.toNat - 48)) 0
    if 0 < value && value < 0x8000000000000000 then some value else none
  else none

def hexDigit (d : Nat) : Char :=
  "0123456789abcdef".toList.getD d '0'

/-- The sixteen lower-case digits of `{hash:016x}`. -/
def hex16 (hash : UInt64) : String :=
  String.ofList ((List.range 16).map fun i => hexDigit ((hash.toNat >>> (4 * (15 - i))) % 16))

theorem toString_injective {m n : Nat} (h : toString m = toString n) : m = n := by
  have hdigits := congrArg (fun s => Nat.ofDigitChars 10 s.toList 0) h
  simpa using hdigits

def Free (c : Char) (s : String) : Prop := c ∉ s.toList

instance (c : Char) (s : String) : Decidable (Free c s) :=
  inferInstanceAs (Decidable (c ∉ s.toList))

theorem free_append {s t : String} : Free c (s ++ t) ↔ Free c s ∧ Free c t := by
  simp [Free, String.toList_append]

theorem hexDigit_mem (d : Nat) : hexDigit d ∈ "0123456789abcdef".toList := by
  unfold hexDigit
  by_cases hd : d < "0123456789abcdef".toList.length
  · rw [getD_eq_getElem _ _ hd]
    exact getElem_mem hd
  · rw [getD_eq_default _ _ (by omega)]
    decide

theorem split_unique {α : Type*} {x : α} {l l' r r' : List α} (hl : x ∉ l) (hr : x ∉ r)
    (h : l ++ x :: r = l' ++ x :: r') : l = l' ∧ r = r' := by
  induction l generalizing l' with
  | nil =>
    cases l' with
    | nil => exact ⟨rfl, (List.cons.inj h).2⟩
    | cons y ys =>
      obtain ⟨-, htail⟩ := List.cons.inj h
      exact absurd (htail ▸ mem_append_right ys (mem_cons_self ..)) hr
  | cons z zs ih =>
    cases l' with
    | nil => exact absurd (List.cons.inj h).1 (fun he => hl (he ▸ mem_cons_self ..))
    | cons y ys =>
      obtain ⟨hhead, htail⟩ := List.cons.inj h
      obtain ⟨h₁, h₂⟩ := ih (fun hm => hl (mem_cons_of_mem z hm)) htail
      exact ⟨by rw [hhead, h₁], h₂⟩

theorem last_split_unique {α : Type*} [DecidableEq α] {x : α} {l l' r r' : List α} (hr : x ∉ r) (hr' : x ∉ r')
    (h : l ++ x :: r = l' ++ x :: r') : r = r' := by
  have hread : ∀ {a b : List α}, x ∉ b → (a ++ x :: b).reverse.takeWhile (· ≠ x) = b.reverse := by
    intro a b hb
    have hall : ∀ y ∈ b.reverse, decide (y ≠ x) = true := by
      intro y hy
      exact decide_eq_true (fun he => hb (he ▸ mem_reverse.mp hy))
    rw [reverse_append, reverse_cons, append_assoc, takeWhile_append_of_pos hall]
    simp
  have hrev := congrArg (fun m => m.reverse.takeWhile (· ≠ x)) h
  simp only [hread hr, hread hr'] at hrev
  exact reverse_injective hrev

end RustText

namespace MochiPort

/-- The longest prefix of whole characters that fits in `limit` bytes of UTF-8. -/
def takeBytes (limit : Nat) : List Char → List Char
  | [] => []
  | c :: cs => if c.utf8Size ≤ limit then c :: takeBytes (limit - c.utf8Size) cs else []

end MochiPort

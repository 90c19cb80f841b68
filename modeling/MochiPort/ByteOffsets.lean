import Mathlib.Algebra.GroupWithZero.Nat
import Mathlib.Data.List.Basic

/-! The byte positions of a text. A text can be split only where a character begins or at its end. -/

namespace ByteOffsets

def byteLength (chars : List Char) : Nat := (chars.map Char.utf8Size).sum

/-- What is before a byte position and what is behind it. -/
def splitAt : Nat → List Char → Option (List Char × List Char)
  | 0, chars => some ([], chars)
  | _ + 1, [] => none
  | n + 1, char :: chars =>
    if char.utf8Size ≤ n + 1 then
      (splitAt (n + 1 - char.utf8Size) chars).map fun (before, after) => (char :: before, after)
    else none

/-- `str::get` of a range. -/
def get (text : String) (start stop : Nat) : Option String := do
  let (before, _) ← splitAt stop text.toList
  let (_, range) ← splitAt start before
  return String.ofList range

/-- `str::get` of a range without an end. -/
def getFrom (text : String) (start : Nat) : Option String :=
  (splitAt start text.toList).map fun (_, after) => String.ofList after

example : get "aéb" 1 3 = some "é" := by decide

example : get "aéb" 1 2 = none := by decide

@[simp] theorem byteLength_nil : byteLength [] = 0 := rfl

@[simp] theorem byteLength_cons (char : Char) (chars : List Char) :
    byteLength (char :: chars) = char.utf8Size + byteLength chars := by
  simp [byteLength]

@[simp] theorem byteLength_append (chars chars' : List Char) :
    byteLength (chars ++ chars') = byteLength chars + byteLength chars' := by
  simp [byteLength]

theorem splitAt_eq_some {n : Nat} {chars before after : List Char} :
    splitAt n chars = some (before, after) ↔ chars = before ++ after ∧ byteLength before = n := by
  induction chars generalizing n before with
  | nil =>
    cases n with
    | zero =>
      simp only [splitAt, Option.some.injEq, Prod.mk.injEq, List.nil_eq_append_iff]
      constructor
      · rintro ⟨rfl, rfl⟩
        simp
      · rintro ⟨⟨rfl, rfl⟩, -⟩
        simp
    | succ n =>
      simp only [splitAt, reduceCtorEq, List.nil_eq_append_iff, false_iff]
      rintro ⟨⟨rfl, -⟩, h⟩
      simp at h
  | cons char chars ih =>
    cases n with
    | zero =>
      constructor
      · intro h
        obtain ⟨rfl, rfl⟩ := Prod.mk.inj (Option.some.inj h)
        simp
      · rintro ⟨h, hzero⟩
        cases before with
        | nil => simp [splitAt, h]
        | cons first before =>
          have hfirst := first.utf8Size_pos
          simp only [byteLength_cons] at hzero
          omega
    | succ n =>
      simp only [splitAt]
      split
      next hfits =>
        constructor
        · intro h
          obtain ⟨⟨rest, after'⟩, hrest, heq⟩ := Option.map_eq_some_iff.mp h
          obtain ⟨rfl, rfl⟩ := Prod.mk.inj heq
          obtain ⟨rfl, hlength⟩ := ih.mp hrest
          simp only [List.cons_append, byteLength_cons, true_and]
          omega
        · rintro ⟨h, hlength⟩
          cases before with
          | nil => simp at hlength
          | cons first before =>
            obtain ⟨rfl, rfl⟩ := List.cons.inj h
            simp only [byteLength_cons] at hlength
            have hrest : splitAt (n + 1 - char.utf8Size) _ = some (before, after) := ih.mpr ⟨rfl, by omega⟩
            rw [hrest]
            rfl
      next hfits =>
        constructor
        · intro h
          cases h
        · rintro ⟨h, hlength⟩
          cases before with
          | nil => simp at hlength
          | cons first before =>
            obtain ⟨rfl, rfl⟩ := List.cons.inj h
            simp only [byteLength_cons] at hlength
            omega

end ByteOffsets

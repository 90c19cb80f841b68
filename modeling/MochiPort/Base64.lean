import Mathlib.Data.List.Basic

namespace Base64

def alphabet : List Char :=
  "ABCDEFGHIJKLMNOPQRSTUVWXYZabcdefghijklmnopqrstuvwxyz0123456789+/".toList

def digit (n : Nat) : Char := alphabet.getD n '='

def value? (c : Char) : Option Nat := alphabet.findIdx? (· == c)

theorem value?_digit : ∀ n, n < 64 → value? (digit n) = some n := by
  decide +kernel

theorem digit_ne_pad : ∀ n, n < 64 → digit n ≠ '=' := by
  decide +kernel

def byte (n : Nat) : UInt8 := UInt8.ofNat n

theorem byte_eq {a : UInt8} {n : Nat} (h : n = a.toNat) : byte n = a := by
  rw [byte, h, UInt8.ofNat_toNat]

/-- Three bytes give four digits; a last group of one or two bytes is padded. -/
def encodeChars : List UInt8 → List Char
  | [] => []
  | [a] => [digit (a.toNat / 4), digit (a.toNat % 4 * 16), '=', '=']
  | [a, b] =>
    [digit (a.toNat / 4), digit (a.toNat % 4 * 16 + b.toNat / 16), digit (b.toNat % 16 * 4), '=']
  | a :: b :: c :: rest =>
    digit (a.toNat / 4) :: digit (a.toNat % 4 * 16 + b.toNat / 16) ::
      digit (b.toNat % 16 * 4 + c.toNat / 64) :: digit (c.toNat % 64) :: encodeChars rest

/-- Padding may close the last group only, and the bits it cuts off must be zero. -/
def decodeChars : List Char → Option (List UInt8)
  | [] => some []
  | p :: q :: r :: s :: rest => do
    let x ← value? p
    let y ← value? q
    if r = '=' then
      if s = '=' ∧ rest = [] ∧ y % 16 = 0 then some [byte (x * 4 + y / 16)] else none
    else
      let z ← value? r
      if s = '=' then
        if rest = [] ∧ z % 4 = 0 then
          some [byte (x * 4 + y / 16), byte (y % 16 * 16 + z / 4)]
        else none
      else
        let w ← value? s
        let bytes ← decodeChars rest
        some (byte (x * 4 + y / 16) :: byte (y % 16 * 16 + z / 4) ::
          byte (z % 4 * 64 + w) :: bytes)
  | _ => none

def encode (bytes : List UInt8) : String := String.ofList (encodeChars bytes)

def decode (s : String) : Option (List UInt8) := decodeChars s.toList

section

variable (bytes : List UInt8)

theorem length_encodeChars : (encodeChars bytes).length = 4 * ((bytes.length + 2) / 3) := by
  fun_induction encodeChars bytes with
  | case1 => rfl
  | case2 a => simp only [List.length_cons, List.length_nil]
  | case3 a b => simp only [List.length_cons, List.length_nil]
  | case4 a b c rest ih =>
    simp only [List.length_cons]
    omega

theorem length_encode : (encode bytes).length = 4 * ((bytes.length + 2) / 3) :=
  String.length_ofList.trans (length_encodeChars bytes)

theorem decodeChars_encodeChars : decodeChars (encodeChars bytes) = some bytes := by
  fun_induction encodeChars bytes with
  | case1 => rfl
  | case2 a =>
    have ha := a.toNat_lt
    simp only [decodeChars, value?_digit (a.toNat / 4) (by omega),
      value?_digit (a.toNat % 4 * 16) (by omega)]
    have hy : a.toNat % 4 * 16 % 16 = 0 := by omega
    simp [hy, byte_eq (a := a) (n := a.toNat / 4 * 4 + a.toNat % 4) (by omega)]
  | case3 a b =>
    have ha := a.toNat_lt
    have hb := b.toNat_lt
    simp only [decodeChars, value?_digit (a.toNat / 4) (by omega),
      value?_digit (a.toNat % 4 * 16 + b.toNat / 16) (by omega),
      value?_digit (b.toNat % 16 * 4) (by omega), if_neg (digit_ne_pad (b.toNat % 16 * 4) (by omega))]
    have hz : b.toNat % 16 * 4 % 4 = 0 := by omega
    have h₁ := byte_eq (a := a) (n := a.toNat / 4 * 4 + (a.toNat % 4 * 16 + b.toNat / 16) / 16) (by omega)
    have h₂ := byte_eq (a := b)
      (n := (a.toNat % 4 * 16 + b.toNat / 16) % 16 * 16 + b.toNat % 16 * 4 / 4) (by omega)
    simp only [Option.bind_eq_bind, Option.bind_some, ↓reduceIte, and_self, hz, h₁, h₂]
  | case4 a b c rest ih =>
    have ha := a.toNat_lt
    have hb := b.toNat_lt
    have hc := c.toNat_lt
    simp only [decodeChars, value?_digit (a.toNat / 4) (by omega),
      value?_digit (a.toNat % 4 * 16 + b.toNat / 16) (by omega),
      value?_digit (b.toNat % 16 * 4 + c.toNat / 64) (by omega), value?_digit (c.toNat % 64) (by omega),
      if_neg (digit_ne_pad (b.toNat % 16 * 4 + c.toNat / 64) (by omega)),
      if_neg (digit_ne_pad (c.toNat % 64) (by omega)), ih]
    have h₁ := byte_eq (a := a) (n := a.toNat / 4 * 4 + (a.toNat % 4 * 16 + b.toNat / 16) / 16) (by omega)
    have h₂ := byte_eq (a := b)
      (n := (a.toNat % 4 * 16 + b.toNat / 16) % 16 * 16 + (b.toNat % 16 * 4 + c.toNat / 64) / 4) (by omega)
    have h₃ := byte_eq (a := c) (n := (b.toNat % 16 * 4 + c.toNat / 64) % 4 * 64 + c.toNat % 64) (by omega)
    simp only [Option.bind_eq_bind, Option.bind_some, h₁, h₂, h₃]

theorem decode_encode : decode (encode bytes) = some bytes := by
  rw [decode, encode, String.toList_ofList, decodeChars_encodeChars]

end

theorem encode_nil : encode [] = "" := rfl

end Base64

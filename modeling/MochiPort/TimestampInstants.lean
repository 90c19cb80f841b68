import Mathlib.Tactic.IntervalCases
import Mathlib.Tactic.Linarith
import Mathlib.Tactic.Ring
import MochiPort.RolloutRecords

namespace Calendar

def IsLeap (year : Nat) : Prop := year % 4 = 0 ∧ (year % 100 ≠ 0 ∨ year % 400 = 0)

instance (year : Nat) : Decidable (IsLeap year) := inferInstanceAs (Decidable (_ ∧ _))

def yearLength (year : Nat) : Nat := if IsLeap year then 366 else 365

/-- The months are counted from one. -/
def monthLength (year : Nat) : Nat → Nat
  | 0 => 0
  | 2 => if IsLeap year then 29 else 28
  | 4 | 6 | 9 | 11 => 30
  | _ => 31

/-- The days of the years before, from the year zero on. -/
def daysBeforeYear : Nat → Nat
  | 0 => 0
  | year + 1 => daysBeforeYear year + yearLength year

def daysBeforeMonth (year : Nat) : Nat → Nat
  | 0 => 0
  | month + 1 => daysBeforeMonth year month + monthLength year month

/-- The number of a day, counted from the first day of the year zero. -/
def dayNumber (year month day : Nat) : Nat := daysBeforeYear year + daysBeforeMonth year month + (day - 1)

example : dayNumber 1970 1 1 = 719528 := by decide +kernel

theorem daysBeforeYear_eq (year : Nat) :
    daysBeforeYear year + (year + 99) / 100 = 365 * year + (year + 3) / 4 + (year + 399) / 400 := by
  induction year with
  | zero => rfl
  | succ year ih =>
    rw [daysBeforeYear, yearLength]
    split
    next hleap =>
      unfold IsLeap at hleap
      omega
    next hleap =>
      unfold IsLeap at hleap
      omega

end Calendar

namespace MochiPort

open ByteOffsets Calendar Option

/-- The years that begin in March, counted by eras of four hundred, up to the end of the given one. -/
theorem eraDays_eq (ended : Nat) {era yearOfEra : Int} (hera : era = ((ended : Int) - 1) / 400)
    (hyear : yearOfEra = ended - 1 - era * 400) :
    era * 146097 + (yearOfEra * 365 + yearOfEra / 4 - yearOfEra / 100) + 366 = daysBeforeYear ended := by
  have hdays := daysBeforeYear_eq ended
  have hended : (ended : Int) = 400 * era + yearOfEra + 1 := by omega
  have hlow : 0 ≤ yearOfEra ∧ yearOfEra < 400 := by omega
  have hfour : ((ended + 3) / 4 : Nat) = 100 * era + yearOfEra / 4 + 1 := by omega
  have hhundred : ((ended + 99) / 100 : Nat) = 4 * era + yearOfEra / 100 + 1 := by omega
  have hfourHundred : ((ended + 399) / 400 : Nat) = era + 1 := by omega
  have hdays' : (daysBeforeYear ended : Int) + ((ended + 99) / 100 : Nat) =
      365 * ended + ((ended + 3) / 4 : Nat) + ((ended + 399) / 400 : Nat) := by exact_mod_cast hdays
  rw [hfour, hhundred, hfourHundred] at hdays'
  omega

theorem dayOfYear_eq {year month : Nat} (hmonth : 1 ≤ month ∧ month ≤ 12) :
    (daysBeforeYear year + daysBeforeMonth year month : Int) + 306 =
      daysBeforeYear (if month ≤ 2 then year else year + 1) +
        (153 * ((month : Int) + if 2 < (month : Int) then -3 else 9) + 2) / 5 := by
  obtain ⟨hfirst, hlast⟩ := hmonth
  by_cases hleap : Calendar.IsLeap year
  · interval_cases month <;>
      simp [daysBeforeMonth, monthLength, daysBeforeYear, yearLength, hleap] <;>
      omega
  · interval_cases month <;>
      simp [daysBeforeMonth, monthLength, daysBeforeYear, yearLength, hleap] <;>
      omega

/-- The algorithm of the source counts the days of the calendar. -/
theorem civilDays_eq {year month day : Nat} (hmonth : 1 ≤ month ∧ month ≤ 12) (hday : 1 ≤ day) :
    civilDays year month day = (dayNumber year month day : Int) - 719528 := by
  have hdayOfYear : (daysBeforeYear year + daysBeforeMonth year month : Int) + 306 = _ :=
    dayOfYear_eq hmonth
  obtain ⟨ended, hended⟩ : ∃ ended, ended = if month ≤ 2 then year else year + 1 := ⟨_, rfl⟩
  have hadjusted : (year : Int) - (if (month : Int) ≤ 2 then 1 else 0) = ended - 1 := by split_ifs at hended ⊢ <;> omega
  have hera : (if 0 ≤ (ended : Int) - 1 then (ended : Int) - 1 else ended - 1 - 399).tdiv 400 = (ended - 1) / 400 := by
    split
    next h => exact Int.tdiv_eq_ediv_of_nonneg h
    next h =>
      obtain rfl : ended = 0 := by omega
      rfl
  have hyear : 0 ≤ (ended : Int) - 1 - (ended - 1) / 400 * 400 := by omega
  have hmarch : 0 ≤ 153 * ((month : Int) + if 2 < (month : Int) then -3 else 9) + 2 := by split <;> omega
  have hdays := eraDays_eq ended rfl rfl
  rw [← hended] at hdayOfYear
  unfold civilDays dayNumber
  dsimp only
  rw [hadjusted, hera, Int.tdiv_eq_ediv_of_nonneg hyear, Int.tdiv_eq_ediv_of_nonneg hyear,
    Int.tdiv_eq_ediv_of_nonneg hmarch]
  push_cast [Nat.cast_sub hday]
  linarith

/-- A timestamp in the form of RFC 3339. The offset counts minutes, `none` is written `Z`. -/
structure Rfc3339 where
  year : Nat
  month : Nat
  day : Nat
  hour : Nat
  minute : Nat
  second : Nat
  fraction : List Char
  offset : Option (Bool × Nat × Nat)
  hyear : year ≤ 9999
  hmonth : 1 ≤ month ∧ month ≤ 12
  hday : 1 ≤ day ∧ day ≤ monthLength year month
  hhour : hour ≤ 23
  hminute : minute ≤ 59
  hsecond : second ≤ 60
  hfraction : fraction.all Char.isDigit = true
  hoffset : ∀ west hours minutes, offset = some (west, hours, minutes) → hours ≤ 23 ∧ minutes ≤ 59

def digit (n : Nat) : Char := Nat.digitChar (n % 10)

def twoDigits (n : Nat) : List Char := [digit (n / 10), digit n]

def fourDigits (n : Nat) : List Char := twoDigits (n / 100) ++ twoDigits n

namespace Rfc3339

variable (t : Rfc3339)

def dateTimeText : List Char :=
  fourDigits t.year ++ '-' :: twoDigits t.month ++ '-' :: twoDigits t.day ++ 'T' :: twoDigits t.hour ++
    ':' :: twoDigits t.minute ++ ':' :: twoDigits t.second

def offsetText : List Char :=
  match t.offset with
  | none => ['Z']
  | some (west, hours, minutes) => (if west then '-' else '+') :: twoDigits hours ++ ':' :: twoDigits minutes

/-- A fraction without digits is not written. -/
def text : String :=
  String.ofList (t.dateTimeText ++ ((if t.fraction = [] then [] else '.' :: t.fraction) ++ t.offsetText))

/-- The seconds by which the local time is ahead. -/
def offsetSeconds : Int :=
  match t.offset with
  | none => 0
  | some (west, hours, minutes) => if west then -(hours * 3600 + minutes * 60) else hours * 3600 + minutes * 60

def localSeconds : Int :=
  ((dayNumber t.year t.month t.day : Int) - 719528) * 86400 + t.hour * 3600 + t.minute * 60 + t.second

/-- The instant of the whole second, in milliseconds since 1970. -/
def instant : Int := (t.localSeconds - t.offsetSeconds) * 1000

end Rfc3339

theorem digit_cases {P : Char → Prop} (h : ∀ n < 10, P (Nat.digitChar n)) (n : Nat) : P (digit n) :=
  h (n % 10) (Nat.mod_lt n (by omega))

@[simp] theorem utf8Size_digit (n : Nat) : (digit n).utf8Size = 1 :=
  digit_cases (P := fun c => c.utf8Size = 1) (by decide) n

@[simp] theorem isDigit_digit (n : Nat) : (digit n).isDigit = true :=
  digit_cases (P := fun c => c.isDigit = true) (by decide) n

@[simp] theorem value_digit (n : Nat) : (digit n).toNat - 48 = n % 10 := by
  have hvalue : ∀ n < 10, (Nat.digitChar n).toNat - 48 = n := by decide
  exact hvalue (n % 10) (Nat.mod_lt n (by omega))

theorem parseI64_digits {digits : List Char} (hne : digits ≠ []) (hdigits : digits.all Char.isDigit = true)
    (hsmall : digitsValue digits ≤ 9999) : parseI64 (String.ofList digits) = some (digitsValue digits : Int) := by
  obtain ⟨c, rest, rfl⟩ := List.exists_cons_of_ne_nil hne
  have hc : c.isDigit = true := List.all_eq_true.mp hdigits c List.mem_cons_self
  have hminus : c ≠ '-' := by
    rintro rfl
    cases hc
  have hplus : c ≠ '+' := by
    rintro rfl
    cases hc
  have hread : areDigits (c :: rest) = true := by simpa [areDigits] using hdigits
  unfold parseI64
  rw [String.toList_ofList]
  split
  next heq =>
    split at heq
    next h => exact absurd (List.cons.inj h).1 hminus
    next h => exact absurd (List.cons.inj h).1 hplus
    next =>
      obtain ⟨rfl, rfl⟩ := Prod.mk.inj heq
      simp [hread]
      omega

theorem parseI64_two {n : Nat} (h : n ≤ 99) : parseI64 (String.ofList (twoDigits n)) = some (n : Int) := by
  have hvalue : digitsValue (twoDigits n) = n := by
    simp [digitsValue, twoDigits]
    omega
  rw [parseI64_digits (by simp [twoDigits]) (by simp [twoDigits]) (by omega), hvalue]

theorem parseI64_four {n : Nat} (h : n ≤ 9999) : parseI64 (String.ofList (fourDigits n)) = some (n : Int) := by
  have hvalue : digitsValue (fourDigits n) = n := by
    simp [digitsValue, fourDigits, twoDigits]
    omega
  rw [parseI64_digits (by simp [fourDigits, twoDigits]) (by simp [fourDigits, twoDigits]) (by omega), hvalue]

theorem byteLength_of_ascii {chars : List Char} (h : ∀ c ∈ chars, c.utf8Size = 1) :
    byteLength chars = chars.length := by
  induction chars with
  | nil => rfl
  | cons c chars ih =>
    have hrest := ih fun c' hc' => h c' (List.mem_cons_of_mem c hc')
    rw [byteLength_cons, h c List.mem_cons_self, hrest, List.length_cons]
    omega

/-- A range within characters of one byte each. -/
theorem get_of_ascii {chars : List Char} (h : ∀ c ∈ chars, c.utf8Size = 1) (rest : List Char) {start stop : Nat}
    (hstart : start ≤ stop) (hstop : stop ≤ chars.length) :
    ByteOffsets.get (String.ofList (chars ++ rest)) start stop =
      some (String.ofList ((chars.take stop).drop start)) := by
  have htake : ∀ c ∈ chars.take stop, c.utf8Size = 1 := fun c hc => h c (List.mem_of_mem_take hc)
  have houter : splitAt stop (chars ++ rest) = some (chars.take stop, chars.drop stop ++ rest) := by
    refine splitAt_eq_some.mpr ⟨by rw [← List.append_assoc, List.take_append_drop], ?_⟩
    rw [byteLength_of_ascii htake, List.length_take, min_eq_left hstop]
  have hinner : splitAt start (chars.take stop) =
      some ((chars.take stop).take start, (chars.take stop).drop start) := by
    refine splitAt_eq_some.mpr ⟨(List.take_append_drop _ _).symm, ?_⟩
    rw [byteLength_of_ascii fun c hc => htake c (List.mem_of_mem_take hc), List.length_take, List.length_take]
    omega
  simp [ByteOffsets.get, houter, hinner]

namespace Rfc3339

variable (t : Rfc3339)

def restText : List Char := (if t.fraction = [] then [] else '.' :: t.fraction) ++ t.offsetText

theorem dateTimeText_ascii : ∀ c ∈ t.dateTimeText, c.utf8Size = 1 := by
  have hsigns : '-'.utf8Size = 1 ∧ 'T'.utf8Size = 1 ∧ ':'.utf8Size = 1 := by decide
  obtain ⟨hminus, hT, hcolon⟩ := hsigns
  simp [dateTimeText, fourDigits, twoDigits, hminus, hT, hcolon]

theorem get_text {start stop : Nat} (hstart : start ≤ stop) (hstop : stop ≤ 19) :
    get t.text start stop = some (String.ofList ((t.dateTimeText.take stop).drop start)) :=
  get_of_ascii t.dateTimeText_ascii t.restText hstart hstop

theorem getFrom_text : getFrom t.text 19 = some (String.ofList t.restText) := by
  have hsplit : splitAt 19 (t.dateTimeText ++ t.restText) = some (t.dateTimeText, t.restText) :=
    splitAt_eq_some.mpr ⟨rfl, byteLength_of_ascii t.dateTimeText_ascii⟩
  rw [getFrom, text, String.toList_ofList, ← restText, hsplit]
  rfl

theorem monthLength_le : monthLength t.year t.month ≤ 31 := by
  unfold monthLength
  split <;> try omega
  split <;> omega

/-- The numbers before the fraction. -/
theorem numbers_text :
    (get t.text 0 4).bind parseI64 = some (t.year : Int) ∧
      (get t.text 5 7).bind parseI64 = some (t.month : Int) ∧
      (get t.text 8 10).bind parseI64 = some (t.day : Int) ∧
      (get t.text 11 13).bind parseI64 = some (t.hour : Int) ∧
      (get t.text 14 16).bind parseI64 = some (t.minute : Int) ∧
      (get t.text 17 19).bind parseI64 = some (t.second : Int) := by
  have hlast := t.monthLength_le
  have hmonth := t.hmonth
  have hday := t.hday
  have hhour := t.hhour
  have hminute := t.hminute
  have hsecond := t.hsecond
  have htwo {start n : Nat} (hstop : start + 2 ≤ 19) (hn : n ≤ 99)
      (hpart : (t.dateTimeText.take (start + 2)).drop start = twoDigits n) :
      (get t.text start (start + 2)).bind parseI64 = some (n : Int) := by
    rw [t.get_text (by omega) hstop, hpart, bind_some, parseI64_two hn]
  refine ⟨?_, htwo (by omega) (by omega) rfl, htwo (by omega) (by omega) rfl, htwo (by omega) (by omega) rfl,
    htwo (by omega) (by omega) rfl, htwo (by omega) (by omega) rfl⟩
  have hpart : (t.dateTimeText.take 4).drop 0 = fourDigits t.year := rfl
  rw [t.get_text (by omega) (by omega), hpart, bind_some, parseI64_four t.hyear]

theorem numbers_offset {sign : Char} (hsign : sign.utf8Size = 1) {hours minutes : Nat} (hhours : hours ≤ 23)
    (hminutes : minutes ≤ 59) :
    (get (String.ofList (sign :: twoDigits hours ++ ':' :: twoDigits minutes)) 1 3).bind parseI64 =
        some (hours : Int) ∧
      (get (String.ofList (sign :: twoDigits hours ++ ':' :: twoDigits minutes)) 4 6).bind parseI64 =
        some (minutes : Int) := by
  have hcolon : ':'.utf8Size = 1 := rfl
  have hascii : ∀ c ∈ sign :: twoDigits hours ++ ':' :: twoDigits minutes, c.utf8Size = 1 := by
    simp [twoDigits, hsign, hcolon]
  have hfirst := get_of_ascii hascii [] (show 1 ≤ 3 by omega) (by simp [twoDigits])
  have hsecond := get_of_ascii hascii [] (show 4 ≤ 6 by omega) (by simp [twoDigits])
  rw [List.append_nil] at hfirst hsecond
  rw [hfirst, hsecond]
  exact ⟨parseI64_two (by omega), parseI64_two (by omega)⟩

theorem timestampMs_text :
    timestampMs t.text = some ((t.localSeconds - if t.fraction = [] then t.offsetSeconds else 0) * 1000) := by
  have hlength : ¬ byteLength t.text.toList < 19 := by
    rw [text, String.toList_ofList, byteLength_append, byteLength_of_ascii t.dateTimeText_ascii]
    simp [dateTimeText, fourDigits, twoDigits]
  obtain ⟨hyear, hmonth, hday, hhour, hminute, hsecond⟩ := t.numbers_text
  have hlocal : civilDays t.year t.month t.day * 86400 + t.hour * 3600 + t.minute * 60 + t.second = t.localSeconds := by
    rw [civilDays_eq t.hmonth t.hday.1, localSeconds]
  have hfields : ¬ (decide ((t.month : Int) < 1) || decide (12 < (t.month : Int)) || decide ((t.day : Int) < 1) ||
      decide (31 < (t.day : Int)) || decide (23 < (t.hour : Int)) || decide (59 < (t.minute : Int)) ||
      decide (60 < (t.second : Int))) = true := by
    have hday := t.hday
    have hlast := t.monthLength_le
    simp only [Bool.or_eq_true, decide_eq_true_eq]
    have := t.hmonth
    have := t.hhour
    have := t.hminute
    have := t.hsecond
    omega
  unfold timestampMs
  rw [if_neg hlength]
  simp only [hyear, hmonth, hday, hhour, hminute, hsecond, t.getFrom_text, bind_eq_bind, bind_some,
    hfields, hlocal, String.toList_ofList]
  by_cases hfraction : t.fraction = []
  · rcases hoffset : t.offset with _ | ⟨west, hours, minutes⟩
    · simp [restText, hfraction, offsetText, offsetSeconds, hoffset]
    · obtain ⟨hhours, hminutes⟩ := t.hoffset west hours minutes hoffset
      cases west with
      | true =>
        have hrest : t.restText = '-' :: twoDigits hours ++ ':' :: twoDigits minutes := by
          simp [restText, hfraction, offsetText, hoffset]
        obtain ⟨hfirst, hsecond⟩ := numbers_offset (show '-'.utf8Size = 1 from rfl) hhours hminutes
        simp only [hrest, hfirst, hsecond, bind_some]
        simp [hfraction, offsetSeconds, hoffset]
        omega
      | false =>
        have hrest : t.restText = '+' :: twoDigits hours ++ ':' :: twoDigits minutes := by
          simp [restText, hfraction, offsetText, hoffset]
        obtain ⟨hfirst, hsecond⟩ := numbers_offset (show '+'.utf8Size = 1 from rfl) hhours hminutes
        simp only [hrest, hfirst, hsecond, bind_some]
        simp [hfraction, offsetSeconds, hoffset]
        omega
  · simp [restText, hfraction]

end Rfc3339

def FitsI64 (value : Int) : Prop := -0x8000000000000000 ≤ value ∧ value < 0x8000000000000000

/-- What the operations on the numbers of the date and the time come to, in the order of the source. -/
def dateTimeValues (year month day hour minute : Int) : List Int :=
  let adjustedYear := year - if month ≤ 2 then 1 else 0
  let shiftedYear := if 0 ≤ adjustedYear then adjustedYear else adjustedYear - 399
  let era := shiftedYear.tdiv 400
  let yearOfEra := adjustedYear - era * 400
  let marchMonth := month + if 2 < month then -3 else 9
  let marchDays := (153 * marchMonth + 2).tdiv 5
  let fourths := yearOfEra * 365 + yearOfEra.tdiv 4
  let dayOfEra := fourths - yearOfEra.tdiv 100 + (marchDays + day - 1)
  let days := civilDays year month day
  [adjustedYear, shiftedYear, era, era * 400, yearOfEra, marchMonth, 153 * marchMonth, 153 * marchMonth + 2, marchDays,
    marchDays + day, marchDays + day - 1, yearOfEra * 365, yearOfEra.tdiv 4, fourths, yearOfEra.tdiv 100,
    fourths - yearOfEra.tdiv 100, dayOfEra, era * 146097, era * 146097 + dayOfEra, days, days * 86400, hour * 3600,
    days * 86400 + hour * 3600, minute * 60, days * 86400 + hour * 3600 + minute * 60]

def offsetValues (seconds offsetHours offsetMinutes : Int) : List Int :=
  let magnitude := offsetHours * 3600 + offsetMinutes * 60
  [offsetHours * 3600, offsetMinutes * 60, magnitude, -magnitude, seconds + magnitude, seconds - magnitude,
    (seconds + magnitude) * 1000, (seconds - magnitude) * 1000]

/-- The values that `timestamp_ms` computes of a text. -/
def timestampValues (timestamp : String) : List Int :=
  let number := fun text start stop => (get text start stop).bind parseI64
  let read := do
    let year ← number timestamp 0 4
    let month ← number timestamp 5 7
    let day ← number timestamp 8 10
    let hour ← number timestamp 11 13
    let minute ← number timestamp 14 16
    let second ← number timestamp 17 19
    if month < 1 || 12 < month || day < 1 || 31 < day || 23 < hour || 59 < minute || 60 < second then none
    let seconds := civilDays year month day * 86400 + hour * 3600 + minute * 60 + second
    let shift := do
      let rest ← getFrom timestamp 19
      let offsetHours ← number rest 1 3
      let offsetMinutes ← number rest 4 6
      return offsetValues seconds offsetHours offsetMinutes
    return dateTimeValues year month day hour minute ++ seconds :: seconds * 1000 :: shift.getD []
  read.getD []

theorem digitsValue_lt {digits : List Char} (h : digits.all Char.isDigit = true) :
    digitsValue digits < 10 ^ digits.length := by
  have hfold (n : Nat) : digits.foldl (fun n c => 10 * n + (c.toNat - 48)) n < (n + 1) * 10 ^ digits.length := by
    induction digits generalizing n with
    | nil => simp
    | cons c digits ih =>
      rw [List.all_cons, Bool.and_eq_true] at h
      have hc : c.toNat - 48 ≤ 9 := by
        have hdigit := h.1
        simp only [Char.isDigit, Bool.and_eq_true, decide_eq_true_eq, UInt32.le_iff_toNat_le] at hdigit
        have hlast : c.toNat ≤ 57 := hdigit.2
        omega
      have hrest := ih h.2 (10 * n + (c.toNat - 48))
      have hpow : (10 * n + (c.toNat - 48) + 1) * 10 ^ digits.length ≤ (10 * (n + 1)) * 10 ^ digits.length :=
        Nat.mul_le_mul_right _ (by omega)
      calc _ < _ := hrest
        _ ≤ _ := hpow
        _ = (n + 1) * (10 ^ digits.length * 10) := by ring
  have hzero := hfold 0
  rwa [Nat.zero_add, Nat.one_mul] at hzero

/-- A number of few digits. -/
theorem parseI64_bound {text : String} {value : Int} (h : parseI64 text = some value)
    (hshort : text.toList.length ≤ 4) : -9999 ≤ value ∧ value ≤ 9999 := by
  have hvalue {digits : List Char} (hdigits : areDigits digits = true) (hlength : digits.length ≤ 4) :
      digitsValue digits ≤ 9999 := by
    have hall : digits.all Char.isDigit = true := by
      rw [areDigits, Bool.and_eq_true] at hdigits
      exact hdigits.2
    have hlt := digitsValue_lt hall
    have hpow : 10 ^ digits.length ≤ 10 ^ 4 := Nat.pow_le_pow_right (by omega) hlength
    omega
  unfold parseI64 at h
  split at h
  next negative digits heq =>
    have hlength : digits.length ≤ text.toList.length := by
      split at heq
      next hlist => rw [hlist, ← (Prod.mk.inj heq).2, List.length_cons]; omega
      next hlist => rw [hlist, ← (Prod.mk.inj heq).2, List.length_cons]; omega
      next => rw [(Prod.mk.inj heq).2]
    obtain ⟨signed, hsigned⟩ : ∃ signed : Int,
        signed = if negative then -(digitsValue digits : Int) else digitsValue digits := ⟨_, rfl⟩
    dsimp only at h
    rw [← hsigned] at h
    split at h
    next hfits =>
      simp only [Bool.and_eq_true] at hfits
      have hsmall := hvalue hfits.1.1 (hlength.trans hshort)
      have heq := Option.some.inj h
      split at hsigned <;> omega
    next => cases h

theorem length_le_byteLength (chars : List Char) : chars.length ≤ byteLength chars := by
  induction chars with
  | nil => exact Nat.le_refl 0
  | cons c chars ih =>
    have hc := c.utf8Size_pos
    rw [byteLength_cons, List.length_cons]
    omega

theorem number_bound {text : String} {start stop : Nat} {value : Int} (hstop : stop ≤ start + 4)
    (h : (ByteOffsets.get text start stop).bind parseI64 = some value) : -9999 ≤ value ∧ value ≤ 9999 := by
  obtain ⟨range, hrange, hvalue⟩ := bind_eq_some_iff.mp h
  simp only [ByteOffsets.get, bind_eq_bind, bind_eq_some_iff] at hrange
  obtain ⟨⟨before, after⟩, houter, ⟨skipped, chars⟩, hinner, hchars⟩ := hrange
  have hbefore := (splitAt_eq_some.mp houter).2
  obtain ⟨rfl, hskipped⟩ := splitAt_eq_some.mp hinner
  rw [byteLength_append] at hbefore
  have hlength : chars.length ≤ byteLength chars := length_le_byteLength chars
  refine parseI64_bound hvalue ?_
  rw [← Option.some.inj hchars, String.toList_ofList]
  show chars.length ≤ 4
  omega

theorem tdiv_bound {a k bound : Int} (hk : 0 < k) (h : -bound ≤ a ∧ a ≤ bound) :
    -bound ≤ a.tdiv k ∧ a.tdiv k ≤ bound := by
  by_cases ha : 0 ≤ a
  · rw [Int.tdiv_eq_ediv_of_nonneg ha]
    have hself := Int.ediv_le_self k ha
    have hnonneg := Int.ediv_nonneg ha hk.le
    omega
  · have hneg : 0 ≤ -a := by omega
    have hflip : a.tdiv k = -(-a / k) := by rw [← Int.tdiv_eq_ediv_of_nonneg hneg, Int.neg_tdiv, neg_neg]
    have hself := Int.ediv_le_self k hneg
    have hnonneg := Int.ediv_nonneg hneg hk.le
    omega

theorem dateTimeValues_fit {year month day hour minute : Int} (hyear : -9999 ≤ year ∧ year ≤ 9999)
    (hmonth : 1 ≤ month ∧ month ≤ 12) (hday : 1 ≤ day ∧ day ≤ 31) (hhour : -9999 ≤ hour ∧ hour ≤ 9999)
    (hminute : -9999 ≤ minute ∧ minute ≤ 9999) :
    (-10000000000 ≤ civilDays year month day ∧ civilDays year month day ≤ 10000000000) ∧
      ∀ value ∈ dateTimeValues year month day hour minute, FitsI64 value := by
  unfold dateTimeValues
  extract_lets adjustedYear shiftedYear era yearOfEra marchMonth marchDays fourths dayOfEra days
  have hdays : days = era * 146097 + dayOfEra - 719468 := by
    rfl
  have hadjusted : -10000 ≤ adjustedYear ∧ adjustedYear ≤ 10000 := by
    show -10000 ≤ year - (if month ≤ 2 then 1 else 0) ∧ year - (if month ≤ 2 then 1 else 0) ≤ 10000
    split <;> omega
  have hshifted : -10399 ≤ shiftedYear ∧ shiftedYear ≤ 10399 := by
    show -10399 ≤ (if 0 ≤ adjustedYear then adjustedYear else adjustedYear - 399) ∧
      (if 0 ≤ adjustedYear then adjustedYear else adjustedYear - 399) ≤ 10399
    split <;> omega
  have hera : -10399 ≤ era ∧ era ≤ 10399 := tdiv_bound (by omega) hshifted
  have hyear' : -4200000 ≤ yearOfEra ∧ yearOfEra ≤ 4200000 := by
    show -4200000 ≤ adjustedYear - era * 400 ∧ adjustedYear - era * 400 ≤ 4200000
    omega
  have hmarch : 0 ≤ marchMonth ∧ marchMonth ≤ 12 := by
    show 0 ≤ month + (if 2 < month then -3 else 9) ∧ month + (if 2 < month then -3 else 9) ≤ 12
    split <;> omega
  have hmarchDays : -1838 ≤ marchDays ∧ marchDays ≤ 1838 := tdiv_bound (by omega) (by omega)
  have hfour : -4200000 ≤ yearOfEra.tdiv 4 ∧ yearOfEra.tdiv 4 ≤ 4200000 := tdiv_bound (by omega) hyear'
  have hhundred : -4200000 ≤ yearOfEra.tdiv 100 ∧ yearOfEra.tdiv 100 ≤ 4200000 := tdiv_bound (by omega) hyear'
  have hfourths : fourths = yearOfEra * 365 + yearOfEra.tdiv 4 := rfl
  have hdayOfEra : dayOfEra = fourths - yearOfEra.tdiv 100 + (marchDays + day - 1) := rfl
  show (-10000000000 ≤ days ∧ days ≤ 10000000000) ∧ _
  clear_value days dayOfEra fourths marchDays marchMonth yearOfEra era shiftedYear adjustedYear
  constructor
  · omega
  · simp only [List.forall_mem_cons, FitsI64, List.not_mem_nil, false_implies, implies_true, and_true]
    omega

/-- No operation of `timestamp_ms` overflows, whatever the text. -/
theorem timestampValues_fit (text : String) : ∀ value ∈ timestampValues text, FitsI64 value := by
  unfold timestampValues
  extract_lets number read
  have hbound (text : String) {start stop : Nat} {n : Int} (hstop : stop ≤ start + 4)
      (h : number text start stop = some n) : -9999 ≤ n ∧ n ≤ 9999 := number_bound hstop h
  clear_value number
  cases hread : read with
  | none => simp
  | some values =>
    simp only [read, bind_eq_bind, bind_eq_some_iff] at hread
    obtain ⟨year, hyear, month, hmonth, day, hday, hour, hhour, minute, hminute, second, hsecond, hread⟩ := hread
    split at hread
    next => cases hread
    next hfields =>
      simp only [Bool.or_eq_true, decide_eq_true_eq, not_or, not_lt] at hfields
      have hyear := hbound text (by omega) hyear
      have hhour := hbound text (by omega) hhour
      have hminute := hbound text (by omega) hminute
      have hsecond := hbound text (by omega) hsecond
      obtain ⟨hdays, hfit⟩ := dateTimeValues_fit hyear (show 1 ≤ month ∧ month ≤ 12 by omega)
        (show 1 ≤ day ∧ day ≤ 31 by omega) hhour hminute
      obtain rfl := Option.some.inj hread
      intro value hvalue
      rcases List.mem_append.mp hvalue with hdate | hrest
      · exact hfit value hdate
      generalize hseconds : civilDays year month day * 86400 + hour * 3600 + minute * 60 + second = seconds at hrest
      rcases List.mem_cons.mp hrest with rfl | hrest
      · unfold FitsI64
        omega
      rcases List.mem_cons.mp hrest with rfl | hrest
      · unfold FitsI64
        omega
      cases hoffset : (getFrom text 19).bind fun rest => (number rest 1 3).bind fun offsetHours =>
          (number rest 4 6).bind fun offsetMinutes => pure (offsetValues seconds offsetHours offsetMinutes) with
      | none =>
        rw [hoffset] at hrest
        cases hrest
      | some values =>
        rw [hoffset] at hrest
        simp only [bind_eq_some_iff] at hoffset
        obtain ⟨rest, -, hours, hhours, minutes, hminutes, hvalues⟩ := hoffset
        obtain rfl := Option.some.inj hvalues
        have hhours := hbound rest (by omega) hhours
        have hminutes := hbound rest (by omega) hminutes
        have hall : ∀ value ∈ offsetValues seconds hours minutes, FitsI64 value := by
          simp only [offsetValues, List.forall_mem_cons, FitsI64, List.not_mem_nil, false_implies, implies_true,
            and_true]
          omega
        exact hall value hrest

/-- No operation on any text overflows. A timestamp is read as its instant exactly if it has no fraction, or no offset
from UTC: behind a fraction the offset is not looked for. -/
theorem timestamps_read (text : String) (t : Rfc3339) :
    (∀ value ∈ timestampValues text, FitsI64 value) ∧
      (timestampMs t.text = some t.instant ↔ t.fraction = [] ∨ t.offsetSeconds = 0) := by
  refine ⟨timestampValues_fit text, ?_⟩
  rw [t.timestampMs_text, Option.some.injEq, Rfc3339.instant]
  split
  next hfraction => simp [hfraction]
  next hfraction =>
    simp only [hfraction, false_or]
    omega

def newYearEast : Rfc3339 where
  year := 2024
  month := 1
  day := 1
  hour := 0
  minute := 0
  second := 0
  fraction := ['5']
  offset := some (false, 1, 0)
  hyear := by decide
  hmonth := by decide
  hday := by decide
  hhour := by decide
  hminute := by decide
  hsecond := by decide
  hfraction := by decide
  hoffset west hours minutes h := by
    cases h
    decide

theorem fractional_offset_ignored :
    newYearEast.text = "2024-01-01T00:00:00.5+01:00" ∧ timestampMs newYearEast.text ≠ some newYearEast.instant := by
  refine ⟨by decide +kernel, ?_⟩
  decide +kernel

end MochiPort

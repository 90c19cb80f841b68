import MochiPort.CustomToolInput
import Mathlib.Data.Nat.Bitwise

namespace MochiPort

open List Option

/-- The ways to write a character in a string of a JSON text. -/
inductive CharText : List Char → Char → Prop
  | plain (c : Char) (hquote : c ≠ '"') (hescape : c ≠ '\\') (hcontrol : 0x20 ≤ c.toNat) : CharText [c] c
  | escaped (e : Char) (h : e ∈ ['"', '\\', '/', 'b', 'f', 'n', 'r', 't']) : CharText ['\\', e] (unescape e)
  | unicode (digits : List Char) (code : Nat) (hlength : digits.length = 4) (hcode : hexDigits digits = some code)
      (hscalar : code < 0xd800 ∨ 0xdfff < code) : CharText ('\\' :: 'u' :: digits) (Char.ofNat code)
  | pair (high low : List Char) (first second : Nat) (hhigh : high.length = 4) (hlow : low.length = 4)
      (hfirst : hexDigits high = some first) (hsecond : hexDigits low = some second)
      (hleading : 0xd800 ≤ first ∧ first ≤ 0xdbff) (htrailing : 0xdc00 ≤ second ∧ second ≤ 0xdfff) :
      CharText ('\\' :: 'u' :: (high ++ '\\' :: 'u' :: low))
        (Char.ofNat (0x10000 + ((first - 0xd800) * 0x400 + (second - 0xdc00))))

section

variable {raw part digits rest : List Char} {c : Char} {code fuel : Nat} {output : List Char}

theorem CharText.ne_nil (h : CharText raw c) : raw ≠ [] := by
  cases h with
  | _ => exact cons_ne_nil _ _

theorem hexValue_lt {d : Nat} (h : hexValue c = some d) : d < 16 := by
  unfold hexValue at h
  split at h
  next hc =>
    have hhigh := Char.le_def.mp hc.2
    have hd := Option.some.inj h
    have htop : c.toNat ≤ 57 := hhigh
    omega
  next =>
    split at h
    next hc =>
      have hd := Option.some.inj h
      have htop : c.toNat ≤ 102 := Char.le_def.mp hc.2
      omega
    next =>
      split at h
      next hc =>
        have hd := Option.some.inj h
        have htop : c.toNat ≤ 70 := Char.le_def.mp hc.2
        omega
      next => cases h

theorem hexDigits_lt (h : hexDigits digits = some code) : code < 16 ^ digits.length := by
  have hfold : ∀ (digits : List Char) (start : Option Nat) (code : Nat),
      digits.foldl (fun value c => value.bind fun n => (hexValue c).map fun d => 16 * n + d) start = some code →
      ∃ n, start = some n ∧ code < (n + 1) * 16 ^ digits.length := by
    intro digits
    induction digits with
    | nil =>
      intro start code h
      exact ⟨code, h, by simp⟩
    | cons c digits ih =>
      intro start code h
      obtain ⟨m, hm, hcode⟩ := ih _ _ h
      obtain ⟨n, hn, hstep⟩ := bind_eq_some_iff.mp hm
      obtain ⟨d, hd, hvalue⟩ := map_eq_some_iff.mp hstep
      have hlt := hexValue_lt hd
      refine ⟨n, hn, hcode.trans_le ?_⟩
      rw [length_cons, Nat.pow_succ', ← Nat.mul_assoc]
      refine Nat.mul_le_mul_right _ ?_
      omega
  obtain ⟨n, hn, hcode⟩ := hfold digits (some 0) code h
  cases Option.some.inj hn
  simpa using hcode

theorem foldl_hexValue_none (digits : List Char) :
    digits.foldl (fun value c => value.bind fun n => (hexValue c).map fun d => 16 * n + d) none = none := by
  induction digits with
  | nil => rfl
  | cons c digits ih => exact ih

theorem readHexU16_append (hlength : digits.length = 4) (hcode : hexDigits digits = some code) (rest : List Char) :
    readHexU16 (digits ++ rest) = some code := by
  have htake : (digits ++ rest).take 4 = digits := by rw [← hlength, take_left]
  unfold readHexU16
  rw [htake, if_neg (by omega)]
  split
  next plus =>
    -- a sign is no digit
    have hnone : hexDigits ('+' :: plus) = none := by
      exact foldl_hexValue_none plus
    rw [hnone] at hcode
    cases hcode
  next => exact hcode

theorem readHexU16_short (h : rest.length < 4) : readHexU16 rest = none := by
  unfold readHexU16
  rw [if_pos]
  rw [length_take]
  omega

theorem decodeJsonUnicodeEscape_unicode (hlength : digits.length = 4) (hcode : hexDigits digits = some code)
    (hscalar : code < 0xd800 ∨ 0xdfff < code) (rest : List Char) :
    decodeJsonUnicodeEscape (digits ++ rest) = some (Char.ofNat code, rest) := by
  have hbound := hexDigits_lt hcode
  rw [hlength] at hbound
  have hscalar' : code < 0xd800 ∨ 0xdfff < code ∧ code < 0x110000 := by omega
  have hnot : ¬ (0xd800 ≤ code ∧ code ≤ 0xdbff) := by omega
  rw [decodeJsonUnicodeEscape, readHexU16_append hlength hcode, bind_some, if_neg hnot, charFromU32,
    if_pos hscalar', ← hlength, drop_left]
  rfl

theorem decodeJsonUnicodeEscape_pair {high low : List Char} {first second : Nat} (hhigh : high.length = 4)
    (hlow : low.length = 4) (hfirst : hexDigits high = some first) (hsecond : hexDigits low = some second)
    (hleading : 0xd800 ≤ first ∧ first ≤ 0xdbff) (htrailing : 0xdc00 ≤ second ∧ second ≤ 0xdfff) (rest : List Char) :
    decodeJsonUnicodeEscape ((high ++ '\\' :: 'u' :: low) ++ rest) =
      some (Char.ofNat (0x10000 + ((first - 0xd800) * 0x400 + (second - 0xdc00))), rest) := by
  have hdrop : ∀ later, (high ++ later).drop 4 = later := fun later => by rw [← hhigh, drop_left]
  have hsix : (high ++ '\\' :: 'u' :: (low ++ rest)).drop 6 = low ++ rest := by
    rw [← drop_drop (i := 2) (j := 4), hdrop]
    rfl
  have hten : (high ++ '\\' :: 'u' :: (low ++ rest)).drop 10 = rest := by
    rw [← drop_drop (i := 4) (j := 6), hsix, ← hlow, drop_left]
  have hor : ((first - 0xd800) <<< 10) ||| (second - 0xdc00) = (first - 0xd800) * 0x400 + (second - 0xdc00) := by
    rw [← Nat.shiftLeft_add_eq_or_of_lt (by omega), Nat.shiftLeft_eq]
  have hcode : 0xdfff < 0x10000 + ((first - 0xd800) * 0x400 + (second - 0xdc00)) ∧
      0x10000 + ((first - 0xd800) * 0x400 + (second - 0xdc00)) < 0x110000 := by omega
  rw [append_assoc, cons_append, cons_append, decodeJsonUnicodeEscape,
    readHexU16_append hhigh hfirst, bind_some, if_pos hleading, hdrop, if_pos (by rfl), hsix,
    readHexU16_append hlow hsecond, bind_some, if_pos htrailing, hor, charFromU32, if_pos (.inr hcode), hten]
  rfl

theorem stringPrefixLoop_char (h : CharText raw c) (fuel : Nat) (output rest : List Char) :
    stringPrefixLoop (fuel + 1) output (raw ++ rest) = stringPrefixLoop fuel (output ++ [c]) rest := by
  cases h with
  | plain c hquote hescape hcontrol =>
    rw [singleton_append, stringPrefixLoop]
    · exact fun h => hquote h
    · exact fun h => absurd h hescape
    · exact fun _ _ h => absurd h hescape
  | escaped e h =>
    have hne : e ≠ 'u' := by
      intro he
      rw [he] at h
      exact absurd h (by decide)
    rw [cons_append, cons_append, nil_append, stringPrefixLoop, if_neg hne]
  | unicode digits code hlength hcode hscalar =>
    rw [cons_append, cons_append, stringPrefixLoop, if_pos rfl,
      decodeJsonUnicodeEscape_unicode hlength hcode hscalar, bind_some]
  | pair high low first second hhigh hlow hfirst hsecond hleading htrailing =>
    rw [cons_append, cons_append, stringPrefixLoop, if_pos rfl,
      decodeJsonUnicodeEscape_pair hhigh hlow hfirst hsecond hleading htrailing, bind_some]

theorem prefix_append_cases {l first second : List Char} (h : l <+: first ++ second) :
    l <+: first ∨ ∃ l', l = first ++ l' ∧ l' <+: second := by
  rcases prefix_or_prefix_of_prefix h (prefix_append first second) with hin | ⟨l', rfl⟩
  · exact .inl hin
  · exact .inr ⟨l', rfl, (prefix_append_right_inj first).mp h⟩

theorem decodeJsonUnicodeEscape_short (h : rest.length < 4) : decodeJsonUnicodeEscape rest = none := by
  rw [decodeJsonUnicodeEscape, readHexU16_short h]
  rfl

theorem decodeJsonUnicodeEscape_cut (hlength : digits.length = 4) (hpart : part <+: digits) (hwhole : part ≠ digits) :
    decodeJsonUnicodeEscape part = none := by
  refine decodeJsonUnicodeEscape_short ?_
  have hle := hpart.length_le
  have hne : part.length ≠ digits.length := fun he => hwhole (hpart.eq_of_length he)
  omega

theorem decodeJsonUnicodeEscape_cut_pair {high low : List Char} {first : Nat} (hhigh : high.length = 4)
    (hlow : low.length = 4) (hfirst : hexDigits high = some first) (hleading : 0xd800 ≤ first ∧ first ≤ 0xdbff)
    (hpart : part <+: high ++ '\\' :: 'u' :: low) (hwhole : part ≠ high ++ '\\' :: 'u' :: low) :
    decodeJsonUnicodeEscape part = none := by
  have hrest : ∀ rest, rest <+: '\\' :: 'u' :: low → rest ≠ '\\' :: 'u' :: low →
      decodeJsonUnicodeEscape (high ++ rest) = none := by
    intro rest hprefix hne
    have hdrop : (high ++ rest).drop 4 = rest := by rw [← hhigh, drop_left]
    have hsix : (high ++ rest).drop 6 = rest.drop 2 := by rw [← drop_drop (i := 2) (j := 4), hdrop]
    rw [decodeJsonUnicodeEscape, readHexU16_append hhigh hfirst, bind_some, if_pos hleading, hdrop, hsix]
    split
    next htwo =>
      -- the second escape begins, but lacks digits
      rcases prefix_cons_iff.mp hprefix with rfl | ⟨rest₁, rfl, hprefix₁⟩
      · exact absurd htwo (by decide)
      · rcases prefix_cons_iff.mp hprefix₁ with rfl | ⟨rest₂, rfl, hprefix₂⟩
        · exact absurd htwo (by decide)
        · have hle := hprefix₂.length_le
          have hlength : rest₂.length ≠ low.length := fun he => hne (by rw [hprefix₂.eq_of_length he])
          have hshort : (('\\' :: 'u' :: rest₂).drop 2).length < 4 := by
            rw [drop_succ_cons, drop_succ_cons, drop_zero]
            omega
          rw [readHexU16_short hshort]
          rfl
    next => rfl
  rcases prefix_append_cases hpart with hin | ⟨rest, rfl, hprefix⟩
  · by_cases hall : part = high
    · have hnone := hrest [] nil_prefix (cons_ne_nil _ _).symm
      rwa [append_nil, ← hall] at hnone
    · exact decodeJsonUnicodeEscape_cut hhigh hin hall
  · exact hrest rest hprefix fun he => hwhole (by rw [he])

theorem stringPrefixLoop_cut (h : CharText raw c) (hpart : part <+: raw) (hnil : part ≠ []) (hwhole : part ≠ raw)
    (fuel : Nat) (output : List Char) : stringPrefixLoop (fuel + 1) output part = none := by
  have hescape : ∀ later, raw = '\\' :: 'u' :: later →
      (∀ cut, cut <+: later → cut ≠ later → decodeJsonUnicodeEscape cut = none) →
      stringPrefixLoop (fuel + 1) output part = none := by
    rintro later rfl hlater
    rcases prefix_cons_iff.mp hpart with rfl | ⟨part₁, rfl, hpart₁⟩
    · exact absurd rfl hnil
    · rcases prefix_cons_iff.mp hpart₁ with rfl | ⟨part₂, rfl, hpart₂⟩
      · rw [stringPrefixLoop]
      · rw [stringPrefixLoop, if_pos rfl, hlater part₂ hpart₂ fun he => hwhole (by rw [he])]
        rfl
  cases h with
  | plain c hquote hslash hcontrol =>
    rcases prefix_cons_iff.mp hpart with rfl | ⟨part₁, rfl, hpart₁⟩
    · exact absurd rfl hnil
    · rw [prefix_nil.mp hpart₁] at hwhole
      exact absurd rfl hwhole
  | escaped e he =>
    rcases prefix_cons_iff.mp hpart with rfl | ⟨part₁, rfl, hpart₁⟩
    · exact absurd rfl hnil
    · rcases prefix_cons_iff.mp hpart₁ with rfl | ⟨part₂, rfl, hpart₂⟩
      · rw [stringPrefixLoop]
      · rw [prefix_nil.mp hpart₂] at hwhole
        exact absurd rfl hwhole
  | unicode digits code hlength hcode hscalar =>
    exact hescape digits rfl fun cut hcut hne => decodeJsonUnicodeEscape_cut hlength hcut hne
  | pair high low first second hhigh hlow hfirst hsecond hleading htrailing =>
    exact hescape _ rfl fun cut hcut hne =>
      decodeJsonUnicodeEscape_cut_pair hhigh hlow hfirst hleading hcut hne

end

abbrev StringText := List (List Char × Char)

namespace StringText

def written (text : StringText) : List Char := text.flatMap Prod.fst

def spoken (text : StringText) : List Char := text.map Prod.snd

def Valid (text : StringText) : Prop := ∀ char ∈ text, CharText char.1 char.2

end StringText

section

open StringText

variable {text : StringText} {part rest output : List Char} {fuel : Nat}

theorem StringText.Valid.length_le (h : Valid text) : text.length ≤ (written text).length := by
  induction text with
  | nil => exact Nat.le_refl 0
  | cons char text ih =>
    have hpos := length_pos_iff.mpr (h char mem_cons_self).ne_nil
    have hrest := ih fun c hc => h c (mem_cons_of_mem char hc)
    unfold written at hrest ⊢
    rw [flatMap_cons, length_append, length_cons]
    omega

theorem StringText.Valid.take (h : Valid text) (k : Nat) : Valid (text.take k) :=
  fun char hchar => h char (mem_of_mem_take hchar)

theorem written_cons (char : List Char × Char) (text : StringText) :
    written (char :: text) = char.1 ++ written text := flatMap_cons

/-- A beginning of a string and of what follows it, from behind the opening quote: it ends between two characters,
within one, or behind the closing quote. -/
inductive Beginning (text : StringText) (rest part : List Char) : Prop
  | growing (k : Nat) (hk : k ≤ text.length) (h : part = written (text.take k))
  | cut (k : Nat) (char : List Char × Char) (begun : List Char) (hchar : char ∈ text) (hbegun : begun <+: char.1)
      (hnil : begun ≠ []) (hwhole : begun ≠ char.1) (h : part = written (text.take k) ++ begun)
  | whole (after : List Char) (hafter : after <+: rest) (h : part = written text ++ '"' :: after)

theorem beginning_of_prefix (h : part <+: written text ++ '"' :: rest) : Beginning text rest part := by
  induction text generalizing part with
  | nil =>
    rcases prefix_cons_iff.mp h with rfl | ⟨after, rfl, hafter⟩
    · exact .growing 0 (Nat.zero_le _) rfl
    · exact .whole after hafter rfl
  | cons char text ih =>
    rw [written_cons, append_assoc] at h
    rcases prefix_append_cases h with hin | ⟨part, rfl, hpart⟩
    · by_cases hnil : part = []
      · exact .growing 0 (Nat.zero_le _) hnil
      · by_cases hwhole : part = char.1
        · refine .growing 1 (Nat.succ_le_succ (Nat.zero_le _)) ?_
          rw [hwhole, take_succ_cons, take_zero, written_cons]
          exact (append_nil _).symm
        · exact .cut 0 char part mem_cons_self hin hnil hwhole rfl
    · cases ih hpart with
      | growing k hle hk =>
        refine .growing (k + 1) (Nat.succ_le_succ hle) ?_
        rw [hk, take_succ_cons, written_cons]
      | cut k c begun hchar hbegun hnil hwhole hk =>
        refine .cut (k + 1) c begun (mem_cons_of_mem _ hchar) hbegun hnil hwhole ?_
        rw [hk, take_succ_cons, written_cons, append_assoc]
      | whole after hafter hk =>
        refine .whole after hafter ?_
        rw [hk, written_cons, append_assoc]

section

variable (h : Valid text)
include h

theorem stringPrefixLoop_written (fuel : Nat) (output rest : List Char) :
    stringPrefixLoop (text.length + fuel) output (written text ++ rest) =
      stringPrefixLoop fuel (output ++ spoken text) rest := by
  induction text generalizing output with
  | nil =>
    have hnil : output ++ spoken [] = output := append_nil output
    rw [length_nil, Nat.zero_add, hnil]
    rfl
  | cons char text ih =>
    have hfuel : (char :: text).length + fuel = text.length + fuel + 1 := by
      rw [length_cons]
      omega
    rw [hfuel, written_cons, append_assoc, stringPrefixLoop_char (h char mem_cons_self),
      ih fun c hc => h c (mem_cons_of_mem char hc), append_assoc]
    rfl

theorem parseJsonStringPrefix_written (rest : List Char) :
    ∃ fuel, rest.length ≤ fuel ∧ parseJsonStringPrefix ('"' :: (written text ++ rest)) =
      stringPrefixLoop fuel (spoken text) rest := by
  have hle := h.length_le
  refine ⟨(written text ++ rest).length - text.length, ?_, ?_⟩
  · rw [List.length_append]
    omega
  · have hfuel : (written text ++ rest).length = text.length + ((written text ++ rest).length - text.length) := by
      rw [List.length_append]
      omega
    rw [parseJsonStringPrefix, hfuel, stringPrefixLoop_written h, ← hfuel]
    rfl

theorem parse_growing : parseJsonStringPrefix ('"' :: written text) = some (spoken text, []) := by
  obtain ⟨fuel, _, hparse⟩ := parseJsonStringPrefix_written h []
  rw [append_nil] at hparse
  rw [hparse]
  cases fuel with
  | zero | succ fuel => rfl

theorem parse_whole (after : List Char) :
    parseJsonStringPrefix ('"' :: (written text ++ '"' :: after)) = some (spoken text, after) := by
  obtain ⟨fuel, hfuel, hparse⟩ := parseJsonStringPrefix_written h ('"' :: after)
  rw [hparse]
  cases fuel with
  | zero => exact absurd hfuel (Nat.not_succ_le_zero _)
  | succ fuel => rw [stringPrefixLoop]

theorem parse_cut {char : List Char × Char} {begun : List Char} (hchar : CharText char.1 char.2)
    (hbegun : begun <+: char.1) (hnil : begun ≠ []) (hwhole : begun ≠ char.1) :
    parseJsonStringPrefix ('"' :: (written text ++ begun)) = none := by
  obtain ⟨fuel, hfuel, hparse⟩ := parseJsonStringPrefix_written h begun
  rw [hparse]
  have hpos := length_pos_iff.mpr hnil
  cases fuel with
  | zero => omega
  | succ fuel => exact stringPrefixLoop_cut hchar hbegun hnil hwhole fuel _

end

end

def isJsonWhitespace (c : Char) : Bool := c = ' ' || c = '\t' || c = '\n' || c = '\r'

/-- A JSON text of an object whose first member is the input, a string; `tail` is what follows the string. -/
structure InputText where
  lead : List Char
  beforeKey : List Char
  key : StringText
  afterKey : List Char
  beforeValue : List Char
  value : StringText
  tail : List Char
  blank : ∀ c ∈ lead ++ beforeKey ++ afterKey ++ beforeValue, isJsonWhitespace c = true
  key_valid : key.Valid
  key_spoken : key.spoken = "input".toList
  value_valid : value.Valid

namespace InputText

open StringText

variable (text : InputText)

def inside : List Char :=
  text.beforeKey ++ '"' :: (written text.key ++ '"' :: (text.afterKey ++ ':' :: text.beforeValue))

def head : List Char := text.lead ++ '\x7b' :: text.inside

def toList : List Char := text.head ++ '"' :: (written text.value ++ '"' :: text.tail)

def input : List Char := spoken text.value

end InputText

section

open StringText

variable {part first rest : List Char} {c : Char}

theorem isWhitespace_of_json (h : isJsonWhitespace c = true) : RustText.isWhitespace c = true := by
  simp only [isJsonWhitespace, Bool.or_eq_true, decide_eq_true_eq] at h
  rcases h with ((rfl | rfl) | rfl) | rfl
  · decide
  · decide
  · decide
  · decide

theorem prefix_append_cons_cases (h : part <+: first ++ c :: rest) :
    part <+: first ∨ ∃ after, part = first ++ c :: after ∧ after <+: rest := by
  rcases prefix_append_cases h with hin | ⟨after, rfl, hafter⟩
  · exact .inl hin
  · rcases prefix_cons_iff.mp hafter with rfl | ⟨after', rfl, hafter'⟩
    · exact .inl (by rw [append_nil])
    · exact .inr ⟨after', rfl, hafter'⟩

theorem trimStartList_blank (h : ∀ c ∈ part, isJsonWhitespace c = true) : trimStartList part = [] :=
  dropWhile_eq_nil_iff.mpr fun c hc => isWhitespace_of_json (h c hc)

theorem trimStartList_append (h : ∀ c ∈ first, isJsonWhitespace c = true) (hc : RustText.isWhitespace c = false)
    (rest : List Char) : trimStartList (first ++ c :: rest) = c :: rest := by
  rw [trimStartList, dropWhile_append_of_pos fun c hc => isWhitespace_of_json (h c hc),
    dropWhile_cons_of_neg (by rw [hc]; exact Bool.false_ne_true)]

end

namespace InputText

open StringText

variable {text : InputText} {part : List Char} {arguments : String}

section

variable (text)

theorem blank_lead : ∀ c ∈ text.lead, isJsonWhitespace c = true := fun c hc =>
  text.blank c (by simp [hc])

theorem blank_beforeKey : ∀ c ∈ text.beforeKey, isJsonWhitespace c = true := fun c hc =>
  text.blank c (by simp [hc])

theorem blank_afterKey : ∀ c ∈ text.afterKey, isJsonWhitespace c = true := fun c hc =>
  text.blank c (by simp [hc])

theorem blank_beforeValue : ∀ c ∈ text.beforeValue, isJsonWhitespace c = true := fun c hc =>
  text.blank c (by simp [hc])

end

def inputAfterKey (parsed : List Char × List Char) : Option String :=
  if parsed.1 ≠ "input".toList then none
  else
    match trimStartList parsed.2 with
    | ':' :: value => (parseJsonStringPrefix (trimStartList value)).map fun parsed => String.ofList parsed.1
    | _ => none

theorem partialWrapped_of_brace {rest : List Char} (h : trimStartList arguments.toList = '\x7b' :: rest) :
    partialWrappedInputPrefix arguments = (parseJsonStringPrefix (trimStartList rest)).bind inputAfterKey := by
  rw [partialWrappedInputPrefix, h]
  rfl

theorem partialWrapped_of_head (h : arguments.toList <+: text.head) : partialWrappedInputPrefix arguments = none := by
  have hblank : ∀ {part first : List Char}, part <+: first → (∀ c ∈ first, isJsonWhitespace c = true) →
      trimStartList part = [] := fun hpart hfirst =>
    trimStartList_blank fun c hc => hfirst c (hpart.subset hc)
  rcases prefix_append_cons_cases h with hlead | ⟨part₁, harguments, h₁⟩
  · rw [partialWrappedInputPrefix, hblank hlead text.blank_lead]
  have hbrace : trimStartList arguments.toList = '\x7b' :: part₁ := by
    rw [harguments, trimStartList_append text.blank_lead (by decide)]
  rw [partialWrapped_of_brace hbrace]
  rcases prefix_append_cons_cases h₁ with hkey | ⟨part₂, rfl, h₂⟩
  · rw [hblank hkey text.blank_beforeKey]
    rfl
  rw [trimStartList_append text.blank_beforeKey (by decide)]
  cases beginning_of_prefix h₂ with
  | growing k _ hk =>
    rw [hk, parse_growing (text.key_valid.take k), bind_some, inputAfterKey]
    split
    next => rfl
    next => rfl
  | cut k char begun hchar hbegun hnil hwhole hk =>
    rw [hk, parse_cut (text.key_valid.take k) (text.key_valid char hchar) hbegun hnil hwhole]
    rfl
  | whole part₃ h₃ hk =>
    rw [hk, parse_whole text.key_valid, bind_some, inputAfterKey, if_neg (not_not.mpr text.key_spoken)]
    rcases prefix_append_cons_cases h₃ with hafter | ⟨part₄, rfl, h₄⟩
    · rw [hblank hafter text.blank_afterKey]
    · have hvalue := hblank h₄ text.blank_beforeValue
      rw [trimStartList_append text.blank_afterKey (by decide)]
      change (parseJsonStringPrefix (trimStartList part₄)).map _ = none
      rw [hvalue]
      rfl

theorem partialWrapped_of_value (h : arguments.toList = text.head ++ '"' :: part) :
    partialWrappedInputPrefix arguments =
      (parseJsonStringPrefix ('"' :: part)).map fun parsed => String.ofList parsed.1 := by
  have hshape : text.head ++ '"' :: part = text.lead ++ '\x7b' :: (text.beforeKey ++ '"' :: (written text.key ++
      '"' :: (text.afterKey ++ ':' :: (text.beforeValue ++ '"' :: part)))) := by
    simp [head, inside]
  have hbrace : trimStartList arguments.toList = '\x7b' :: (text.beforeKey ++ '"' :: (written text.key ++
      '"' :: (text.afterKey ++ ':' :: (text.beforeValue ++ '"' :: part)))) := by
    rw [h, hshape, trimStartList_append text.blank_lead (by decide)]
  rw [partialWrapped_of_brace hbrace, trimStartList_append text.blank_beforeKey (by decide),
    parse_whole text.key_valid, Option.bind_some, inputAfterKey, if_neg (not_not.mpr text.key_spoken),
    trimStartList_append text.blank_afterKey (by decide)]
  change (parseJsonStringPrefix (trimStartList (text.beforeValue ++ '"' :: part))).map _ = _
  rw [trimStartList_append text.blank_beforeValue (by decide)]

inductive Shows (text : InputText) (part : List Char) : Option (List Char) → Prop
  | nothing : Shows text part none
  | growing (k : Nat) (hk : k ≤ text.value.length) (h : part = text.head ++ '"' :: written (text.value.take k)) :
      Shows text part (some (spoken (text.value.take k)))
  | whole (after : List Char) (h : part = text.head ++ '"' :: (written text.value ++ '"' :: after)) :
      Shows text part (some text.input)

theorem partialWrapped_shows (h : arguments.toList <+: text.toList) :
    ∃ shown, Shows text arguments.toList shown ∧
      partialWrappedInputPrefix arguments = shown.map String.ofList := by
  rcases prefix_append_cons_cases h with hhead | ⟨part, harguments, hpart⟩
  · exact ⟨none, .nothing, partialWrapped_of_head hhead⟩
  · have hvalue := partialWrapped_of_value harguments
    cases beginning_of_prefix hpart with
    | growing k hle hk =>
      rw [hk, parse_growing (text.value_valid.take k)] at hvalue
      exact ⟨_, .growing k hle (by rw [harguments, hk]), hvalue⟩
    | cut k char begun hchar hbegun hnil hwhole hk =>
      rw [hk, parse_cut (text.value_valid.take k) (text.value_valid char hchar) hbegun hnil hwhole] at hvalue
      exact ⟨none, .nothing, hvalue⟩
    | whole after hafter hk =>
      rw [hk, parse_whole text.value_valid] at hvalue
      exact ⟨_, .whole after (by rw [harguments, hk]), hvalue⟩

theorem partialWrapped_growing (k : Nat) (h : arguments.toList = text.head ++ '"' :: written (text.value.take k)) :
    partialWrappedInputPrefix arguments = some (String.ofList (spoken (text.value.take k))) := by
  rw [partialWrapped_of_value h, parse_growing (text.value_valid.take k)]
  rfl

theorem partialWrapped_whole {after : List Char}
    (h : arguments.toList = text.head ++ '"' :: (written text.value ++ '"' :: after)) :
    partialWrappedInputPrefix arguments = some (String.ofList text.input) := by
  rw [partialWrapped_of_value h, parse_whole text.value_valid]
  rfl

end InputText

end MochiPort

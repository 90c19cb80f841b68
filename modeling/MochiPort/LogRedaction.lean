import MochiPort.EncryptedContent
import MochiPort.JsonRewriting
import MochiPort.ProgressTexts

namespace MochiPort

open ByteLines Option RustText

def redactedText : String := "<redacted>"

def normalizedSensitiveName (value : String) : String :=
  String.ofList ((value.toList.filter Char.isAlphanum).map Char.toLower)

def isSensitiveName (name : String) : Bool :=
  let normalized := normalizedSensitiveName name
  let endsWith (ending : String) : Bool := ending.toList.isSuffixOf normalized.toList
  ["authorization", "proxyauthorization", "cookie", "setcookie", "password", "secret", "token"].contains normalized ||
    contains normalized "authorization" || contains normalized "apikey" ||
    ["cookie", "token", "secret", "password", "credential"].any endsWith ||
    (endsWith "key" && ["access", "api", "auth", "client", "credential", "provider", "secret", "subscription"].any
      (contains normalized))

def isUnstructuredErrorKey (key : String) : Bool :=
  ["detail", "error", "errordetail", "errormessage", "message"].contains (normalizedSensitiveName key)

def credentialMarkers : List String :=
  ["authorization", "bearer ", "api key", "api-key", "api_key", "apikey", "credential", "password", "secret", "token=",
    "token:", "x-api-key", "x-auth-token", "x-client-secret"]

def secretStarts : List String := ["sk-", "ghp_", "github_pat_", "xoxb-", "xoxp-"]

def redactUnstructuredText (text : String) : String :=
  let lower := toAsciiLowercase text
  -- words end at blanks, quotation marks and these signs
  let separates (c : Char) : Bool :=
    isWhitespace c || c.toNat == 0x22 || c.toNat == 0x27 || [',', ';', '(', ')', '[', ']'].contains c
  if credentialMarkers.any (contains lower) ||
      (lower.toList.splitOnP separates).any fun word => secretStarts.any fun start => start.toList.isPrefixOf word then
    redactedText
  else text

section

variable (codec : JsonCodec)

mutual

/-- A JSON text in a string may hold strings with JSON texts in turn; the rounds are as many as they are deep. -/
def redactValue : Nat → JsonValue → Option JsonValue
  | 0, _ => none
  | fuel + 1, .object fields =>
    let redactField (field : String × JsonValue) : Option JsonValue :=
      if isSensitiveName field.1 then some (.string redactedText)
      else
        match field.2 with
        | .string text =>
          if isUnstructuredErrorKey field.1 then some (.string (redactUnstructuredText text))
          else (redactText fuel text).map .string
        | value => redactValue fuel value
    (fields.mapM fun field => (redactField field).map fun value => (field.1, value)).map .object
  | fuel + 1, .array values => (values.mapM fun value => redactValue fuel value).map .array
  | _ + 1, .string text => some (.string (redactUnstructuredText text))
  | _ + 1, value => some value

def redactText : Nat → String → Option String
  | 0, _ => none
  | fuel + 1, text =>
    match codec.parse text with
    | some value =>
      (redactValue fuel value).map fun redacted => if redacted = value then text else codec.print redacted
    | none =>
      let redactLine (line : String) : Option (String × Bool) :=
        match (stripStart line "data:").bind fun payload => codec.parse (trim payload) with
        | none => some (line, false)
        | some value => (redactValue fuel value).map fun value => ("data: " ++ codec.print value, true)
      ((RustText.lines text).mapM redactLine).map fun lines =>
        if lines.any Prod.snd then redactUnstructuredText ("\n".intercalate (lines.map Prod.fst))
        else redactUnstructuredText text

end

def redactEmbeddedJson (text : String) : String := (redactText codec (text.length + 1) text).getD redactedText

end

theorem mapM_isSome {α β : Type} {f : α → Option β} {as : List α} (h : ∀ a ∈ as, (f a).isSome) :
    (as.mapM f).isSome := by
  induction as with
  | nil => rfl
  | cons a as ih =>
    obtain ⟨b, hb⟩ := isSome_iff_exists.mp (h a List.mem_cons_self)
    obtain ⟨bs, hbs⟩ := isSome_iff_exists.mp (ih fun a' ha' => h a' (List.mem_cons_of_mem a ha'))
    simp [List.mapM_cons, hb, hbs]

theorem length_trim_le (s : String) : (trim s).length ≤ s.length := by
  let started := s.toList.dropWhile isWhitespace
  have hstart := (List.dropWhile_suffix isWhitespace (l := s.toList)).length_le
  have hend := (List.dropWhile_suffix isWhitespace (l := started.reverse)).length_le
  simp only [trim, String.length_ofList, List.length_reverse, String.length_toList, started] at hend hstart ⊢
  omega

theorem length_line_le {s line : String} (h : line ∈ RustText.lines s) : line.length ≤ s.length := by
  have hjoined := join_cut '\n' s.toList
  rcases List.mem_append.mp h with h | h
  · obtain ⟨ended, hended, rfl⟩ := List.mem_map.mp h
    have hinfix : ended <:+: join '\n' (cut '\n' s.toList).1 (cut '\n' s.toList).2 :=
      mem_join_infix hended
    have hle := hinfix.length_le
    rw [hjoined, String.length_toList] at hle
    unfold withoutCr
    split <;> simp only [String.length_ofList, List.length_dropLast] <;> omega
  · have hle := (join_suffix '\n' (cut '\n' s.toList).1 (cut '\n' s.toList).2).length_le
    rw [hjoined, String.length_toList] at hle
    split at h
    · cases h
    · obtain rfl := List.mem_singleton.mp h
      simpa using hle

theorem redact_isSome {codec : JsonCodec}
    (hcodec : ∀ text value, codec.parse text = some value → value.weight ≤ text.length) (fuel : Nat) :
    (∀ value : JsonValue, value.weight ≤ fuel → (redactValue codec fuel value).isSome) ∧
      ∀ text : String, text.length < fuel → (redactText codec fuel text).isSome := by
  induction fuel with
  | zero =>
    constructor
    · intro value h
      have hpos := value.weight_pos
      omega
    · intro text h
      omega
  | succ fuel ih =>
    obtain ⟨ihvalue, ihtext⟩ := ih
    constructor
    · intro value h
      cases value with
      | object fields =>
        rw [redactValue, isSome_map]
        refine mapM_isSome fun field hfield => ?_
        have hlt := JsonValue.weight_lt_object hfield
        rw [isSome_map]
        beta_reduce
        split
        · rfl
        · split
          next text heq =>
            rw [heq, JsonValue.weight] at hlt
            split
            · rfl
            · rw [isSome_map]
              exact ihtext text (by omega)
          next => exact ihvalue field.2 (by omega)
      | array values =>
        rw [redactValue, isSome_map]
        refine mapM_isSome fun value hvalue => ihvalue value ?_
        have hlt := JsonValue.weight_lt_array hvalue
        omega
      | _ => rfl
    · intro text h
      rw [redactText]
      split
      next value hvalue =>
        have hle := hcodec text value hvalue
        rw [isSome_map]
        exact ihvalue value (by omega)
      next =>
        rw [isSome_map]
        refine mapM_isSome fun line hline => ?_
        split
        · rfl
        next value hvalue =>
          obtain ⟨payload, hpayload, hvalue⟩ := bind_eq_some_iff.mp hvalue
          have hle := hcodec _ value hvalue
          have htrim := length_trim_le payload
          have hline := length_line_le hline
          have hstrip : payload.length ≤ line.length := by
            unfold stripStart at hpayload
            split at hpayload
            · obtain rfl := Option.some.inj hpayload
              have hdrop := List.length_drop (l := line.toList) (i := "data:".toList.length)
              have hlength : line.toList.length = line.length := String.length_toList
              rw [String.length_ofList]
              omega
            · cases hpayload
          rw [isSome_map]
          exact ihvalue value (by omega)

/-- A body with a JSON text in a string, as it is logged and as it is read. -/
def nestedCodec : JsonCodec where
  parse text :=
    if text = "\x7b\"data\":\"\x7b\\\"token\\\":\\\"t\\\"\x7d\"\x7d" then
      some (.object [("data", .string "\x7b\"token\":\"t\"\x7d")])
    else if text = "\x7b\"token\":\"t\"\x7d" then some (.object [("token", .string "t")])
    else none
  print value :=
    if value = .object [("token", .string redactedText)] then "\x7b\"token\":\"<redacted>\"\x7d"
    else if value = .object [("data", .string "\x7b\"token\":\"<redacted>\"\x7d")] then
      "\x7b\"data\":\"\x7b\\\"token\\\":\\\"<redacted>\\\"\x7d\"\x7d"
    else ""

theorem redact_isSome_nested :
    (redactText nestedCodec 31 "\x7b\"data\":\"\x7b\\\"token\\\":\\\"t\\\"\x7d\"\x7d").isSome ∧
      redactEmbeddedJson nestedCodec "\x7b\"data\":\"\x7b\\\"token\\\":\\\"t\\\"\x7d\"\x7d" =
        "\x7b\"data\":\"\x7b\\\"token\\\":\\\"<redacted>\\\"\x7d\"\x7d" := by
  have hcodec : ∀ text value, nestedCodec.parse text = some value → value.weight ≤ text.length := by
    intro text value h
    simp only [nestedCodec] at h
    split at h
    next htext =>
      cases h
      rw [htext]
      decide +kernel
    next =>
      obtain ⟨htext, h⟩ := ite_none_right_eq_some.mp h
      cases h
      rw [htext]
      decide +kernel
  exact ⟨(redact_isSome hcodec 31).2 _ (by decide +kernel), by decide +kernel⟩

end MochiPort

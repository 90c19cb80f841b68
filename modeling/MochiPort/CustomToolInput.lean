import MochiPort.JsonValues
import MochiPort.RustText

namespace MochiPort

def stringInput (value : JsonValue) : Option String := (value.get "input").bind JsonValue.asStr

def completedCustomToolInput (codec : JsonCodec) (arguments : String) : String :=
  ((codec.parse arguments).bind stringInput).getD arguments

def parseCustomToolInput (codec : JsonCodec) (arguments : String) : Option String :=
  (codec.parse arguments).bind stringInput

def trimStartList (input : List Char) : List Char := input.dropWhile RustText.isWhitespace

def hexValue (c : Char) : Option Nat :=
  if '0' ≤ c ∧ c ≤ '9' then some (c.toNat - 48)
  else if 'a' ≤ c ∧ c ≤ 'f' then some (c.toNat - 87)
  else if 'A' ≤ c ∧ c ≤ 'F' then some (c.toNat - 55)
  else none

def hexDigits (digits : List Char) : Option Nat :=
  digits.foldl (fun value c => value.bind fun n => (hexValue c).map fun d => 16 * n + d) (some 0)

/-- Four digits; the parser of numbers takes a plus sign for the first of them. -/
def readHexU16 (input : List Char) : Option Nat :=
  if (input.take 4).length < 4 then none
  else
    match input.take 4 with
    | '+' :: digits => hexDigits digits
    | digits => hexDigits digits

def charFromU32 (code : Nat) : Option Char :=
  if code < 0xd800 ∨ 0xdfff < code ∧ code < 0x110000 then some (Char.ofNat code) else none

/-- The character of an escape whose digits come first in the input, and what follows. -/
def decodeJsonUnicodeEscape (input : List Char) : Option (Char × List Char) :=
  (readHexU16 input).bind fun first =>
    if 0xd800 ≤ first ∧ first ≤ 0xdbff then
      if (input.drop 4).take 2 = ['\\', 'u'] then
        (readHexU16 (input.drop 6)).bind fun second =>
          if 0xdc00 ≤ second ∧ second ≤ 0xdfff then
            (charFromU32 (0x10000 + (((first - 0xd800) <<< 10) ||| (second - 0xdc00)))).map (·, input.drop 10)
          else none
      else none
    else (charFromU32 first).map (·, input.drop 4)

def unescape (escaped : Char) : Char :=
  match escaped with
  | 'b' => '\x08'
  | 'f' => '\x0c'
  | 'n' => '\n'
  | 'r' => '\r'
  | 't' => '\t'
  | c => c

/-- The text of a string that may still be growing, from behind its opening quote, and what follows. Each round
reads at least one character, so the length of the input is fuel enough. -/
def stringPrefixLoop : Nat → List Char → List Char → Option (List Char × List Char)
  | 0, output, _ => some (output, [])
  | _ + 1, output, [] => some (output, [])
  | _ + 1, output, '"' :: rest => some (output, rest)
  | _ + 1, _, ['\\'] => none
  | fuel + 1, output, '\\' :: escaped :: rest =>
    if escaped = 'u' then
      (decodeJsonUnicodeEscape rest).bind fun (c, after) => stringPrefixLoop fuel (output ++ [c]) after
    else stringPrefixLoop fuel (output ++ [unescape escaped]) rest
  | fuel + 1, output, c :: rest => stringPrefixLoop fuel (output ++ [c]) rest

def parseJsonStringPrefix (input : List Char) : Option (List Char × List Char) :=
  match input with
  | '"' :: rest => stringPrefixLoop rest.length [] rest
  | _ => none

def partialWrappedInputPrefix (arguments : String) : Option String :=
  match trimStartList arguments.toList with
  | '\x7b' :: rest =>
    (parseJsonStringPrefix (trimStartList rest)).bind fun (key, afterKey) =>
      if key ≠ "input".toList then none
      else
        match trimStartList afterKey with
        | ':' :: value => (parseJsonStringPrefix (trimStartList value)).map fun parsed => String.ofList parsed.1
        | _ => none
  | _ => none

/-- The input as far as it can be read off arguments that may still be growing. -/
def partialCustomToolInput (codec : JsonCodec) (arguments : String) : Option String :=
  (parseCustomToolInput codec arguments).or (partialWrappedInputPrefix arguments)

end MochiPort

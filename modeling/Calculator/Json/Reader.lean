/-
**Reading structured values from text.**

The text of a value may have blanks around every token.  Strings may not hold control characters and
have the usual escapes; two escapes that are the halves of one character are read as that character.
Besides the finite numbers three words for numbers that are not finite are accepted.

Readers take the text that remains and return what they found with the text that then remains.

Main definitions:

* `Calculator.Json.stringBody`, `Calculator.Json.numeral` — the readers of strings and numbers;
* `Calculator.Json.value` — the reader of any value;
* `Calculator.Json.ofText?` — the value of a whole text.
-/

import Calculator.Double.Shortest
import Calculator.Json.Basic

namespace Calculator.Json

/-- What is read, and the text that remains. -/
abbrev Found (α : Type) := Option (α × List Char)

/-! ### Blanks -/

/-- The characters between tokens. -/
def isBlank (c : Char) : Bool := c == ' ' || c == '\t' || c == '\n' || c == '\r'

/-- The text from the next token on. -/
def skipBlanks (text : List Char) : List Char := text.dropWhile isBlank

/-! ### Strings -/

/-- The value of a hexadecimal digit. -/
def hexDigit? (c : Char) : Option Nat :=
  if '0' ≤ c ∧ c ≤ '9' then some (c.toNat - 48)
  else if 'a' ≤ c ∧ c ≤ 'f' then some (c.toNat - 87)
  else if 'A' ≤ c ∧ c ≤ 'F' then some (c.toNat - 55)
  else none

/-- The value of four hexadecimal digits. -/
def hexDigits? (a b c d : Char) : Option Nat :=
  match hexDigit? a, hexDigit? b, hexDigit? c, hexDigit? d with
  | some a, some b, some c, some d => some (((a * 16 + b) * 16 + c) * 16 + d)
  | _, _, _, _ => none

/-- The character that a single letter stands for after a backslash. -/
def escape? : Char → Option Nat
  | '"' => some 0x22
  | '\\' => some 0x5c
  | '/' => some 0x2f
  | 'b' => some 0x08
  | 'f' => some 0x0c
  | 'n' => some 0x0a
  | 'r' => some 0x0d
  | 't' => some 0x09
  | _ => none

/-- The numbers of the characters up to the closing quote. -/
def stringBody : List Char → Found (List Nat)
  | [] => none
  | '"' :: rest => some ([], rest)
  | '\\' :: 'u' :: a :: b :: c :: d :: rest =>
      match hexDigits? a b c d, stringBody rest with
      | some n, some (more, rest) => some (n :: more, rest)
      | _, _ => none
  | '\\' :: letter :: rest =>
      match escape? letter, stringBody rest with
      | some n, some (more, rest) => some (n :: more, rest)
      | _, _ => none
  | c :: rest =>
      if c.toNat < 0x20 ∨ c = '\\' then none
      else
        match stringBody rest with
        | some (more, rest) => some (c.toNat :: more, rest)
        | none => none

/-- The first half of a character beyond the first 65536. -/
def isHighHalf (n : Nat) : Bool := 0xd800 ≤ n && n < 0xdc00

/-- The second half of a character beyond the first 65536. -/
def isLowHalf (n : Nat) : Bool := 0xdc00 ≤ n && n < 0xe000

/-- Characters by their numbers, halves being joined.  A half without its partner gives the
replacement character. -/
def joinHalves : List Nat → List Char
  | [] => []
  | [n] => [if isHighHalf n || isLowHalf n then '\ufffd' else Char.ofNat n]
  | m :: n :: rest =>
      if isHighHalf m && isLowHalf n then
        Char.ofNat (0x10000 + (m - 0xd800) * 0x400 + (n - 0xdc00)) :: joinHalves rest
      else if isHighHalf m || isLowHalf m then '\ufffd' :: joinHalves (n :: rest)
      else Char.ofNat m :: joinHalves (n :: rest)

/-- A string, after its opening quote. -/
def quotedString (text : List Char) : Found String :=
  match stringBody text with
  | some (numbers, rest) => some (String.ofList (joinHalves numbers), rest)
  | none => none

/-! ### Numbers -/

/-- Digits and the text after them. -/
def digits (text : List Char) : List Char × List Char :=
  (text.takeWhile Char.isDigit, text.dropWhile Char.isDigit)

/-- Digits after a point, if at least one follows it. -/
def fraction (text : List Char) : List Char × List Char :=
  match text with
  | '.' :: rest => if (digits rest).1 = [] then ([], text) else digits rest
  | _ => ([], text)

/-- An exponent, if at least one digit follows its letter and sign. -/
def exponent (text : List Char) : Option Int × List Char :=
  let signed (sign : Int) (rest : List Char) : Option Int × List Char :=
    let (ds, after) := digits rest
    if ds = [] then (none, text) else (some (sign * Nat.ofDigitChars 10 ds 0), after)
  match text with
  | 'e' :: '+' :: rest | 'E' :: '+' :: rest => signed 1 rest
  | 'e' :: '-' :: rest | 'E' :: '-' :: rest => signed (-1) rest
  | 'e' :: rest | 'E' :: rest => signed 1 rest
  | _ => (none, text)

/-- The most digits that an integer may have. -/
def maxIntegerDigits : Nat := 4300

/-- The double with the given digits and exponent.  An exponent so large that no double has it, or
so small, may stand for any other such exponent. -/
def double (negative : Bool) (digits : List Char) (exponent : Int) : Double :=
  let extreme : Int := 400 + digits.length
  .ofDecimal negative ⟨Nat.ofDigitChars 10 digits 0, max (-extreme) (min extreme exponent)⟩

/-- A numeral without sign: no leading zero before other digits.  With neither a fraction nor an
exponent it is an integer, and otherwise a double. -/
def numeral (negative : Bool) (text : List Char) : Found Json :=
  let (whole, rest) :=
    match text with
    | '0' :: rest => (['0'], rest)
    | _ => digits text
  if whole = [] then none
  else
    let (places, rest) := fraction rest
    match places, exponent rest with
    | [], (none, rest) =>
        if maxIntegerDigits < whole.length then none
        else some (.integer (signed negative (Nat.ofDigitChars 10 whole 0)), rest)
    | _, (power, rest) =>
        some (.real (double negative (whole ++ places) (power.getD 0 - places.length)), rest)

/-! ### Values -/

/-- The words that stand for values. -/
def words : List (List Char × Json) :=
  [("null".toList, .null), ("true".toList, .bool true), ("false".toList, .bool false),
    ("NaN".toList, .real .nan), ("Infinity".toList, .real (.infinite false)),
    ("-Infinity".toList, .real (.infinite true))]

/-- A value by its word. -/
def word (text : List Char) : Found Json :=
  words.findSome? fun (spelling, meaning) =>
    if spelling.isPrefixOf text then some (meaning, text.drop spelling.length) else none

/-- The items of an array up to its closing bracket.  The first argument bounds their number. -/
def items (item : List Char → Found Json) : Nat → List Char → Found (List Json)
  | 0, _ => none
  | bound + 1, text =>
      match item text with
      | none => none
      | some (first, rest) =>
          match skipBlanks rest with
          | ']' :: rest => some ([first], rest)
          | ',' :: rest =>
              match items item bound rest with
              | some (more, rest) => some (first :: more, rest)
              | none => none
          | _ => none

/-- A member of an object: a name, a colon and a value. -/
def member (item : List Char → Found Json) (text : List Char) : Found (String × Json) :=
  match skipBlanks text with
  | '"' :: rest =>
      match quotedString rest with
      | none => none
      | some (name, rest) =>
          match skipBlanks rest with
          | ':' :: rest =>
              match item rest with
              | some (value, rest) => some ((name, value), rest)
              | none => none
          | _ => none
  | _ => none

/-- The members of an object up to its closing brace.  The first argument bounds their number. -/
def members (item : List Char → Found Json) : Nat → List Char → Found (List (String × Json))
  | 0, _ => none
  | bound + 1, text =>
      match member item text with
      | none => none
      | some (first, rest) =>
          match skipBlanks rest with
          | '}' :: rest => some ([first], rest)
          | ',' :: rest =>
              match members item bound rest with
              | some (more, rest) => some (first :: more, rest)
              | none => none
          | _ => none

/-- Any value.  The first argument bounds the depth of nesting. -/
def value : Nat → List Char → Found Json
  | 0, _ => none
  | depth + 1, text =>
      match skipBlanks text with
      | '"' :: rest => (quotedString rest).map fun (s, rest) => (.string s, rest)
      | '[' :: rest =>
          match skipBlanks rest with
          | ']' :: rest => some (.array [], rest)
          | _ => (items (value depth) rest.length rest).map fun (js, rest) => (.array js, rest)
      | '{' :: rest =>
          match skipBlanks rest with
          | '}' :: rest => some (.object [], rest)
          | _ => (members (value depth) rest.length rest).map fun (ms, rest) => (.object ms, rest)
      | rest =>
          match word rest, rest with
          | some found, _ => some found
          | none, '-' :: rest => numeral true rest
          | none, rest => numeral false rest

/-- The value of a whole text, if it is one. -/
def ofText? (text : String) : Option Json :=
  let chars := text.toList
  match value (chars.length + 1) chars with
  | some (json, rest) => if skipBlanks rest = [] then some json else none
  | none => none

end Calculator.Json

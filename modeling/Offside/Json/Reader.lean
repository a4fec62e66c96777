import Offside.Json.Value
import Offside.Text.Numeral

/-! # Reading JSON

    The reader takes one value from a text and refuses whatever follows it
    but white space.  Each function returns what it read together with the
    rest of the text; a text that is not JSON reads as nothing.

    Where the content of strings does not matter they need not make sense as
    text: their escape sequences are checked one by one only, and they read
    as empty. -/

namespace Offside.Json

/-- The white space of JSON. -/
def isBlank (c : Char) : Bool := c == ' ' || c == '\t' || c == '\n' || c == '\r'

/-- The text after leading white space. -/
def skipBlank (cs : List Char) : List Char := cs.dropWhile isBlank

/-- The value of a hexadecimal digit. -/
def hexDigit? (c : Char) : Option Nat :=
  if '0' ≤ c && c ≤ '9' then some (c.toNat - '0'.toNat)
  else if 'a' ≤ c && c ≤ 'f' then some (c.toNat - 'a'.toNat + 10)
  else if 'A' ≤ c && c ≤ 'F' then some (c.toNat - 'A'.toNat + 10)
  else none

/-- The value of four hexadecimal digits. -/
def hexQuad? (a b c d : Char) : Option Nat :=
  match hexDigit? a, hexDigit? b, hexDigit? c, hexDigit? d with
  | some a, some b, some c, some d => some (((a * 16 + b) * 16 + c) * 16 + d)
  | _, _, _, _ => none

/-- Whether a code unit is the first half of a pair. -/
def isHighHalf (n : Nat) : Bool := 0xd800 ≤ n && n < 0xdc00

/-- Whether a code unit is the second half of a pair. -/
def isLowHalf (n : Nat) : Bool := 0xdc00 ≤ n && n < 0xe000

/-- The character that a backslash and a letter stand for. -/
def shortEscape? : Char → Option Char
  | '"' => some '"'
  | '\\' => some '\\'
  | '/' => some '/'
  | 'b' => some '\x08'
  | 'f' => some '\x0c'
  | 'n' => some '\n'
  | 'r' => some '\r'
  | 't' => some '\t'
  | _ => none

/-- Read the characters of a string up to its closing quote.  `half` is the
    first half of a pair when its second half must come next; the last
    argument holds the characters already read, last first. -/
def readChars : Option Nat → List Char → List Char → Option (String × List Char)
  | none, '"' :: rest, done => some (String.ofList done.reverse, rest)
  | half, '\\' :: 'u' :: a :: b :: c :: d :: rest, done =>
      match half, hexQuad? a b c d with
      | _, none => none
      | some high, some low =>
          if isLowHalf low then
            let code := 0x10000 + (high - 0xd800) * 0x400 + (low - 0xdc00)
            readChars none rest (Char.ofNat code :: done)
          else
            none
      | none, some n =>
          if isHighHalf n then readChars (some n) rest done
          else if isLowHalf n then none
          else readChars none rest (Char.ofNat n :: done)
  | none, '\\' :: e :: rest, done =>
      match shortEscape? e with
      | none => none
      | some c => readChars none rest (c :: done)
  | none, c :: rest, done => if c.toNat < 0x20 then none else readChars none rest (c :: done)
  | none, [], _ => none
  | some _, _, _ => none

/-- The text after the closing quote of a string. -/
def skipChars : List Char → Option (List Char)
  | '"' :: rest => some rest
  | '\\' :: 'u' :: a :: b :: c :: d :: rest =>
      if (hexQuad? a b c d).isSome then skipChars rest else none
  | '\\' :: e :: rest => if (shortEscape? e).isSome then skipChars rest else none
  | c :: rest => if c.toNat < 0x20 then none else skipChars rest
  | [] => none

/-- Read a string after its opening quote; `matters` tells whether its
    content does. -/
def readContent (matters : Bool) (cs : List Char) : Option (String × List Char) :=
  if matters then readChars none cs [] else (skipChars cs).map ("", ·)

/-- Read a string with its opening quote. -/
def readString (matters : Bool) : List Char → Option (String × List Char)
  | '"' :: rest => readContent matters rest
  | _ => none

/-- The digits of an integer part: a single zero, or digits that do not
    start with one. -/
def readIntegerPart : List Char → Option (List Char × List Char)
  | '0' :: rest =>
      match rest with
      | c :: _ => if Text.isDecimal c then none else some (['0'], rest)
      | [] => some (['0'], rest)
  | cs =>
      let (digits, rest) := cs.span Text.isDecimal
      if digits.isEmpty then none else some (digits, rest)

/-- The fraction of a number with its point, empty if there is none. -/
def readFraction : List Char → Option (List Char × List Char)
  | '.' :: cs =>
      let (digits, rest) := cs.span Text.isDecimal
      if digits.isEmpty then none else some ('.' :: digits, rest)
  | cs => some ([], cs)

/-- The exponent of a number with its letter, empty if there is none. -/
def readExponent : List Char → Option (List Char × List Char)
  | e :: cs =>
      if e == 'e' || e == 'E' then
        let (sign, cs) := match cs with
          | '+' :: cs => (['+'], cs)
          | '-' :: cs => (['-'], cs)
          | cs => ([], cs)
        let (digits, rest) := cs.span Text.isDecimal
        if digits.isEmpty then none else some (e :: (sign ++ digits), rest)
      else
        some ([], e :: cs)
  | [] => some ([], [])

/-- The value of a number from its sign, its digits and what follows them. -/
def ofNumeral (negative : Bool) (digits tail : List Char) : Json :=
  let n := Text.decimalsValue digits
  let literal := String.ofList ((if negative then ['-'] else []) ++ digits ++ tail)
  if !tail.isEmpty then .real literal
  else if negative then
    if n = 0 || 0x8000_0000_0000_0000 < n then .real literal else .integer (-(n : Int))
  else if n < Text.wordLimit then .integer n
  else .real literal

/-- Read a number. -/
def readNumber (cs : List Char) : Option (Json × List Char) :=
  let (negative, cs) := match cs with
    | '-' :: cs => (true, cs)
    | cs => (false, cs)
  match readIntegerPart cs with
  | none => none
  | some (digits, cs) =>
      match readFraction cs with
      | none => none
      | some (fraction, cs) =>
          match readExponent cs with
          | none => none
          | some (exponent, cs) => some (ofNumeral negative digits (fraction ++ exponent), cs)

/-- The names of all members. -/
def everyName (_ : String) : Bool := true

mutual

/-- Read a value.  Of an object the content of members matters whose names
    are known.  Every call takes a character or ends, so the length of the
    text bounds the depth of the calls. -/
def readValue (matters : Bool) (known : String → Bool) :
    Nat → List Char → Option (Json × List Char)
  | 0, _ => none
  | fuel + 1, cs =>
      match skipBlank cs with
      | 'n' :: 'u' :: 'l' :: 'l' :: rest => some (.null, rest)
      | 't' :: 'r' :: 'u' :: 'e' :: rest => some (.bool true, rest)
      | 'f' :: 'a' :: 'l' :: 's' :: 'e' :: rest => some (.bool false, rest)
      | '"' :: rest => (readContent matters rest).map fun (s, rest) => (.string s, rest)
      | '[' :: rest =>
          match skipBlank rest with
          | ']' :: rest => some (.array [], rest)
          | rest => (readItems matters fuel rest).map fun (items, rest) => (.array items, rest)
      | '\x7b' :: rest =>
          match skipBlank rest with
          | '\x7d' :: rest => some (.object [], rest)
          | rest =>
              (readMembers matters known fuel rest).map fun (members, rest) =>
                (.object members, rest)
      | rest => readNumber rest

/-- Read the items of an array up to its closing bracket. -/
def readItems (matters : Bool) : Nat → List Char → Option (List Json × List Char)
  | 0, _ => none
  | fuel + 1, cs =>
      match readValue matters everyName fuel cs with
      | none => none
      | some (item, rest) =>
          match skipBlank rest with
          | ']' :: rest => some ([item], rest)
          | ',' :: rest =>
              (readItems matters fuel rest).map fun (items, rest) => (item :: items, rest)
          | _ => none

/-- Read the members of an object up to its closing brace. -/
def readMembers (matters : Bool) (known : String → Bool) :
    Nat → List Char → Option (List (String × Json) × List Char)
  | 0, _ => none
  | fuel + 1, cs =>
      match readString matters (skipBlank cs) with
      | none => none
      | some (key, rest) =>
          match skipBlank rest with
          | ':' :: rest =>
              match readValue (matters && known key) everyName fuel rest with
              | none => none
              | some (value, rest) =>
                  match skipBlank rest with
                  | '\x7d' :: rest => some ([(key, value)], rest)
                  | ',' :: rest =>
                      (readMembers matters known fuel rest).map fun (members, rest) =>
                        ((key, value) :: members, rest)
                  | _ => none
          | _ => none

end

/-- The value that a text spells.  If it is an object, the content of
    members with other than the known names does not matter. -/
def read? (known : String → Bool) (text : String) : Option Json :=
  let cs := text.toList
  match readValue true known (2 * cs.length + 2) cs with
  | none => none
  | some (value, rest) => if (skipBlank rest).isEmpty then some value else none

end Offside.Json

import Offside.Toml.Value

/-! # TOML scalars — strings, numbers, dates and times -/

namespace Offside.Toml

/-- Blanks within a line. -/
def isBlank (c : Char) : Bool := c == ' ' || c == '\t'

/-- Characters that may stand in a comment or in a quoted text: no control
    character but the tab. -/
def isPlain (c : Char) : Bool := c == '\t' || (0x20 ≤ c.toNat && c.toNat != 0x7f)

/-- The text after a line break, if it starts with one. -/
def afterNewline : List Char → Option (List Char)
  | '\n' :: cs => some cs
  | '\r' :: '\n' :: cs => some cs
  | _ => none

/-! ## Strings -/

/-- The value of a hexadecimal digit. -/
def hexDigit? (c : Char) : Option Nat :=
  if '0' ≤ c && c ≤ '9' then some (c.toNat - '0'.toNat)
  else if 'a' ≤ c && c ≤ 'f' then some (c.toNat - 'a'.toNat + 10)
  else if 'A' ≤ c && c ≤ 'F' then some (c.toNat - 'A'.toNat + 10)
  else none

/-- The character whose code point is written in hexadecimal digits. -/
def codePoint? (digits : List Char) : Option Char :=
  match digits.foldlM (fun n c => (hexDigit? c).map fun d => 16 * n + d) 0 with
  | none => none
  | some n => if n.isValidChar then some (Char.ofNat n) else none

/-- Read what follows a backslash. -/
def readEscape : List Char → Option (Char × List Char)
  | 'b' :: cs => some ('\x08', cs)
  | 't' :: cs => some ('\t', cs)
  | 'n' :: cs => some ('\n', cs)
  | 'f' :: cs => some ('\x0c', cs)
  | 'r' :: cs => some ('\r', cs)
  | '"' :: cs => some ('"', cs)
  | '\\' :: cs => some ('\\', cs)
  | 'u' :: cs =>
      if cs.length < 4 then none else (codePoint? (cs.take 4)).map (·, cs.drop 4)
  | 'U' :: cs =>
      if cs.length < 8 then none else (codePoint? (cs.take 8)).map (·, cs.drop 8)
  | _ => none

/-- Read a text in double quotes after the opening one. -/
def readBasic : Nat → List Char → List Char → Option (String × List Char)
  | 0, _, _ => none
  | fuel + 1, done, cs =>
      match cs with
      | [] => none
      | '"' :: rest => some (String.ofList done.reverse, rest)
      | '\\' :: rest =>
          match readEscape rest with
          | none => none
          | some (c, rest) => readBasic fuel (c :: done) rest
      | c :: rest => if isPlain c then readBasic fuel (c :: done) rest else none

/-- Read a text in single quotes after the opening one. -/
def readLiteral (cs : List Char) : Option (String × List Char) :=
  match cs.span (· != '\'') with
  | (text, '\'' :: rest) => if text.all isPlain then some (String.ofList text, rest) else none
  | _ => none

/-- The quotes at the end of a text over several lines: with three of them
    the text ends, and up to two more in front belong to it. -/
def closingQuotes (quote : Char) (cs : List Char) : Option (List Char × List Char) :=
  let (quotes, rest) := cs.span (· == quote)
  if quotes.length < 3 then none
  else if 5 < quotes.length then some (List.replicate 2 quote, cs.drop 5)
  else some (List.replicate (quotes.length - 3) quote, rest)

/-- The text after blanks and line breaks. -/
def skipBreaks : List Char → List Char
  | '\r' :: '\n' :: cs => skipBreaks cs
  | c :: cs => if isBlank c || c == '\n' then skipBreaks cs else c :: cs
  | [] => []

/-- The text after a backslash at the end of a line: all blanks and line
    breaks up to the next other character are left out. -/
def afterContinuation (cs : List Char) : Option (List Char) :=
  (afterNewline (cs.dropWhile isBlank)).map skipBreaks

/-- Read a text over several lines after its opening quotes. -/
def readLines (quote : Char) (escapes : Bool) : Nat → List Char → List Char →
    Option (String × List Char)
  | 0, _, _ => none
  | fuel + 1, done, cs =>
      match cs with
      | [] => none
      | c :: rest =>
          if c == quote then
            match closingQuotes quote cs with
            | some (inner, rest) => some (String.ofList (done.reverse ++ inner), rest)
            | none => readLines quote escapes fuel (c :: done) rest
          else if c == '\\' && escapes then
            match afterContinuation rest with
            | some rest => readLines quote escapes fuel done rest
            | none =>
                match readEscape rest with
                | none => none
                | some (c, rest) => readLines quote escapes fuel (c :: done) rest
          else
            match afterNewline cs with
            | some rest => readLines quote escapes fuel ('\n' :: done) rest
            | none => if isPlain c then readLines quote escapes fuel (c :: done) rest else none

/-- The text after a line break at its very start, which is left out. -/
def skipFirstNewline (cs : List Char) : List Char := (afterNewline cs).getD cs

/-- Read a quoted text of any kind, if there is one. -/
def readString (cs : List Char) : Option (String × List Char) :=
  let fuel := cs.length + 1
  match cs with
  | '"' :: '"' :: '"' :: rest => readLines '"' true fuel [] (skipFirstNewline rest)
  | '"' :: rest => readBasic fuel [] rest
  | '\'' :: '\'' :: '\'' :: rest => readLines '\'' false fuel [] (skipFirstNewline rest)
  | '\'' :: rest => readLiteral rest
  | _ => none

/-! ## Numbers -/

/-- Digits without the underscores between them; an underscore must stand
    between two digits. -/
def joinDigits? (isDigit : Char → Bool) : List Char → Option (List Char)
  | [] => none
  | [d] => if isDigit d then some [d] else none
  | d :: '_' :: e :: ds =>
      if isDigit d && isDigit e then (joinDigits? isDigit (e :: ds)).map (d :: ·) else none
  | d :: ds => if isDigit d then (joinDigits? isDigit ds).map (d :: ·) else none

/-- The sign of a number and the text after it. -/
def splitSign : List Char → Bool × List Char
  | '-' :: cs => (true, cs)
  | '+' :: cs => (false, cs)
  | cs => (false, cs)

/-- The digits of a whole part, which has no superfluous zero in front. -/
def wholeDigits? (cs : List Char) : Option (List Char) :=
  match joinDigits? Text.isDecimal cs with
  | some ('0' :: _ :: _) => none
  | ds => ds

/-- An integer that fits 64 bits. -/
def bounded? (n : Int) : Option Toml :=
  if -0x8000_0000_0000_0000 ≤ n ∧ n < 0x8000_0000_0000_0000 then some (.integer n) else none

/-- The value of digits to a base. -/
def digitsValue (base : Nat) (ds : List Char) : Nat :=
  ds.foldl (fun n d => base * n + (hexDigit? d).getD 0) 0

/-- An integer with a mark for its base. -/
def basedInteger? (base : Nat) (cs : List Char) : Option Toml :=
  (joinDigits? (fun c => (hexDigit? c).any (· < base)) cs).bind fun ds =>
    bounded? (digitsValue base ds)

/-- An integer. -/
def integer? : List Char → Option Toml
  | '0' :: 'x' :: cs => basedInteger? 16 cs
  | '0' :: 'o' :: cs => basedInteger? 8 cs
  | '0' :: 'b' :: cs => basedInteger? 2 cs
  | cs =>
      let (negative, cs) := splitSign cs
      (wholeDigits? cs).bind fun ds =>
        let n : Int := Text.decimalsValue ds
        bounded? (if negative then -n else n)

/-- The exponent of a floating-point number. -/
def exponent? (cs : List Char) : Option Int :=
  let (negative, cs) := splitSign cs
  (joinDigits? Text.isDecimal cs).map fun ds =>
    let n : Int := Text.decimalsValue ds
    if negative then -n else n

/-- A floating-point number.  One that is too great is refused, unless it
    is negative. -/
def float? (cs : List Char) : Option Toml :=
  let (negative, cs) := splitSign cs
  match cs with
  | ['i', 'n', 'f'] => some (.float (.infinite negative))
  | ['n', 'a', 'n'] => some (.float .nan)
  | cs =>
      let (mantissa, tail) := cs.span fun c => c != 'e' && c != 'E'
      let (whole, part) := mantissa.span (· != '.')
      let fraction : Option (List Char) := match part with
        | [] => some []
        | _ :: ds => joinDigits? Text.isDecimal ds
      let exponent : Option Int := match tail with
        | [] => some 0
        | _ :: ds => exponent? ds
      match wholeDigits? whole, fraction, exponent with
      | some whole, some fraction, some exponent =>
          if part.isEmpty && tail.isEmpty then none
          else
            match Binary64.ofDecimal negative (Text.decimalsValue (whole ++ fraction))
                (exponent - fraction.length) with
            | .infinite false => none
            | x => some (.float x)
      | _, _, _ => none

/-! ## Dates and times -/

/-- The number of days of a month. -/
def daysIn (year month : Nat) : Nat :=
  if month = 2 then
    if year % 4 = 0 ∧ (year % 100 ≠ 0 ∨ year % 400 = 0) then 29 else 28
  else if month = 4 ∨ month = 6 ∨ month = 9 ∨ month = 11 then 30
  else 31

/-- The number that two digits spell. -/
def twoDigits? (a b : Char) : Option Nat :=
  if Text.isDecimal a && Text.isDecimal b then some (Text.decimalsValue [a, b]) else none

/-- Read a date. -/
def readDate : List Char → Option (List Char × List Char)
  | a :: b :: c :: d :: '-' :: e :: f :: '-' :: g :: h :: rest =>
      match twoDigits? a b, twoDigits? c d, twoDigits? e f, twoDigits? g h with
      | some century, some year, some month, some day =>
          if 1 ≤ month ∧ month ≤ 12 ∧ 1 ≤ day ∧ day ≤ daysIn (100 * century + year) month then
            some ([a, b, c, d, '-', e, f, '-', g, h], rest)
          else none
      | _, _, _, _ => none
  | _ => none

/-- The digits of a fraction of a second, nine at most and without zeros at
    the end. -/
def fractionText (ds : List Char) : List Char :=
  match ((ds.take 9).reverse.dropWhile (· == '0')).reverse with
  | [] => []
  | ds => '.' :: ds

/-- Read a time of day. -/
def readTime : List Char → Option (List Char × List Char)
  | a :: b :: ':' :: c :: d :: ':' :: e :: f :: rest =>
      match twoDigits? a b, twoDigits? c d, twoDigits? e f with
      | some hour, some minute, some second =>
          if hour < 24 ∧ minute < 60 ∧ second ≤ 60 then
            let time := [a, b, ':', c, d, ':', e, f]
            match rest with
            | '.' :: rest =>
                let (ds, rest) := rest.span Text.isDecimal
                if ds.isEmpty then none else some (time ++ fractionText ds, rest)
            | rest => some (time, rest)
          else none
      | _, _, _ => none
  | _ => none

/-- The offset from universal time, if a text is one. -/
def offset? : List Char → Option (List Char)
  | [] => some []
  | ['Z'] => some ['Z']
  | ['z'] => some ['Z']
  | [sign, a, b, ':', c, d] =>
      match twoDigits? a b, twoDigits? c d with
      | some hour, some minute =>
          if (sign == '+' || sign == '-') && hour < 24 && minute < 60 then
            let sign := if hour = 0 ∧ minute = 0 then '+' else sign
            some [sign, a, b, ':', c, d]
          else none
      | _, _ => none
  | _ => none

/-- A date, a time of day, or both. -/
def moment? (cs : List Char) : Option Toml :=
  match readDate cs with
  | some (date, []) => some (.string (String.ofList date))
  | some (date, separator :: rest) =>
      if separator == 'T' || separator == 't' || separator == ' ' then
        match readTime rest with
        | some (time, rest) =>
            (offset? rest).map fun offset =>
              .string (String.ofList (date ++ 'T' :: (time ++ offset)))
        | none => none
      else none
  | none =>
      match readTime cs with
      | some (time, []) => some (.string (String.ofList time))
      | _ => none

/-! ## Bare words -/

/-- The characters of numbers, dates and names without quotes. -/
def isBareChar (c : Char) : Bool :=
  c.isAlphanum || c == '+' || c == '-' || c == '_' || c == '.' || c == ':'

/-- Take the characters of an unquoted value; a date may be followed by a
    blank and a time. -/
def readBare (cs : List Char) : List Char × List Char :=
  let (word, rest) := cs.span isBareChar
  match readDate word, rest with
  | some (_, []), ' ' :: a :: b :: ':' :: more =>
      if Text.isDecimal a && Text.isDecimal b then
        let (time, rest) := (a :: b :: ':' :: more).span isBareChar
        (word ++ ' ' :: time, rest)
      else (word, rest)
  | _, _ => (word, rest)

/-- The value of an unquoted word. -/
def bare? (word : List Char) : Option Toml :=
  match word with
  | ['t', 'r', 'u', 'e'] => some (.bool true)
  | ['f', 'a', 'l', 's', 'e'] => some (.bool false)
  | word => (integer? word).or ((float? word).or (moment? word))

end Offside.Toml

import Offside.Binary64

/-! # YAML scalars — how a text is written

    A text stands as it is if it reads back as the same text.  Otherwise it
    is quoted: in single quotes where that is enough, and in double quotes
    where characters have to be escaped.  A text of several lines becomes a
    block of lines if its spaces and characters allow it. -/

namespace Offside.Yaml

/-! ## Characters -/

/-- Whether a character ends a line. -/
def isBreak (c : Char) : Bool :=
  c == '\n' || c == '\r' || c == '\x85' || c == '\u2028' || c == '\u2029'

/-- Whether a character separates words. -/
def isBlank (c : Char) : Bool := c == ' ' || c == '\t' || c == '\x00' || isBreak c

/-- Whether a character can only be written as an escape sequence. -/
def isSpecial (c : Char) : Bool :=
  let n := c.toNat
  !(n == 0x0a || (0x20 ≤ n && n ≤ 0x7e)
    || (0xa0 ≤ n && n != 0xfeff && n != 0xfffe && n != 0xffff))

/-! ## What a text reads as -/

/-- The texts that stand for nothing and for truth values. -/
def keywords : List String :=
  ["~", "null", "Null", "NULL", "true", "True", "TRUE", "false", "False", "FALSE"]

/-- Whether a character is a sign. -/
def isSign (c : Char) : Bool := c == '+' || c == '-'

/-- A text without a leading sign. -/
def withoutSign : List Char → List Char
  | [] => []
  | c :: cs => if isSign c then cs else c :: cs

/-- Whether a text is a row of digits with a leading zero, which is not a
    number and yet looks like one. -/
def isPadded (cs : List Char) : Bool :=
  match withoutSign cs with
  | '0' :: d :: ds => (d :: ds).all Text.isDecimal
  | _ => false

/-- The value of a digit in any base up to sixteen. -/
def digitValue (c : Char) : Nat :=
  if Text.isDecimal c then c.toNat - '0'.toNat
  else if 'a' ≤ c && c ≤ 'f' then c.toNat - 'a'.toNat + 10
  else if 'A' ≤ c && c ≤ 'F' then c.toNat - 'A'.toNat + 10
  else 16

/-- Whether a text is a row of digits in a base whose value stays below a
    limit. -/
def isBelow (base limit : Nat) (ds : List Char) : Bool :=
  !ds.isEmpty && ds.all (digitValue · < base)
    && ds.foldl (fun n d => base * n + digitValue d) 0 < limit

/-- One more than the greatest number of 128 bits. -/
def wideLimit : Nat := 0x1_0000_0000_0000_0000_0000_0000_0000_0000

/-- Whether a text is an integer with the mark of its base, in the range of
    128 bits with or without sign. -/
def isBased (cs : List Char) : Bool :=
  let (limit, cs) := match cs with
    | '+' :: cs => (wideLimit, cs)
    | '-' :: cs => (wideLimit / 2 + 1, cs)
    | cs => (wideLimit, cs)
  match cs with
  | '0' :: 'x' :: ds => isBelow 16 limit ds
  | '0' :: 'o' :: ds => isBelow 8 limit ds
  | '0' :: 'b' :: ds => isBelow 2 limit ds
  | _ => false

/-- The exponent behind its mark. -/
def exponent? (cs : List Char) : Option Int :=
  let ds := withoutSign cs
  if ds.isEmpty || !ds.all Text.isDecimal then none
  else
    let n : Int := Text.decimalsValue ds
    some (if cs.head? == some '-' then -n else n)

/-- The number that a decimal without sign spells.  Digits may be missing on
    one side of the point. -/
def decimal? (cs : List Char) : Option Binary64 :=
  let (mantissa, tail) := cs.span fun c => c != 'e' && c != 'E'
  let (whole, part) := mantissa.span (· != '.')
  let fraction := part.drop 1
  let exponent := match tail with
    | [] => some 0
    | _ :: ds => exponent? ds
  let digits := whole ++ fraction
  if digits.isEmpty || !digits.all Text.isDecimal then none
  else
    exponent.map fun e =>
      Binary64.ofDecimal false (Text.decimalsValue digits) (e - fraction.length)

/-- Whether a text spells an infinity, or the result of an invalid
    operation. -/
def isNonFinite (cs : List Char) : Bool :=
  [".inf", ".Inf", ".INF"].contains (String.ofList (withoutSign cs))
    || [".nan", ".NaN", ".NAN"].contains (String.ofList cs)

/-- Whether a text reads as a number. -/
def isNumeric (cs : List Char) : Bool :=
  isPadded cs || isBased cs || isNonFinite cs
    || (match decimal? (withoutSign cs) with
        | some x => x.isFinite
        | none => false)

/-- Whether a text reads as something else than a text. -/
def isAmbiguous (cs : List Char) : Bool :=
  cs.isEmpty || keywords.contains (String.ofList cs) || isNumeric cs

/-! ## Styles -/

/-- How a text is written. -/
inductive Style where
  | plain
  | singleQuoted
  | doubleQuoted
  /-- A block of lines. -/
  | literal
deriving DecidableEq, Repr

/-- Whether the word before the rest of a text ends there. -/
def endsWord : List Char → Bool
  | [] => true
  | c :: _ => isBlank c

/-- Whether a text starts like something else than a plain text. -/
def startsWithIndicator : List Char → Bool
  | [] => false
  | c :: cs =>
      [',', '[', ']', '\x7b', '\x7d', '#', '&', '*', '!', '|', '>', '\'', '"', '%', '@',
        '\x60'].contains c
        || (['?', ':', '-'].contains c && endsWord cs)

/-- Whether a text that follows a character has a mark that would end a
    plain text: a colon at the end of a word, or a hash at the start of
    one. -/
def hasIndicator : Char → List Char → Bool
  | _, [] => false
  | previous, c :: cs =>
      (c == ':' && endsWord cs) || (c == '#' && isBlank previous) || hasIndicator c cs

/-- Whether a text starts with the mark of a document. -/
def startsWithMark (cs : List Char) : Bool :=
  ['-', '-', '-'].isPrefixOf cs || ['.', '.', '.'].isPrefixOf cs

/-- Whether a space stands in front of a line break in a text. -/
def hasSpaceBeforeBreak : List Char → Bool
  | [] => false
  | [_] => false
  | a :: b :: cs => (a == ' ' && isBreak b) || hasSpaceBeforeBreak (b :: cs)

/-- Whether a space stands behind a line break in a text. -/
def hasSpaceAfterBreak : List Char → Bool
  | [] => false
  | [_] => false
  | a :: b :: cs => (isBreak a && b == ' ') || hasSpaceAfterBreak (b :: cs)

/-- Whether a block of lines cannot show a text as it is. -/
def needsEscapes (cs : List Char) : Bool := cs.any isSpecial || hasSpaceBeforeBreak cs

/-- Whether single quotes cannot show a text as it is, because spaces beside
    its line breaks would be lost. -/
def needsDoubleQuotes (cs : List Char) : Bool := needsEscapes cs || hasSpaceAfterBreak cs

/-- Whether a text can stand as it is on its line. -/
def canBePlain : List Char → Bool
  | [] => false
  | c :: cs =>
      !(c == ' ' || (c :: cs).getLast? == some ' ' || (c :: cs).any isBreak
        || needsDoubleQuotes (c :: cs) || startsWithMark (c :: cs)
        || startsWithIndicator (c :: cs) || hasIndicator c cs)

/-- Whether a text can be a block of lines. -/
def canBeLiteral (cs : List Char) : Bool := !(needsEscapes cs || cs.getLast? == some ' ')

/-- The style in which a text is written. -/
def style (cs : List Char) : Style :=
  if cs.contains '\n' then
    if canBeLiteral cs then .literal else .doubleQuoted
  else if !isAmbiguous cs && canBePlain cs then .plain
  else if needsDoubleQuotes cs then .doubleQuoted
  else .singleQuoted

/-! ## Writing -/

/-- A number in upper-case hexadecimal digits, padded to a width. -/
def hexadecimal (width n : Nat) : List Char :=
  let ds := (Nat.toDigits 16 n).map Char.toUpper
  List.replicate (width - ds.length) '0' ++ ds

/-- The escape sequence for a code point. -/
def escapeSequence (c : Char) : List Char :=
  let n := c.toNat
  if c = '\x00' then ['\\', '0']
  else if c = '\x07' then ['\\', 'a']
  else if c = '\x08' then ['\\', 'b']
  else if c = '\t' then ['\\', 't']
  else if c = '\n' then ['\\', 'n']
  else if c = '\x0b' then ['\\', 'v']
  else if c = '\x0c' then ['\\', 'f']
  else if c = '\r' then ['\\', 'r']
  else if c = '\x1b' then ['\\', 'e']
  else if c = '"' then ['\\', '"']
  else if c = '\\' then ['\\', '\\']
  else if c = '\x85' then ['\\', 'N']
  else if c = '\u2028' then ['\\', 'L']
  else if c = '\u2029' then ['\\', 'P']
  else if n ≤ 0xff then '\\' :: 'x' :: hexadecimal 2 n
  else if n ≤ 0xffff then '\\' :: 'u' :: hexadecimal 4 n
  else '\\' :: 'U' :: hexadecimal 8 n

/-- A character between double quotes. -/
def doubleQuotedChar (c : Char) : List Char :=
  if isSpecial c || isBreak c || c == '"' || c == '\\' then escapeSequence c else [c]

/-- Lines with their indentation; `fresh` tells that the text starts on a new
    line.  Empty lines stay empty. -/
def indentLines (indent : Nat) : Bool → List Char → List Char
  | _, [] => []
  | fresh, c :: cs =>
      if isBreak c then c :: indentLines indent true cs
      else (if fresh then List.replicate indent ' ' else []) ++ c :: indentLines indent false cs

/-- The indentation of a block of lines, which has to be told if the block
    does not start with a visible character. -/
def indentHint : List Char → List Char
  | [] => []
  | c :: _ => if c == ' ' || isBreak c then ['2'] else []

/-- What happens to the line breaks at the end of a block of lines: a text
    without one says so, and a text keeps more than one. -/
def chompHint (cs : List Char) : List Char :=
  match cs.reverse with
  | [] => ['-']
  | [c] => if isBreak c then ['+'] else ['-']
  | c :: d :: _ => if isBreak c then (if isBreak d then ['+'] else []) else ['-']

/-- A text in its style; the lines of a block get the given indentation. -/
def writeText (indent : Nat) (s : String) : String :=
  let cs := s.toList
  match style cs with
  | .plain => s
  | .singleQuoted =>
      let quoted := cs.flatMap fun c => if c = '\'' then ['\'', '\''] else [c]
      String.ofList ('\'' :: (indentLines indent false quoted ++ ['\'']))
  | .doubleQuoted => String.ofList ('"' :: (cs.flatMap doubleQuotedChar ++ ['"']))
  | .literal =>
      String.ofList ('|' :: (indentHint cs ++ chompHint cs ++ '\n' :: indentLines indent true cs))

end Offside.Yaml

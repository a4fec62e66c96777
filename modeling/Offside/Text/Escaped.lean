import Offside.Unicode.Extender
import Offside.Unicode.Printable

/-! # Escaped text — control and invisible characters spelled out

    A text shown inside a message has its control characters, quotes,
    backslashes and every character with nothing to print written as escape
    sequences.  Which quotes are escaped, and where a character that
    attaches to its predecessor is kept, is the choice of a `Style`. -/

namespace Offside.Text

/-- A natural number in lower-case hexadecimal digits, without padding. -/
def hexadecimal (n : Nat) : List Char := Nat.toDigits 16 n

/-- What an escape leaves to the place where the text is shown. -/
structure EscapeStyle where
  /-- Escape the single quote. -/
  singleQuote : Bool
  /-- Escape an extending character wherever it stands, not only in front. -/
  everyExtender : Bool

/-- The style of texts quoted in error messages. -/
def EscapeStyle.message : EscapeStyle := ⟨true, false⟩

/-- The style of texts shown in double quotes as values. -/
def EscapeStyle.value : EscapeStyle := ⟨false, true⟩

/-- The escape sequence that names a code point. -/
def codePointEscape (c : Char) : List Char :=
  '\\' :: 'u' :: '\x7b' :: (hexadecimal c.toNat ++ ['\x7d'])

/-- One character, escaped where it needs to be; `lone` tells that an
    extending character has nothing to attach to. -/
def escapeChar (style : EscapeStyle) (lone : Bool) (c : Char) : List Char :=
  if c = '\x00' then ['\\', '0']
  else if c = '\t' then ['\\', 't']
  else if c = '\r' then ['\\', 'r']
  else if c = '\n' then ['\\', 'n']
  else if c = '\\' then ['\\', '\\']
  else if c = '"' then ['\\', '"']
  else if c = '\'' then (if style.singleQuote then ['\\', '\''] else ['\''])
  else if lone && Unicode.isExtender c then codePointEscape c
  else if Unicode.isPrintable c then [c]
  else codePointEscape c

/-- A text with its characters escaped. -/
def escape (style : EscapeStyle) : List Char → List Char
  | [] => []
  | c :: cs => escapeChar style true c ++ cs.flatMap (escapeChar style style.everyExtender)

/-- A text as it is quoted in error messages. -/
def escapeMessage (text : String) : String :=
  String.ofList (escape .message text.toList)

/-- A text in double quotes, as a value is shown. -/
def quoted (text : String) : String :=
  String.ofList ('"' :: (escape .value text.toList ++ ['"']))

end Offside.Text

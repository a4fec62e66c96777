import Offside.Text.Numeral

/-! # Setting paths — where in the settings a value stands

    A path is a key of the root, followed by keys and by items of lists:
    `output.format`, `input[0]`. -/

namespace Offside

/-- A part of a setting: what a table has under a key, or an item of a list.
    A negative index counts from the end of the list. -/
inductive SettingPart where
  | key (name : String)
  | item (index : Int)
deriving DecidableEq, Repr

/-- A key of the root with the parts that lead on from there. -/
structure SettingPath where
  key : String
  parts : List SettingPart
deriving DecidableEq, Repr

namespace SettingPath

/-- Whether a character may stand in the key of a path. -/
def isKeyChar (c : Char) : Bool := c.isAlphanum || c == ' ' || c == '_' || c == '-'

/-- Read a key. -/
def readKey (cs : List Char) : Option (String × List Char) :=
  let (key, rest) := cs.span isKeyChar
  if key.isEmpty then none else some (String.ofList key, rest)

/-- The text after blanks. -/
def skipBlanks (cs : List Char) : List Char := cs.dropWhile fun c => c == ' ' || c == '\t'

/-- An integer that fits 64 bits. -/
def bounded? (n : Int) : Option Int :=
  if -0x8000_0000_0000_0000 ≤ n ∧ n < 0x8000_0000_0000_0000 then some n else none

/-- Read the index of an item up to the closing bracket. -/
def readIndex (cs : List Char) : Option (Int × List Char) :=
  let cs := skipBlanks cs
  let negative := cs.head? == some '-'
  let (digits, rest) := (if negative then cs.drop 1 else cs).span Text.isDecimal
  match skipBlanks rest with
  | ']' :: rest =>
      if digits.isEmpty then none
      else
        let n : Int := Text.decimalsValue digits
        (bounded? (if negative then -n else n)).map (·, rest)
  | _ => none

/-- Read a part with the mark in front of it. -/
def readPart : List Char → Option (SettingPart × List Char)
  | '.' :: cs => (readKey cs).map fun (key, rest) => (.key key, rest)
  | '[' :: cs => (readIndex cs).map fun (index, rest) => (.item index, rest)
  | _ => none

/-- Read parts to the end; every part takes a character. -/
def readParts : Nat → List Char → Option (List SettingPart)
  | _, [] => some []
  | 0, _ => none
  | fuel + 1, cs =>
      (readPart cs).bind fun (part, rest) => (readParts fuel rest).map (part :: ·)

/-- The path that a text spells, if it is one. -/
def read? (text : String) : Option SettingPath :=
  (readKey text.toList).bind fun (key, rest) =>
    (readParts rest.length rest).map fun parts => ⟨key, parts⟩

end SettingPath

end Offside

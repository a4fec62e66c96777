import Offside.Toml.Scalar

/-! # Reading TOML documents

    A document is read line by line.  The table that keys go to is given by
    the last header.  A key that is given twice, and a table that is
    defined twice, make the document invalid. -/

namespace Offside.Toml

/-- The text after blanks. -/
def skipBlanks (cs : List Char) : List Char := cs.dropWhile isBlank

/-- The text after a comment, if there is one; a control character in it
    makes the text invalid. -/
def skipComment : List Char → Option (List Char)
  | '#' :: cs =>
      let (comment, rest) := cs.span fun c => c != '\n' && c != '\r'
      if comment.all isPlain then some rest else none
  | cs => some cs

/-- The text after the end of a line: blanks, possibly a comment, and a line
    break unless the text ends. -/
def endLine (cs : List Char) : Option (List Char) :=
  match skipComment (skipBlanks cs) with
  | none => none
  | some [] => some []
  | some rest => afterNewline rest

/-- Characters of a key without quotes. -/
def isKeyChar (c : Char) : Bool := c.isAlphanum || c == '-' || c == '_'

/-- The deepest nesting of arrays, inline tables and paths. -/
def nestingLimit : Nat := 80

/-- Read a key between the dots of a path. -/
def readKey (cs : List Char) : Option (String × List Char) :=
  match cs with
  | '"' :: rest => readBasic (cs.length + 1) [] rest
  | '\'' :: rest => readLiteral rest
  | cs =>
      let (key, rest) := cs.span isKeyChar
      if key.isEmpty then none else some (String.ofList key, rest)

/-- Read the keys of a path, at most as many as the first argument tells;
    blanks may surround the dots. -/
def readKeys : Nat → List Char → Option (List String × List Char)
  | 0, _ => none
  | more + 1, cs =>
      match readKey (skipBlanks cs) with
      | none => none
      | some (key, rest) =>
          match skipBlanks rest with
          | '.' :: rest =>
              (readKeys more rest).map fun (keys, rest) => (key :: keys, rest)
          | rest => some ([key], rest)

/-- Read a path, which must not be too deep. -/
def readPath (cs : List Char) : Option (List String × List Char) :=
  readKeys (nestingLimit - 1) cs

/-- The text after blanks, comments and line breaks, as they may stand
    between the items of an array. -/
def skipLines : Nat → List Char → Option (List Char)
  | 0, _ => none
  | fuel + 1, cs =>
      match skipComment (skipBlanks cs) with
      | none => none
      | some rest =>
          match afterNewline rest with
          | none => some rest
          | some rest => skipLines fuel rest

mutual

/-- Read a value at a depth of nesting. -/
def readValue : Nat → Nat → List Char → Option (Toml × List Char)
  | 0, _, _ => none
  | fuel + 1, depth, cs =>
      match cs with
      | '[' :: rest =>
          if depth + 1 < nestingLimit then
            (readItems fuel (depth + 1) rest).map fun (items, rest) => (.array items, rest)
          else none
      | '\x7b' :: rest =>
          if depth + 1 < nestingLimit then
            match skipBlanks rest with
            | '\x7d' :: rest => some (.table .inline [], rest)
            | rest => readPairs fuel (depth + 1) [] rest
          else none
      | '"' :: _ => (readString cs).map fun (s, rest) => (.string s, rest)
      | '\'' :: _ => (readString cs).map fun (s, rest) => (.string s, rest)
      | cs =>
          let (word, rest) := readBare cs
          (bare? word).map (·, rest)

/-- Read the items of an array up to its closing bracket. -/
def readItems : Nat → Nat → List Char → Option (List Toml × List Char)
  | 0, _, _ => none
  | fuel + 1, depth, cs =>
      match skipLines (cs.length + 1) cs with
      | none => none
      | some (']' :: rest) => some ([], rest)
      | some rest =>
          match readValue fuel depth rest with
          | none => none
          | some (item, rest) =>
              match skipLines (rest.length + 1) rest with
              | some (']' :: rest) => some ([item], rest)
              | some (',' :: rest) =>
                  (readItems fuel depth rest).map fun (items, rest) => (item :: items, rest)
              | _ => none

/-- Read the pairs of an inline table up to its closing brace. -/
def readPairs : Nat → Nat → Entries → List Char → Option (Toml × List Char)
  | 0, _, _, _ => none
  | fuel + 1, depth, entries, cs =>
      match readPath cs with
      | some (path, '=' :: rest) =>
          match path.getLast?, readValue fuel depth (skipBlanks rest) with
          | some key, some (value, rest) =>
              match assign path.dropLast key value .inline entries with
              | none => none
              | some entries =>
                  match skipBlanks rest with
                  | '\x7d' :: rest => some (.table .inline entries, rest)
                  | ',' :: rest => readPairs fuel depth entries rest
                  | _ => none
          | _, _ => none
      | _ => none

end

/-- A document in progress: its root table and the path of the table that
    keys go to. -/
structure Draft where
  root : Entries
  current : List String

/-- Read the rest of a header after its path. -/
def closeHeader (repeated : Bool) (cs : List Char) : Option (List Char) :=
  match repeated, cs with
  | false, ']' :: rest => endLine rest
  | true, ']' :: ']' :: rest => endLine rest
  | _, _ => none

/-- Read a header. -/
def readHeader (d : Draft) (repeated : Bool) (cs : List Char) : Option (Draft × List Char) :=
  match readPath cs with
  | none => none
  | some (path, rest) =>
      match closeHeader repeated rest, path.getLast? with
      | some rest, some key =>
          let root :=
            if repeated then addTable path.dropLast key d.root
            else openTable path.dropLast key d.root
          root.map fun root => (⟨root, path⟩, rest)
      | _, _ => none

/-- Read a key with its value. -/
def readAssignment (d : Draft) (cs : List Char) : Option (Draft × List Char) :=
  match readPath cs with
  | some (path, '=' :: rest) =>
      match path.getLast?, readValue (rest.length + 1) 0 (skipBlanks rest) with
      | some key, some (value, rest) =>
          match endLine rest with
          | none => none
          | some rest =>
              (update .implied d.current (assign path.dropLast key value) .header d.root).map
                fun root => (⟨root, d.current⟩, rest)
      | _, _ => none
  | _ => none

/-- Read a document to its end; every line takes a character. -/
def readDocument : Nat → Draft → List Char → Option Entries
  | 0, _, _ => none
  | fuel + 1, d, cs =>
      match skipBlanks cs with
      | [] => some d.root
      | '[' :: '[' :: rest =>
          (readHeader d true rest).bind fun (d, rest) => readDocument fuel d rest
      | '[' :: rest => (readHeader d false rest).bind fun (d, rest) => readDocument fuel d rest
      | '#' :: rest => (endLine ('#' :: rest)).bind (readDocument fuel d)
      | rest =>
          match afterNewline rest with
          | some rest => readDocument fuel d rest
          | none => (readAssignment d rest).bind fun (d, rest) => readDocument fuel d rest

/-- The text after a byte order mark. -/
def skipMark : List Char → List Char
  | '\ufeff' :: cs => cs
  | cs => cs

/-- The root table of a document, if it is valid. -/
def read? (text : String) : Option Entries :=
  let cs := skipMark text.toList
  readDocument (cs.length + 1) ⟨[], []⟩ cs

end Offside.Toml

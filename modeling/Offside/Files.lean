/-! # Files — what a name leads to -/

namespace Offside

/-- What is found under the name of a file. -/
inductive FileState where
  | missing
  | directory
  /-- The name goes through something that is no directory. -/
  | blocked
  /-- No file can have such a name. -/
  | tooLong
  | content (bytes : ByteArray)

/-- The files as far as a program can see them. -/
abbrev Files := String → FileState

namespace Files

/-- The parts of a path between its slashes. -/
def splitPath : List Char → List (List Char)
  | [] => [[]]
  | c :: cs =>
      if c = '/' then [] :: splitPath cs
      else
        match splitPath cs with
        | [] => [[c]]
        | part :: parts => (c :: part) :: parts

/-- The path with the given parts. -/
def joinPath (parts : List (List Char)) : String :=
  String.ofList (List.intercalate ['/'] parts)

/-- Whether a part of a path leads nowhere else. -/
def staysInPlace (part : List Char) : Bool := part.isEmpty || part == ['.']

/-- Whether a part of a path leads to the directory above. -/
def movesUp (part : List Char) : Bool := part == ['.', '.']

/-- The longest path, in bytes. -/
def pathLimit : Nat := 4095

/-- The longest part of a path, in bytes. -/
def partLimit : Nat := 255

/-- The directory that holds the given files and nothing else.  Above it
    there are directories only. -/
def ofList (entries : List (String × ByteArray)) : Files := fun name =>
  let parts := splitPath name.toList
  let moves := parts.filter fun part => !staysInPlace part
  if name.isEmpty then .missing
  else if pathLimit < name.utf8ByteSize then .tooLong
  else
    match moves.dropWhile movesUp with
    | [] => .directory
    | first :: later =>
        let file := String.ofList first
        if partLimit < file.utf8ByteSize then .tooLong
        else if name.startsWith "/" || moves.head?.any movesUp then .missing
        else
          match entries.lookup file with
          | none => .missing
          | some bytes =>
              if later.isEmpty && parts.getLast? == some first then .content bytes else .blocked

end Files

end Offside

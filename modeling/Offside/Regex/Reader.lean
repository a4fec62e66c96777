import Offside.Regex.Weight
import Offside.Text.Numeral
import Offside.Unicode.Alphabetic
import Offside.Unicode.Numeric

/-! # Reading patterns — the written form of regular expressions

    The reader goes through the text once, from left to right.  It keeps
    the groups that are open as a list of levels; each level holds the
    alternatives that are finished and the items of the one in progress.
    A text that is no pattern reads as nothing, and so does one whose parts
    are nested too deeply or in which a repetition would grow too large.

    Look-around, back references, property names and the flags for verbose
    and byte-wise patterns are not part of the language. -/

namespace Offside.Regex

/-- How the letters of a pattern are to be understood. -/
structure Flags where
  ignoreCase : Bool
  multiLine : Bool
  dotAll : Bool
  swapGreed : Bool
deriving DecidableEq, Repr

/-- The flags at the start of a pattern. -/
def Flags.initial : Flags := ⟨false, false, false, false⟩

/-- The set of a literal character. -/
def Flags.literal (f : Flags) (c : Char) : Charset :=
  if f.ignoreCase then (Charset.single c).foldCase else .single c

/-- The set of every character. -/
def everyChar : Charset := .compl .none

/-- The set of every character but the newline. -/
def exceptNewline : Charset := .compl (.single '\n')

/-- What a character after a backslash stands for. -/
inductive Escape where
  | literal (c : Char)
  | set (s : Charset)
  | look (l : Look)
deriving DecidableEq, Repr

/-- A character that stands for itself after a backslash. -/
def isEscapable (c : Char) : Bool :=
  c.toNat < 128 && !c.isAlphanum && c != '<' && c != '>'

/-- The value of a hexadecimal digit. -/
def hexValue? (c : Char) : Option Nat :=
  if '0' ≤ c && c ≤ '9' then some (c.toNat - '0'.toNat)
  else if 'a' ≤ c && c ≤ 'f' then some (c.toNat - 'a'.toNat + 10)
  else if 'A' ≤ c && c ≤ 'F' then some (c.toNat - 'A'.toNat + 10)
  else none

/-- The value of a row of hexadecimal digits. -/
def hexNumber? : List Char → Option Nat :=
  List.foldlM (fun n c => (hexValue? c).map fun d => 16 * n + d) 0

/-- The character with a code point, if there is one. -/
def charOf? (n : Nat) : Option Char :=
  if n.isValidChar then some (Char.ofNat n) else none

/-- Read a code point in hexadecimal: so many digits, or any number of them
    in braces. -/
def readHex (digits : Nat) : List Char → Option (Char × List Char)
  | '\x7b' :: cs =>
      match cs.span (· != '\x7d') with
      | (ds, _ :: rest) =>
          if ds.isEmpty || 8 < ds.length then none
          else ((hexNumber? ds).bind charOf?).map (·, rest)
      | (_, []) => none
  | cs =>
      if cs.length < digits then none
      else ((hexNumber? (cs.take digits)).bind charOf?).map (·, cs.drop digits)

/-- The edges of words that have a name. -/
def edge? (name : List Char) : Option Look :=
  match String.ofList name with
  | "start" => some .wordStart
  | "end" => some .wordEnd
  | "start-half" => some .wordStartHalf
  | "end-half" => some .wordEndHalf
  | _ => none

/-- Read which edge of a word is meant after `\b` and an opening brace.  If
    no name begins there, the brace belongs to a repetition. -/
def readEdge (cs : List Char) : Option (Look × List Char) :=
  match cs.span fun c => c.isAlpha || c == '-' with
  | ([], []) => none
  | ([], rest) => some (.wordEdge, '\x7b' :: rest)
  | (name, '\x7d' :: rest) => (edge? name).map (·, rest)
  | _ => none

/-- Read what follows a backslash. -/
def readEscape : List Char → Option (Escape × List Char)
  | [] => none
  | 'd' :: cs => some (.set .digit, cs)
  | 'D' :: cs => some (.set (.compl .digit), cs)
  | 's' :: cs => some (.set .space, cs)
  | 'S' :: cs => some (.set (.compl .space), cs)
  | 'w' :: cs => some (.set .word, cs)
  | 'W' :: cs => some (.set (.compl .word), cs)
  | 'a' :: cs => some (.literal '\x07', cs)
  | 'f' :: cs => some (.literal '\x0c', cs)
  | 'n' :: cs => some (.literal '\n', cs)
  | 'r' :: cs => some (.literal '\r', cs)
  | 't' :: cs => some (.literal '\t', cs)
  | 'v' :: cs => some (.literal '\x0b', cs)
  | 'A' :: cs => some (.look .textStart, cs)
  | 'z' :: cs => some (.look .textEnd, cs)
  | 'b' :: '\x7b' :: cs => (readEdge cs).map fun (l, rest) => (.look l, rest)
  | 'b' :: cs => some (.look .wordEdge, cs)
  | 'B' :: cs => some (.look .noWordEdge, cs)
  | '<' :: cs => some (.look .wordStart, cs)
  | '>' :: cs => some (.look .wordEnd, cs)
  | 'x' :: cs => (readHex 2 cs).map fun (c, rest) => (.literal c, rest)
  | 'u' :: cs => (readHex 4 cs).map fun (c, rest) => (.literal c, rest)
  | 'U' :: cs => (readHex 8 cs).map fun (c, rest) => (.literal c, rest)
  | c :: cs => if isEscapable c then some (.literal c, cs) else none

/-! ## Depth -/

/-- Something read, and how deep the parts in it are nested. -/
structure Nested (α : Type) where
  value : α
  depth : Nat

/-- How deep parts that stand side by side are nested: a single part is
    what it is, and several make a part of their own. -/
def jointDepth : List Nat → Nat
  | [] => 0
  | [depth] => depth
  | depths => depths.foldl max 0 + 1

/-- The greatest depth of a pattern. -/
def maxDepth : Nat := 250

/-! ## Classes in brackets -/

/-- The ASCII classes by their names. -/
def asciiClass? (name : List Char) : Option Charset :=
  let lower := Charset.range 'a' 'z'
  let upper := Charset.range 'A' 'Z'
  let digits := Charset.range '0' '9'
  let alpha := Charset.union lower upper
  match String.ofList name with
  | "alnum" => some (.union digits alpha)
  | "alpha" => some alpha
  | "ascii" => some (.range '\x00' '\x7f')
  | "blank" => some (.union (.single '\t') (.single ' '))
  | "cntrl" => some (.union (.range '\x00' '\x1f') (.single '\x7f'))
  | "digit" => some digits
  | "graph" => some (.range '!' '~')
  | "lower" => some lower
  | "print" => some (.range ' ' '~')
  | "punct" =>
      some (.unions [.range '!' '/', .range ':' '@', .range '[' '\x60', .range '\x7b' '~'])
  | "space" => some (.union (.range '\t' '\r') (.single ' '))
  | "upper" => some upper
  | "word" => some (.unions [digits, alpha, .single '_'])
  | "xdigit" => some (.unions [digits, .range 'A' 'F', .range 'a' 'f'])
  | _ => none

/-- Read a named class after its opening `[:`; a text of another form is no
    named class. -/
def readNamedClass (fold : Charset → Charset) (cs : List Char) : Option (Charset × List Char) :=
  let (negated, cs) := match cs with
    | '^' :: cs => (true, cs)
    | cs => (false, cs)
  match cs.span (· != ':') with
  | (name, ':' :: ']' :: rest) =>
      (asciiClass? name).map fun s => (if negated then .compl (fold s) else fold s, rest)
  | _ => none

/-- An operation between two parts of a class. -/
inductive ClassOp where
  | inter
  | diff
  | symmDiff
deriving DecidableEq, Repr

/-- The set that an operation makes of two. -/
def ClassOp.apply : ClassOp → Charset → Charset → Charset
  | inter, s, t => .inter s t
  | diff, s, t => .diff s t
  | symmDiff, s, t => .symmDiff s t

/-- A class in progress: whether it is negated, the part to the left of an
    operation, and the members read since. -/
structure OpenClass where
  negated : Bool
  left : Option (Nested Charset × ClassOp)
  members : List (Nested Charset)

/-- The members so far, with the part to their left. -/
def OpenClass.value (fold : Charset → Charset) (c : OpenClass) : Nested Charset :=
  let right := Charset.unions (c.members.reverse.map Nested.value)
  let depth := jointDepth (c.members.map Nested.depth)
  match c.left with
  | none => ⟨right, depth⟩
  | some (left, op) => ⟨op.apply (fold left.value) (fold right), max left.depth depth + 1⟩

/-- The set of a class whose closing bracket is reached. -/
def OpenClass.close (fold : Charset → Charset) (c : OpenClass) : Nested Charset :=
  let inner := c.value fold
  let s := fold inner.value
  ⟨if c.negated then .compl s else s, inner.depth + 1⟩

/-- Add a member. -/
def OpenClass.add (c : OpenClass) (member : Nested Charset) : OpenClass :=
  { c with members := member :: c.members }

/-- Read the start of a class after its opening bracket: a negation, hyphens
    that stand for themselves, and a closing bracket that does so if it
    comes first. -/
def openClass (cs : List Char) : OpenClass × List Char :=
  let (negated, cs) := match cs with
    | '^' :: cs => (true, cs)
    | cs => (false, cs)
  let (hyphens, cs) := cs.span (· == '-')
  let members := hyphens.map fun c => ⟨Charset.single c, 0⟩
  match members, cs with
  | [], ']' :: cs => (⟨negated, none, [⟨.single ']', 0⟩]⟩, cs)
  | members, cs => (⟨negated, none, members⟩, cs)

/-- One member of a class, before a range is made of it. -/
def readClassItem : List Char → Option (Escape × List Char)
  | [] => none
  | '\\' :: cs => readEscape cs
  | c :: cs => some (.literal c, cs)

/-- Read a single member of a class or a range of characters. -/
def readMember (cs : List Char) : Option (Charset × List Char) :=
  match readClassItem cs with
  | none => none
  | some (first, rest) =>
      let alone : Option (Charset × List Char) := match first with
        | .literal c => some (.single c, rest)
        | .set s => some (s, rest)
        | .look _ => none
      match rest with
      | '-' :: ']' :: _ => alone
      | '-' :: '-' :: _ => alone
      | '-' :: more =>
          match first, readClassItem more with
          | .literal lo, some (.literal hi, rest) =>
              if lo ≤ hi then some (.range lo hi, rest) else none
          | _, _ => none
      | _ => alone

/-- Read a class to its closing bracket.  The inner class is the first of
    the list, and every round takes at least one character, so the length
    of the text bounds the rounds. -/
def readClass (fold : Charset → Charset) :
    Nat → OpenClass → List OpenClass → List Char → Option (Nested Charset × List Char)
  | 0, _, _, _ => none
  | fuel + 1, inner, outer, cs =>
      let operate (op : ClassOp) (rest : List Char) :=
        readClass fold fuel
          { inner with left := some (inner.value fold, op), members := [] } outer rest
      match cs with
      | [] => none
      | '[' :: rest =>
          let named := match rest with
            | ':' :: rest => readNamedClass fold rest
            | _ => none
          match named with
          | some (s, rest) => readClass fold fuel (inner.add ⟨s, 0⟩) outer rest
          | none =>
              let (innermost, rest) := openClass rest
              readClass fold fuel innermost (inner :: outer) rest
      | ']' :: rest =>
          match outer with
          | [] => some (inner.close fold, rest)
          | around :: outer =>
              readClass fold fuel (around.add (inner.close fold)) outer rest
      | '&' :: '&' :: rest => operate .inter rest
      | '-' :: '-' :: rest => operate .diff rest
      | '~' :: '~' :: rest => operate .symmDiff rest
      | cs =>
          match readMember cs with
          | none => none
          | some (s, rest) => readClass fold fuel (inner.add ⟨s, 0⟩) outer rest

/-! ## Groups, flags and repetitions -/

/-- An item of the alternative in progress; setting flags is an item that
    cannot be repeated. -/
inductive Item where
  | pattern (p : Nested Pattern)
  | flags

/-- How deep the parts of an item are nested. -/
def Item.depth : Item → Nat
  | .pattern p => p.depth
  | .flags => 0

/-- What is open at one level of nesting: the flags in force, the finished
    alternatives and the items of the current one, both last first. -/
structure Level where
  flags : Flags
  branches : List (Nested Pattern)
  items : List Item

namespace Level

/-- A level with nothing read yet. -/
def empty (flags : Flags) : Level := ⟨flags, [], []⟩

/-- The alternative in progress as a pattern. -/
def branch (l : Level) : Nested Pattern :=
  let patterns := l.items.reverse.filterMap fun
    | .pattern p => some p.value
    | .flags => none
  ⟨.seqs patterns, jointDepth (l.items.map Item.depth)⟩

/-- Everything read at a level as one pattern. -/
def pattern (l : Level) : Nested Pattern :=
  let branches := l.branch :: l.branches
  ⟨.alts (branches.reverse.map Nested.value), jointDepth (branches.map Nested.depth)⟩

/-- Add an item. -/
def push (l : Level) (p : Nested Pattern) : Level := { l with items := .pattern p :: l.items }

/-- Begin the next alternative. -/
def split (l : Level) : Level := ⟨l.flags, l.branch :: l.branches, []⟩

/-- Replace the last item by its repetition, unless that would be too large. -/
def repeatLast (l : Level) (least : Nat) (most : Option Nat) (greedy : Bool) : Option Level :=
  match l.items with
  | .pattern p :: items =>
      let rounds := p.value.repeated least most (greedy != l.flags.swapGreed)
      if rounds.weight ≤ maxWeight then
        some { l with items := .pattern ⟨rounds, p.depth + 1⟩ :: items }
      else
        none
  | _ => none

end Level

/-- A group that is still open: the level around it, and its index if its
    text is captured. -/
structure OpenGroup where
  index : Option Nat
  around : Level

/-- The state of the reader. -/
structure Reading where
  level : Level
  opened : List OpenGroup
  groups : Nat
  names : List (List Char)

/-- Read whether a repetition is reluctant. -/
def readGreed : List Char → Bool × List Char
  | '?' :: cs => (false, cs)
  | cs => (true, cs)

/-- Read a count, which white space may surround. -/
def readCount (cs : List Char) : Option (Nat × List Char) :=
  let (ds, rest) := (cs.dropWhile Unicode.isSpace).span Text.isDecimal
  if ds.isEmpty || 0x1_0000_0000 ≤ Text.decimalsValue ds then none
  else some (Text.decimalsValue ds, rest.dropWhile Unicode.isSpace)

/-- Read the bounds of a repetition after its opening brace. -/
def readBounds (cs : List Char) : Option ((Nat × Option Nat) × List Char) :=
  match readCount cs with
  | none => none
  | some (least, '\x7d' :: rest) => some ((least, some least), rest)
  | some (least, ',' :: '\x7d' :: rest) => some ((least, none), rest)
  | some (least, ',' :: rest) =>
      match readCount rest with
      | some (most, '\x7d' :: rest) =>
          if least ≤ most then some ((least, some most), rest) else none
      | _ => none
  | _ => none

/-- Flags being read: the letters seen, and whether a minus sign was. -/
structure FlagList where
  flags : Flags
  seen : List Char
  negative : Bool

/-- Take one letter into the flags. -/
def FlagList.add (f : FlagList) (c : Char) : Option FlagList :=
  if f.seen.contains c then
    none
  else
    let on := !f.negative
    let next (flags : Flags) : Option FlagList := some ⟨flags, c :: f.seen, f.negative⟩
    match c with
    | '-' => some ⟨f.flags, c :: f.seen, true⟩
    | 'i' => next { f.flags with ignoreCase := on }
    | 'm' => next { f.flags with multiLine := on }
    | 's' => next { f.flags with dotAll := on }
    | 'U' => next { f.flags with swapGreed := on }
    | 'u' => if on then next f.flags else none
    | _ => none

/-- Read flags up to the colon or parenthesis that ends them, which stays in
    front of the rest; the Boolean tells whether there were any. -/
def readFlags (flags : Flags) (cs : List Char) : Option (Flags × Bool × List Char) :=
  let (letters, rest) := cs.span fun c => c != ':' && c != ')'
  match letters.foldlM FlagList.add ⟨flags, [], false⟩ with
  | none => none
  | some f =>
      if rest.isEmpty || letters.getLast? == some '-' then none
      else some (f.flags, !letters.isEmpty, rest)

/-- Whether the name of a group can begin with a character. -/
def startsGroupName (c : Char) : Bool := c == '_' || Unicode.isAlphabetic c

/-- Whether the name of a group can go on with a character. -/
def continuesGroupName (c : Char) : Bool :=
  startsGroupName c || Unicode.isNumeric c || c == '.' || c == '[' || c == ']'

/-- Whether a text can name a group. -/
def isGroupName : List Char → Bool
  | [] => false
  | c :: cs => startsGroupName c && cs.all continuesGroupName

namespace Reading

/-- The reader before the first character. -/
def start : Reading := ⟨.empty .initial, [], 0, []⟩

/-- Add an item to the current level. -/
def push (r : Reading) (p : Nested Pattern) : Reading := { r with level := r.level.push p }

/-- Add an item that has no parts. -/
def pushSimple (r : Reading) (p : Pattern) : Reading := r.push ⟨p, 0⟩

/-- Open a group with the given flags inside. -/
def openGroup (r : Reading) (index : Option Nat) (flags : Flags) : Reading :=
  { r with level := .empty flags, opened := ⟨index, r.level⟩ :: r.opened }

/-- Open a group whose text is captured. -/
def openCapture (r : Reading) : Reading :=
  let r := { r with groups := r.groups + 1 }
  r.openGroup (some r.groups) r.level.flags

/-- Open a captured group that has a name. -/
def openNamed (r : Reading) (cs : List Char) : Option (Reading × List Char) :=
  match cs.span (· != '>') with
  | (name, _ :: rest) =>
      if isGroupName name && !r.names.contains name then
        some ({ r with names := name :: r.names }.openCapture, rest)
      else
        none
  | (_, []) => none

/-- Close the innermost group. -/
def closeGroup (r : Reading) : Option Reading :=
  match r.opened with
  | [] => none
  | g :: opened =>
      let body := r.level.pattern
      let item := match g.index with
        | none => body.value
        | some i => .group i body.value
      some { r with level := g.around.push ⟨item, body.depth + 1⟩, opened := opened }

/-- Read the start of a group after its parenthesis. -/
def readGroup (r : Reading) : List Char → Option (Reading × List Char)
  | '?' :: '=' :: _ | '?' :: '!' :: _ => none
  | '?' :: '<' :: '=' :: _ | '?' :: '<' :: '!' :: _ => none
  | '?' :: 'P' :: '<' :: cs => r.openNamed cs
  | '?' :: '<' :: cs => r.openNamed cs
  | '?' :: cs =>
      match readFlags r.level.flags cs with
      | some (flags, _, ':' :: rest) => some (r.openGroup none flags, rest)
      | some (flags, true, ')' :: rest) =>
          let level := { r.level with flags := flags, items := .flags :: r.level.items }
          some ({ r with level := level }, rest)
      | _ => none
  | cs => some (r.openCapture, cs)

/-- Repeat the last item of the current level. -/
def repeatLast (r : Reading) (least : Nat) (most : Option Nat) (cs : List Char) :
    Option (Reading × List Char) :=
  let (greedy, rest) := readGreed cs
  (r.level.repeatLast least most greedy).map fun level => ({ r with level := level }, rest)

/-- Read one piece of a pattern that starts with the given character. -/
def step (r : Reading) (c : Char) (cs : List Char) : Option (Reading × List Char) :=
  let flags := r.level.flags
  match c with
  | '(' => r.readGroup cs
  | ')' => r.closeGroup.map (·, cs)
  | '|' => some ({ r with level := r.level.split }, cs)
  | '[' =>
      let fold := if flags.ignoreCase then Charset.foldCase else id
      let (inner, rest) := openClass cs
      (readClass fold (cs.length + 1) inner [] rest).map fun (s, rest) =>
        (r.push ⟨.set s.value, s.depth⟩, rest)
  | '?' => r.repeatLast 0 (some 1) cs
  | '*' => r.repeatLast 0 none cs
  | '+' => r.repeatLast 1 none cs
  | '\x7b' =>
      match readBounds cs with
      | none => none
      | some ((least, most), rest) => r.repeatLast least most rest
  | '.' => some (r.pushSimple (.set (if flags.dotAll then everyChar else exceptNewline)), cs)
  | '^' => some (r.pushSimple (.look (if flags.multiLine then .lineStart else .textStart)), cs)
  | '$' => some (r.pushSimple (.look (if flags.multiLine then .lineEnd else .textEnd)), cs)
  | '\\' =>
      match readEscape cs with
      | none => none
      | some (.literal c, rest) => some (r.pushSimple (.set (flags.literal c)), rest)
      | some (.set s, rest) => some (r.pushSimple (.set s), rest)
      | some (.look l, rest) => some (r.pushSimple (.look l), rest)
  | c => some (r.pushSimple (.set (flags.literal c)), cs)

/-- Read to the end of the text; every step takes a character, so the length
    of the text bounds the steps. -/
def run : Nat → Reading → List Char → Option Reading
  | _, r, [] => some r
  | 0, _, _ :: _ => none
  | fuel + 1, r, c :: cs =>
      match r.step c cs with
      | none => none
      | some (r, rest) => run fuel r rest

/-- The pattern of a reader that has reached the end. -/
def finish (r : Reading) : Option (Nested Pattern) :=
  if r.opened.isEmpty then some r.level.pattern else none

end Reading

/-- The pattern that a text spells. -/
def Pattern.read? (text : List Char) : Option Pattern :=
  match (Reading.run text.length .start text).bind Reading.finish with
  | some p => if p.depth ≤ maxDepth then some p.value else none
  | none => none

/-- The characters that need a backslash to stand for themselves. -/
def metaChars : List Char :=
  ['\\', '.', '+', '*', '?', '(', ')', '|', '[', ']', '\x7b', '\x7d', '^', '$', '#', '&', '-', '~']

/-- A text in which every character stands for itself when it is read as a
    pattern. -/
def escapeLiteral (text : List Char) : List Char :=
  text.flatMap fun c => if metaChars.contains c then ['\\', c] else [c]

end Offside.Regex

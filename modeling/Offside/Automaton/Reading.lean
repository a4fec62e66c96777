import Offside.Automaton.Document
import Offside.Json.Reader

/-! # Reading table documents from JSON

    A document is an object with the members `tokens`, `productions`,
    `table` and possibly `nonterminals`, or an array with these four parts
    in the order tokens, nonterminals, productions, table.  Other members
    are ignored, whatever their strings hold.  Within a map from names the
    last value of a repeated name counts, but a part that is given twice is
    refused. -/

namespace Offside.Automaton

/-- Put a value under a key into a list that is in the order of its keys; a
    value that the key has already is replaced. -/
def insertKey {α : Type} (key : String) (value : α) :
    List (String × α) → List (String × α)
  | [] => [(key, value)]
  | (k, v) :: entries =>
      if key < k then (key, value) :: (k, v) :: entries
      else if key = k then (key, value) :: entries
      else (k, v) :: insertKey key value entries

/-- Entries in the order of their keys, of each key the last one. -/
def inKeyOrder {α : Type} (entries : List (String × α)) : List (String × α) :=
  entries.foldl (fun sorted entry => insertKey entry.1 entry.2 sorted) []

/-- A number or a text. -/
def Entry.ofJson? : Json → Option Entry
  | .integer (.ofNat n) => some (.number n)
  | .string s => some (.text s)
  | _ => none

/-- A map from names to numbers or texts. -/
def entries? : Json → Option (List (String × Entry))
  | .object members =>
      (members.mapM fun member : String × Json =>
        (Entry.ofJson? member.2).map (Prod.mk member.1)).map inKeyOrder
  | _ => none

/-- The greatest left-hand side that can be written. -/
def greatestLhs : Int := 0x7fff_ffff_ffff_ffff

/-- A pair of a left-hand side and a length. -/
def production? : Json → Option (Int × Nat)
  | .array [.integer lhs, .integer (.ofNat length)] =>
      if lhs ≤ greatestLhs then some (lhs, length) else none
  | _ => none

/-- A list of pairs of a left-hand side and a length. -/
def productions? : Json → Option (List (Int × Nat))
  | .array items => items.mapM production?
  | _ => none

/-- A list of maps. -/
def rows? : Json → Option (List (List (String × Entry)))
  | .array items => items.mapM entries?
  | _ => none

/-- Whether a name is that of a part of a document. -/
def isPart (name : String) : Bool :=
  ["tokens", "nonterminals", "productions", "table"].contains name

/-- The value of a member that must not be given twice. -/
def member? (members : List (String × Json)) (key : String) : Option (Option Json) :=
  match members.filter (·.1 == key) with
  | [] => some none
  | [(_, value)] => some (some value)
  | _ => none

/-- A document from its parts. -/
def Document.ofParts? (tokens nonterminals productions table : Json) : Option Document :=
  match entries? tokens, entries? nonterminals, productions? productions, rows? table with
  | some tokens, some nonterminals, some productions, some table =>
      some ⟨tokens, nonterminals, productions, table⟩
  | _, _, _, _ => none

/-- A document from a JSON value. -/
def Document.ofJson? : Json → Option Document
  | .array [tokens, nonterminals, productions, table] =>
      ofParts? tokens nonterminals productions table
  | .object members =>
      match member? members "tokens", member? members "nonterminals",
          member? members "productions", member? members "table" with
      | some (some tokens), some nonterminals, some (some productions), some (some table) =>
          ofParts? tokens (nonterminals.getD (.object [])) productions table
      | _, _, _, _ => none
  | _ => none

/-- The automaton that a JSON text describes. -/
def Table.read (text : String) : Except GrammarFault Table :=
  match (Json.read? isPart text).bind Document.ofJson? with
  | none => .error .malformed
  | some document => document.toTable

end Offside.Automaton

import Offside.Binary64

/-! # TOML values — and how tables come about

    A table remembers how it was written, because that decides whether more
    keys may still be added to it. -/

namespace Offside

/-- How a table was written. -/
inductive Toml.Origin where
  /-- Between braces. -/
  | inline
  /-- Under a header of its own. -/
  | header
  /-- As a part of the path in another table's header. -/
  | implied
  /-- By a dotted key. -/
  | dotted
deriving DecidableEq, Repr

/-- A TOML value.  Dates and times are kept as their text. -/
inductive Toml where
  | bool (b : Bool)
  | integer (n : Int)
  | float (x : Binary64)
  | string (s : String)
  | array (items : List Toml)
  | table (origin : Toml.Origin) (entries : List (String × Toml))
  /-- Tables under a repeated header. -/
  | tables (items : List (List (String × Toml)))
deriving Repr, Inhabited

namespace Toml

/-- The keys of a table with their values. -/
abbrev Entries := List (String × Toml)

/-- Replace the value of a key that is present. -/
def replace (key : String) (value : Toml) (entries : Entries) : Entries :=
  entries.map fun (k, v) => if k == key then (k, value) else (k, v)

/-- Change the table at the end of a path.  Tables that are missing on the
    way are made; a repeated header stands for its last table.  A dotted
    path cannot enter a table that has a header of its own, and no path can
    enter a value. -/
def update (made : Origin) : List String → (Origin → Entries → Option Entries) →
    Origin → Entries → Option Entries
  | [], change, origin, entries => change origin entries
  | key :: path, change, _, entries =>
      match entries.lookup key with
      | none =>
          (update made path change made []).map fun sub => entries ++ [(key, .table made sub)]
      | some (.table origin sub) =>
          if origin = .inline ∨ (made = .dotted ∧ origin = .header) then none
          else
            (update made path change origin sub).map fun sub =>
              replace key (.table origin sub) entries
      | some (.tables items) =>
          match items.reverse with
          | [] => none
          | last :: earlier =>
              (update made path change .header last).map fun last =>
                replace key (.tables (last :: earlier).reverse) entries
      | some _ => none

/-- Give a key in the table of a dotted path its value. -/
def assign (path : List String) (key : String) (value : Toml) :
    Origin → Entries → Option Entries :=
  update .dotted path fun origin entries =>
    if (origin == .dotted) == path.isEmpty then none
    else if (entries.lookup key).isSome then none
    else some (entries ++ [(key, value)])

/-- Open the table of a header, given by the path to it and its key. -/
def openTable (path : List String) (key : String) (root : Entries) : Option Entries :=
  update .implied path (fun _ entries =>
    match entries.lookup key with
    | none => some (entries ++ [(key, .table .header [])])
    | some (.table .implied sub) => some (replace key (.table .header sub) entries)
    | some _ => none) .header root

/-- Add a table under a repeated header. -/
def addTable (path : List String) (key : String) (root : Entries) : Option Entries :=
  update .implied path (fun _ entries =>
    match entries.lookup key with
    | none => some (entries ++ [(key, .tables [[]])])
    | some (.tables items) => some (replace key (.tables (items ++ [[]])) entries)
    | some _ => none) .header root

end Toml

end Offside

import Offside.Settings.Path
import Offside.Toml.Value
import Offside.Unicode.Lower

/-! # Setting values — what the layers of the settings are made of

    A setting is a tree of tables and lists with values at the leaves; what
    comes from a file remembers that file.  A layer is put over another one
    table by table, with the keys in lower case, and a table that comes
    about in this way belongs to no file.  A value, a list and a table
    replace each other whole. -/

namespace Offside

/-- A value without parts. -/
inductive Scalar where
  | bool (b : Bool)
  | integer (n : Int)
  | float (x : Binary64)
  | string (s : String)
deriving DecidableEq, Repr

/-- A value, a list or a table of settings. -/
inductive Setting where
  /-- What nobody has set: an item that only makes a list long enough. -/
  | unset
  | scalar (value : Scalar) (file : Option String)
  | list (items : List Setting) (file : Option String)
  | table (entries : List (String × Setting)) (file : Option String)
deriving Repr, Inhabited

namespace Setting

/-- A text in lower case. -/
def lowerCase (s : String) : String := String.ofList (Unicode.toLower s.toList)

/-! ## Parts -/

/-- Give a key its value, in its old place if it has one. -/
def insertEntry (key : String) (value : Setting) :
    List (String × Setting) → List (String × Setting)
  | [] => [(key, value)]
  | (k, v) :: entries =>
      if k = key then (key, value) :: entries else (k, v) :: insertEntry key value entries

/-- The entries of a table with its file; anything else has none. -/
def asTable : Setting → List (String × Setting) × Option String
  | table entries file => (entries, file)
  | unset => ([], none)
  | scalar .. => ([], none)
  | list .. => ([], none)

/-- The items of a list with its file; anything else has none. -/
def asList : Setting → List Setting × Option String
  | list items file => (items, file)
  | unset => ([], none)
  | scalar .. => ([], none)
  | table .. => ([], none)

/-- Change what a table has under a key, in lower case. -/
def alterKey (key : String) (change : Option Setting → Setting) (s : Setting) : Setting :=
  let key := lowerCase key
  let (entries, file) := s.asTable
  table (insertEntry key (change (entries.lookup key)) entries) file

/-- The place in a list of some length that an index stands for; what lies
    before the start stands for the start. -/
def position (length : Nat) : Int → Nat
  | .ofNat n => n
  | .negSucc n => length - (n + 1)

/-- Change an item of a list, which is made long enough to have it. -/
def alterItem (index : Int) (change : Setting → Setting) (s : Setting) : Setting :=
  let (items, file) := s.asList
  let place := position items.length index
  let items := items ++ List.replicate (place + 1 - items.length) unset
  list (items.modify place change) file

/-! ## Layers -/

mutual

/-- Put a setting under a key.  A table is put entry by entry over what is
    there, so an empty table changes nothing. -/
def put : Setting → String → Setting → Setting
  | table incoming _, key, root =>
      root.alterKey key fun old => putAll incoming (old.getD (table [] none))
  | unset, key, root => root.alterKey key fun _ => unset
  | scalar value file, key, root => root.alterKey key fun _ => scalar value file
  | list items file, key, root => root.alterKey key fun _ => list items file

/-- Put the entries of a table under their keys. -/
def putAll : List (String × Setting) → Setting → Setting
  | [], root => root
  | (key, value) :: incoming, root => putAll incoming (put value key root)

end

/-- Put a setting at the end of a path, given by its first part and those
    after it.  Under a key it is put over what is there, and as an item it
    replaces what is there. -/
def putPath (value : Setting) : SettingPart → List SettingPart → Setting → Setting
  | .key name, [], s => put value name s
  | .item index, [], s => s.alterItem index fun _ => value
  | .key name, next :: path, s =>
      s.alterKey name fun old => putPath value next path (old.getD unset)
  | .item index, next :: path, s => s.alterItem index (putPath value next path)

/-- Put a setting at the end of a path from the root. -/
def putAt (value : Setting) (path : SettingPath) (root : Setting) : Setting :=
  putPath value (.key path.key) path.parts root

/-! ## From TOML -/

/-- Put an entry into a list that is in the order of its keys. -/
def insertOrdered {α : Type} (key : String) (value : α) :
    List (String × α) → List (String × α)
  | [] => [(key, value)]
  | (k, v) :: entries =>
      if key < k then (key, value) :: (k, v) :: entries
      else (k, v) :: insertOrdered key value entries

/-- Entries in the order of their keys. -/
def ordered {α : Type} (entries : List (String × α)) : List (String × α) :=
  entries.foldl (fun sorted entry => insertOrdered entry.1 entry.2 sorted) []

mutual

/-- A TOML value of a file as a setting. -/
def ofToml (file : Option String) : Toml → Setting
  | .bool b => scalar (.bool b) file
  | .integer n => scalar (.integer n) file
  | .float x => scalar (.float x) file
  | .string s => scalar (.string s) file
  | .array items => list (ofItems file items) file
  | .table _ entries => table (ordered (ofEntries file entries)) file
  | .tables items => list (ofTables file items) file

/-- The items of an array as settings. -/
def ofItems (file : Option String) : List Toml → List Setting
  | [] => []
  | item :: items => ofToml file item :: ofItems file items

/-- The entries of a table as settings. -/
def ofEntries (file : Option String) : List (String × Toml) → List (String × Setting)
  | [] => []
  | (key, value) :: entries => (key, ofToml file value) :: ofEntries file entries

/-- Tables under a repeated header as settings. -/
def ofTables (file : Option String) : List (List (String × Toml)) → List Setting
  | [] => []
  | entries :: items => table (ordered (ofEntries file entries)) file :: ofTables file items

end

/-- Put the entries of a document over a setting; a key that spells a path
    at the top of the document stands for that path. -/
def putDocument (entries : List (String × Setting)) (root : Setting) : Setting :=
  entries.foldl (fun root entry =>
    match SettingPath.read? entry.1 with
    | some path => putAt entry.2 path root
    | none => put entry.2 entry.1 root) root

end Setting

end Offside

import Offside.Files
import Offside.Language.Basic
import Offside.Preparation
import Offside.Settings.Value
import Offside.Toml.Reader

/-! # Settings — layers of files and single values over the defaults

    The defaults lie at the bottom, files above them in the order in which
    they are given, and single values on top of all files.  What comes out
    is read into `Settings`: unknown keys are ignored, and values are
    converted where that makes sense. -/

namespace Offside

/-- How trees and tokens are printed. -/
inductive OutputFormat where
  | json
  | yaml
  | debug
deriving DecidableEq, Repr

/-- All that can be set. -/
structure Settings where
  captureLocations : Bool
  preparation : Preparation
  format : OutputFormat
  pretty : Bool
deriving DecidableEq, Repr

/-- Why settings cannot be loaded. -/
inductive SettingsFault where
  /-- A key of a single value that is no path. -/
  | badKey (key : String)
  | missingFile (name : String)
  /-- A file that is not text. -/
  | notText (name : String)
  /-- A file that is no valid document. -/
  | invalidFile (name : String)
  | wrongType (found expected key : String) (file : Option String)
  /-- A section that is no table. -/
  | notASection (found name : String)
  /-- A section given as a list that is too short. -/
  | shortSection (length : Nat) (name : String) (fields : Nat)
  | unknownFormat (given : String)
  | notAFormat
  | missingField (name : String)
deriving DecidableEq, Repr

/-- The fault in words. -/
def SettingsFault.message : SettingsFault → String
  | badKey key => "invalid key \"" ++ key ++ "\""
  | missingFile name => "configuration file \"" ++ name ++ "\" not found"
  | notText _ => "stream did not contain valid UTF-8"
  | invalidFile name => "invalid TOML in " ++ name
  | wrongType found expected key file =>
      "invalid type: " ++ found ++ ", expected " ++ expected ++ " for key \x60" ++ key ++ "\x60"
        ++ (file.elim "" fun name => " in " ++ name)
  | notASection found name => "invalid type: " ++ found ++ ", expected struct " ++ name
  | shortSection length name fields =>
      "invalid length " ++ Text.decimal length ++ ", expected struct " ++ name ++ " with "
        ++ Text.decimal fields ++ (if fields = 1 then " element" else " elements")
  | unknownFormat given => "enum OutputFormat does not have variant constructor " ++ given
  | notAFormat =>
      "value of enum OutputFormat should be represented by either string or table with "
        ++ "exactly one key"
  | missingField name => "missing field \x60" ++ name ++ "\x60"

namespace Settings

/-! ## Values -/

/-- The texts that stand for true and for false. -/
def truth? (s : String) : Option Bool :=
  if s ∈ ["1", "true", "on", "yes"] then some true
  else if s ∈ ["0", "false", "off", "no"] then some false
  else none

/-- A setting as a truth value. -/
def asBool (key : String) : Setting → Except SettingsFault Bool
  | .scalar (.bool b) _ => .ok b
  | .scalar (.integer n) _ => .ok (n != 0)
  | .scalar (.float x) _ => .ok (!x.isZero)
  | .scalar (.string s) file =>
      let s := Setting.lowerCase s
      match truth? s with
      | some b => .ok b
      | none => .error (.wrongType ("string " ++ Text.quoted s) "a boolean" key file)
  | .unset => .error (.wrongType "unit value" "a boolean" key none)
  | .list _ file => .error (.wrongType "sequence" "a boolean" key file)
  | .table _ file => .error (.wrongType "map" "a boolean" key file)

/-- A truth value in words. -/
def boolText (b : Bool) : String := if b then "true" else "false"

/-- A setting as a text. -/
def asString (key : String) : Setting → Except SettingsFault String
  | .scalar (.bool b) _ => .ok (boolText b)
  | .scalar (.integer n) _ => .ok (Text.signedDecimal n)
  | .scalar (.float x) _ => .ok x.display
  | .scalar (.string s) _ => .ok s
  | .unset => .error (.wrongType "unit value" "a string" key none)
  | .list _ file => .error (.wrongType "sequence" "a string" key file)
  | .table _ file => .error (.wrongType "map" "a string" key file)

/-- The format with a name in any case. -/
def formatNamed (name : String) : Except SettingsFault OutputFormat :=
  match Setting.lowerCase name with
  | "json" => .ok .json
  | "yaml" => .ok .yaml
  | "debug" => .ok .debug
  | _ => .error (.unknownFormat name)

/-- A setting as a format: its name, or a table with its name as the key. -/
def asFormat : Setting → Except SettingsFault OutputFormat
  | .scalar (.string s) _ => formatNamed s
  | .table [(key, _)] _ => formatNamed key
  | _ => .error .notAFormat

/-! ## Sections -/

/-- A value that stands where a section should. -/
def sectionFault (name : String) : Scalar → SettingsFault
  | .bool b => .notASection ("boolean \x60" ++ boolText b ++ "\x60") name
  | .integer n => .notASection ("integer \x60" ++ Text.signedDecimal n ++ "\x60") name
  | .float x => .notASection ("floating point \x60" ++ x.displayWithPoint ++ "\x60") name
  | .string s => .notASection ("string " ++ Text.quoted s) name

/-- The fields of a section in their order, with the key of each.  A section
    may be a table, or a list with a value for every field. -/
def fields (name key : String) (names : List String) :
    Setting → Except SettingsFault (List (String × Option Setting))
  | .unset => .error (.notASection "unit value" name)
  | .scalar value _ => .error (sectionFault name value)
  | .list items _ =>
      .ok (names.zipIdx.map fun (_, i) =>
        (key ++ "[" ++ Text.decimal i ++ "]", items[i]?))
  | .table entries _ => .ok (names.map fun field => (key ++ "." ++ field, entries.lookup field))

/-- A field if it is present. -/
def present {α : Type} (convert : String → Setting → Except SettingsFault α)
    (field : String × Option Setting) : Except SettingsFault (Option α) :=
  match field.2 with
  | none => .ok none
  | some setting => (convert field.1 setting).map some

/-- A field that must be there. -/
def require {α : Type} (isList : Bool) (index : Nat) (name field : String) (count : Nat) :
    Option α → Except SettingsFault α
  | some value => .ok value
  | none =>
      if isList then .error (.shortSection index name count) else .error (.missingField field)

/-- Whether a section is given as a list. -/
def isList : Setting → Bool
  | .list .. => true
  | .unset => false
  | .scalar .. => false
  | .table .. => false

/-- The section about the parser. -/
def parserSection (s : Setting) : Except SettingsFault Bool := do
  let name := "ParserConfig"
  match ← fields name "parser" ["capture_locations"] s with
  | [capture] =>
      let capture ← present asBool capture
      require (isList s) 0 name "capture_locations" 1 capture
  | _ => throw (.missingField "parser")

/-- The section about the preparation of the source. -/
def inputSection (s : Setting) : Except SettingsFault Preparation := do
  let name := "InputConfig"
  match ← fields name "input" ["eof_marker", "strip_blank_lines", "normalize_line_endings"] s with
  | [marker, strip, normalize] =>
      let marker ← present asString marker
      let strip ← present asBool strip
      let normalize ← present asBool normalize
      let marker ← require (isList s) 0 name "eof_marker" 3 marker
      let strip ← require (isList s) 1 name "strip_blank_lines" 3 strip
      let normalize ← require (isList s) 2 name "normalize_line_endings" 3 normalize
      return ⟨marker, strip, normalize⟩
  | _ => throw (.missingField "input")

/-- The section about the output. -/
def outputSection (s : Setting) : Except SettingsFault (OutputFormat × Bool) := do
  let name := "OutputConfig"
  match ← fields name "output" ["format", "pretty"] s with
  | [format, pretty] =>
      let format ← present (fun _ => asFormat) format
      let pretty ← present asBool pretty
      let format ← require (isList s) 0 name "format" 2 format
      let pretty ← require (isList s) 1 name "pretty" 2 pretty
      return (format, pretty)
  | _ => throw (.missingField "output")

/-- The section with a name. -/
def section? (root : Setting) (name : String) : Except SettingsFault Setting :=
  match root.asTable.1.lookup name with
  | some s => .ok s
  | none => .error (.missingField name)

/-- The settings that a tree of values spells. -/
def ofSetting (root : Setting) : Except SettingsFault Settings := do
  let capture ← parserSection (← section? root "parser")
  let preparation ← inputSection (← section? root "input")
  let (format, pretty) ← outputSection (← section? root "output")
  return ⟨capture, preparation, format, pretty⟩

/-! ## Layers -/

/-- A layer over the defaults. -/
inductive Layer where
  /-- A file, which may have to exist. -/
  | file (name : String) (required : Bool)
  /-- A single value under a key that spells a path. -/
  | value (key : String) (value : Scalar)
deriving DecidableEq, Repr

/-- A value of the defaults. -/
def builtIn (value : Scalar) : Setting := .scalar value none

/-- A section of the defaults. -/
def builtInSection (entries : List (String × Scalar)) : Setting :=
  .table (entries.map fun (key, value) => (key, builtIn value)) none

/-- The defaults. -/
def defaults : Setting := .table [
  ("parser", builtInSection [("capture_locations", .bool true)]),
  ("input", builtInSection [
    ("eof_marker", .string Language.defaultMarker),
    ("strip_blank_lines", .bool true),
    ("normalize_line_endings", .bool true)]),
  ("output", builtInSection [("format", .string "json"), ("pretty", .bool true)])] none

/-- The names under which a settings file is looked for: its own, and its
    last part with the ending of settings files, whatever stays in place
    behind that part.  A way up to a directory has no such ending. -/
def candidates (name : String) : List String :=
  match (Files.splitPath name.toList).reverse.dropWhile Files.staysInPlace with
  | [] => [name]
  | last :: earlier =>
      if Files.movesUp last then [name]
      else [name, Files.joinPath (last :: earlier).reverse ++ ".toml"]

/-- The name of a file without the parts that stay in place. -/
def plainName (name : String) : String :=
  let parts := (Files.splitPath name.toList).filter fun part => !Files.staysInPlace part
  Files.joinPath (if name.startsWith "/" then [] :: parts else parts)

/-- The content of a settings file under the first name that leads to one. -/
def findFile (files : Files) (name : String) : Option (String × ByteArray) :=
  (candidates name).findSome? fun candidate =>
    match files candidate with
    | .content bytes => some (plainName candidate, bytes)
    | _ => none

/-- The entries of a settings file. -/
def readFile (name : String) (bytes : ByteArray) :
    Except SettingsFault (List (String × Setting)) :=
  match String.fromUTF8? bytes with
  | none => .error (.notText name)
  | some text =>
      match Toml.read? text with
      | none => .error (.invalidFile name)
      | some entries => .ok (Setting.ordered (Setting.ofEntries (some name) entries))

/-- Put the files among the layers over a setting.  A file that need not
    exist need not be text either, but a text has to be valid. -/
def putFiles (files : Files) : List Layer → Setting → Except SettingsFault Setting
  | [], root => .ok root
  | .value .. :: layers, root => putFiles files layers root
  | .file name required :: layers, root =>
      match findFile files name with
      | none =>
          if required then .error (.missingFile name) else putFiles files layers root
      | some (found, bytes) =>
          match readFile found bytes, required with
          | .ok entries, _ => putFiles files layers (Setting.putDocument entries root)
          | .error (.notText _), false => putFiles files layers root
          | .error fault, _ => .error fault

/-- The single values among the layers, with their paths. -/
def singleValues : List Layer → Except SettingsFault (List (SettingPath × Scalar))
  | [] => .ok []
  | .file .. :: layers => singleValues layers
  | .value key value :: layers =>
      match SettingPath.read? key with
      | none => .error (.badKey key)
      | some path => (singleValues layers).map ((path, value) :: ·)

/-- The settings that come out of the layers over the defaults. -/
def load (files : Files) (layers : List Layer) : Except SettingsFault Settings := do
  let values ← singleValues layers
  let root ← putFiles files layers defaults
  ofSetting (values.foldl (fun root entry => Setting.putAt (builtIn entry.2) entry.1 root) root)

end Settings

end Offside

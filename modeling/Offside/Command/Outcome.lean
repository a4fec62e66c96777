import Offside.Command.Invocation
import Offside.Json.Writer
import Offside.Tree.Display
import Offside.Yaml.Writer

/-! # Outcomes — what a run of the command prints

    The settings are loaded first and the source is read after them, so of
    two faults the one in the settings counts.  A result goes to the output,
    a fault to the error stream. -/

namespace Offside

/-- Why a source cannot be read. -/
inductive ReadFault where
  | missing
  | directory
  /-- The path goes through a file. -/
  | blocked
  | tooLong
  | notText
deriving DecidableEq, Repr

/-- The fault in the words of the system. -/
def ReadFault.message : ReadFault → String
  | missing => "No such file or directory (os error 2)"
  | directory => "Is a directory (os error 21)"
  | blocked => "Not a directory (os error 20)"
  | tooLong => "File name too long (os error 36)"
  | notText => "stream did not contain valid UTF-8"

/-- The text of a file. -/
def Files.text (files : Files) (path : String) : Except ReadFault String :=
  match files path with
  | .missing => .error .missing
  | .directory => .error .directory
  | .blocked => .error .blocked
  | .tooLong => .error .tooLong
  | .content bytes =>
      match String.fromUTF8? bytes with
      | none => .error .notText
      | some text => .ok text

/-- Why a request cannot be fulfilled. -/
inductive RequestFault where
  | settings (fault : SettingsFault)
  | unreadable (path : String) (fault : ReadFault)
  | grammar (fault : GrammarFault)
  | source (fault : Fault)

/-- The fault in words. -/
def RequestFault.message : RequestFault → String
  | settings fault => fault.message
  | unreadable path fault => "cannot read " ++ path ++ ": " ++ fault.message
  | grammar fault => fault.message
  | source fault => fault.message

/-! ## Results -/

/-- A token with the name of its kind. -/
structure TokenView where
  kind : String
  text : String
  span : Span
deriving DecidableEq, Repr

namespace TokenView

/-- A token with the name that a table has for its kind. -/
def ofToken (table : Automaton.Table) (t : Token) : TokenView :=
  ⟨(table.symbolName t.kind).getD "?", t.text, t.span⟩

/-- A view as an object. -/
def toJson (v : TokenView) : Json :=
  .object [("kind", .string v.kind), ("text", .string v.text), ("span", v.span.toJson)]

/-- A view as it is shown. -/
def shown (v : TokenView) : Shown :=
  .record "TokenView" [("kind", .string v.kind), ("text", .string v.text),
    ("span", v.span.shown)]

end TokenView

/-- What a task comes to. -/
inductive Product where
  | program (p : Program)
  | tokens (views : List TokenView)

namespace Product

/-- A result as data. -/
def toJson : Product → Json
  | program p => p.toJson
  | tokens views => .array (views.map TokenView.toJson)

/-- A result as it is shown. -/
def shown : Product → Shown
  | program p => p.shown
  | tokens views => .list (views.map TokenView.shown)

/-- A result in a format. -/
def render (product : Product) (format : OutputFormat) (pretty : Bool) : String :=
  match format with
  | .json => if pretty then product.toJson.pretty else product.toJson.compact
  | .yaml => Yaml.write product.toJson
  | .debug => product.shown.pretty

end Product

/-! ## Requests -/

namespace OutputFormat

/-- The name of a format. -/
def name : OutputFormat → String
  | json => "json"
  | yaml => "yaml"
  | debug => "debug"

end OutputFormat

namespace Request

/-- The layers that a request puts over the default settings. -/
def layers (r : Request) : List Settings.Layer :=
  (r.settingsFile.map fun name => .file name true).toList
    ++ (r.format.map fun format => .value "output.format" (.string format.name)).toList
    ++ (if r.withoutLocations then [.value "parser.capture_locations" (.bool false)] else [])

/-- The files that a request may look into. -/
def files (r : Request) : List String :=
  r.path :: (r.settingsFile.map Settings.candidates).getD []

/-- Do the task on a source that has its end marker. -/
def product (task : Task) (settings : Settings) (source : String) :
    Except RequestFault Product := do
  let language ← (Language.withMarker settings.preparation.marker).mapError .grammar
  match task with
  | .parse =>
      let p ← (language.parse source settings.captureLocations).mapError .source
      return .program p
  | .tokens =>
      let tokens ← (language.tokenize source).mapError .source
      return .tokens (tokens.map (TokenView.ofToken Language.table))

/-- The text that answers a request. -/
def answer (files : Files) (r : Request) : Except RequestFault String := do
  let settings ← (Settings.load files r.layers).mapError .settings
  let text ← (files.text r.path).mapError (.unreadable r.path)
  let product ← product r.task settings (settings.preparation.apply text)
  return product.render settings.format settings.pretty

end Request

/-! ## Runs -/

/-- What a run leaves behind. -/
structure Outcome where
  code : Nat
  stdout : String
  stderr : String
deriving DecidableEq, Repr

namespace Outcome

/-- A run that prints a result. -/
def success (text : String) : Outcome := ⟨0, text ++ "\n", ""⟩

/-- A run that fails at its task. -/
def failure (fault : RequestFault) : Outcome := ⟨1, "", "error: " ++ fault.message ++ "\n"⟩

/-- How the command is used. -/
def usage : String :=
  "usage: yapl parse <path> [--config <file>] [--format json|yaml|debug] [--no-locations]\n"
    ++ "       yapl tokens <path> [--config <file>] [--format json|yaml|debug]\n"

/-- A run whose arguments cannot be understood. -/
def misuse : Outcome := ⟨2, "", usage⟩

/-- The run for some arguments. -/
def ofArguments (files : Files) (arguments : List String) : Outcome :=
  match Invocation.read? arguments with
  | none => misuse
  | some .version => success "yapl 0.1.0"
  | some (.request r) =>
      match r.answer files with
      | .ok text => success text
      | .error fault => failure fault

end Outcome

end Offside

import Offside.Settings.Basic

/-! # Invocations — what the arguments of the command ask for

    The first argument names a task; the others are the path of a source
    and options, in any order.  An option may be given once.  Its value is
    the next argument, or it is attached to the option.  After a lone double
    dash all arguments are paths. -/

namespace Offside

/-- What can be done with a source. -/
inductive Task where
  /-- Print the tree. -/
  | parse
  /-- Print the tokens. -/
  | tokens
deriving DecidableEq, Repr

/-- A task with everything that is needed to do it. -/
structure Request where
  task : Task
  path : String
  settingsFile : Option String
  format : Option OutputFormat
  withoutLocations : Bool
deriving DecidableEq, Repr

/-- What the arguments ask for. -/
inductive Invocation where
  | version
  | request (r : Request)
deriving DecidableEq, Repr

namespace Invocation

/-- An option that has a value. -/
inductive Parameter where
  | settingsFile
  | format
deriving DecidableEq, Repr

/-- What an argument is on its own. -/
inductive Argument where
  | plain (text : String)
  | separator
  | parameter (name : Parameter) (attached : Option String)
  | withoutLocations
  | unknown
deriving DecidableEq, Repr

/-- A value that is attached to a short option, perhaps by an equals sign. -/
def attachedValue? : List Char → Option String
  | [] => none
  | '=' :: value => some (String.ofList value)
  | value => some (String.ofList value)

/-- A long option, without its dashes. -/
def Argument.ofLong (cs : List Char) : Argument :=
  let (name, value) := cs.span (· != '=')
  let attached := match value with
    | [] => none
    | _ :: value => some (String.ofList value)
  match String.ofList name, attached with
  | "config", attached => .parameter .settingsFile attached
  | "format", attached => .parameter .format attached
  | "no-locations", none => .withoutLocations
  | _, _ => .unknown

/-- An argument by its dashes. -/
def Argument.ofString (s : String) : Argument :=
  match s.toList with
  | ['-', '-'] => .separator
  | '-' :: '-' :: cs => .ofLong cs
  | '-' :: 'c' :: cs => .parameter .settingsFile (attachedValue? cs)
  | '-' :: 'f' :: cs => .parameter .format (attachedValue? cs)
  | '-' :: _ :: _ => .unknown
  | _ => .plain s

/-- What has been read of a request. -/
structure Draft where
  path : Option String
  settingsFile : Option String
  format : Option OutputFormat
  withoutLocations : Bool
deriving DecidableEq, Repr

namespace Draft

/-- Nothing yet. -/
def empty : Draft := ⟨none, none, none, false⟩

/-- Add a path, of which there is only one. -/
def addPath (d : Draft) (path : String) : Option Draft :=
  if d.path.isSome then none else some { d with path := some path }

/-- The format with exactly this name. -/
def formatNamed? : String → Option OutputFormat
  | "json" => some .json
  | "yaml" => some .yaml
  | "debug" => some .debug
  | _ => none

/-- Add the value of an option that has not been given yet. -/
def addValue (d : Draft) (value : String) : Parameter → Option Draft
  | .settingsFile =>
      if d.settingsFile.isSome then none else some { d with settingsFile := some value }
  | .format =>
      if d.format.isSome then none
      else (formatNamed? value).map fun format => { d with format := some format }

/-- Add the wish for a tree without locations. -/
def addWithoutLocations (d : Draft) : Option Draft :=
  if d.withoutLocations then none else some { d with withoutLocations := true }

/-- The request of a task, if it has its path; locations are a matter of
    trees alone. -/
def request? (d : Draft) (task : Task) : Option Request :=
  if task = .tokens ∧ d.withoutLocations then none
  else
    d.path.map fun path => ⟨task, path, d.settingsFile, d.format, d.withoutLocations⟩

/-- Read arguments; `waiting` is an option whose value must be the next
    one. -/
def read (waiting : Option Parameter) (d : Draft) : List String → Option Draft
  | [] => if waiting.isSome then none else some d
  | argument :: arguments =>
      match Argument.ofString argument, waiting with
      | .plain text, some name => (d.addValue text name).bind fun d => read none d arguments
      | .plain text, none => (d.addPath text).bind fun d => read none d arguments
      | .separator, none => arguments.foldlM addPath d
      | .parameter name (some value), none =>
          (d.addValue value name).bind fun d => read none d arguments
      | .parameter name none, none => read (some name) d arguments
      | .withoutLocations, none => d.addWithoutLocations.bind fun d => read none d arguments
      | .unknown, none => none
      | _, some _ => none

end Draft

/-- Whether an argument in front of the task asks for the version. -/
def asksVersion (argument : String) : Bool :=
  argument == "--version" || ['-', 'V'].isPrefixOf argument.toList

/-- What the arguments ask for, if they can be understood. -/
def read? : List String → Option Invocation
  | [] => none
  | "parse" :: arguments =>
      ((Draft.read none .empty arguments).bind (·.request? .parse)).map request
  | "tokens" :: arguments =>
      ((Draft.read none .empty arguments).bind (·.request? .tokens)).map request
  | argument :: _ => if asksVersion argument then some version else none

end Invocation

end Offside

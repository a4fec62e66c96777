import Offside.Json.Value
import Offside.Shown
import Offside.Token
import Offside.Tree.Basic

/-! # Trees as data — for serialized output and for messages

    Serialized nodes leave out the fields that are absent.  A declaration
    that stands as a statement is marked by its type.  Shown nodes have all
    their fields. -/

namespace Offside

/-! ## JSON -/

/-- A span as an object. -/
def Span.toJson (s : Span) : Json :=
  .object [("start_offset", .nat s.startOffset), ("end_offset", .nat s.endOffset),
    ("start_line", .nat s.startLine), ("end_line", .nat s.endLine),
    ("start_column", .nat s.startColumn), ("end_column", .nat s.endColumn)]

/-- The member for a location, if there is one. -/
def locationMember : Option Span → List (String × Json)
  | none => []
  | some span => [("location", span.toJson)]

/-- The member for a comment, if there is one. -/
def commentMember : Option String → List (String × Json)
  | none => []
  | some comment => [("comment", .string comment)]

mutual

/-- The members of a declaration. -/
def Module.members : Module → List (String × Json)
  | .mk name body location =>
      ("name", .string name) :: (Block.bodyMember body ++ locationMember location)

/-- A block as an object. -/
def Block.toJson : Block → Json
  | .mk comment statements location =>
      .object (commentMember comment
        ++ ("statements", .array (Module.statementsToJson statements))
          :: locationMember location)

/-- The member for the block of a declaration, if there is one. -/
def Block.bodyMember : Option Block → List (String × Json)
  | none => []
  | some block => [("body", block.toJson)]

/-- Declarations as statements. -/
def Module.statementsToJson : List Module → List Json
  | [] => []
  | m :: ms =>
      .object (("type", .string "Module") :: m.members) :: Module.statementsToJson ms

end

/-- A declaration as an object. -/
def Module.toJson (m : Module) : Json := .object m.members

/-- A declaration as a statement. -/
def Module.statementToJson (m : Module) : Json :=
  .object (("type", .string "Module") :: m.members)

/-- A program as an object. -/
def Program.toJson (p : Program) : Json :=
  .object (("statements", .array (Module.statementsToJson p.statements))
    :: locationMember p.location)

/-! ## Shown form -/

/-- A location as it is shown. -/
def showLocation (location : Option Span) : Shown := .option (location.map Span.shown)

/-- A token as it is shown. -/
def Token.shown (t : Token) : Shown :=
  .record "Token" [("kind", .nat t.kind), ("text", .string t.text), ("span", t.span.shown)]

mutual

/-- A declaration as it is shown. -/
def Module.shown : Module → Shown
  | .mk name body location =>
      .record "Module" [("name", .string name), ("body", Block.shownBody body),
        ("location", showLocation location)]

/-- A block as it is shown. -/
def Block.shown : Block → Shown
  | .mk comment statements location =>
      .record "Block" [("comment", .option (comment.map Shown.string)),
        ("statements", .list (Module.shownStatements statements)),
        ("location", showLocation location)]

/-- The block of a declaration as it is shown. -/
def Block.shownBody : Option Block → Shown
  | none => .word "None"
  | some block => .call "Some" block.shown

/-- Declarations as statements, as they are shown. -/
def Module.shownStatements : List Module → List Shown
  | [] => []
  | m :: ms => .call "Module" m.shown :: Module.shownStatements ms

end

/-- A declaration as a statement, as it is shown. -/
def Module.shownStatement (m : Module) : Shown := .call "Module" m.shown

/-- A program as it is shown. -/
def Program.shown (p : Program) : Shown :=
  .record "Program" [("statements", .list (Module.shownStatements p.statements)),
    ("location", showLocation p.location)]

end Offside

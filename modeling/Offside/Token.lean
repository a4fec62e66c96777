import Offside.Span

/-! # Tokens — symbols with the text they were read from

    A symbol of the grammar, terminal or not, is a column of the action
    table.  A token is a symbol, a text, and the span it was read from.  The
    tokens that stand for indentation carry the span of the line break they
    come from. -/

namespace Offside

/-- A grammar symbol: its column in the action table. -/
abbrev Symbol := Nat

/-- A symbol read from the source. -/
structure Token where
  kind : Symbol
  text : String
  span : Span
deriving DecidableEq, Repr, Inhabited

end Offside

import Offside.Fault

/-! # Token sources — where an automaton gets its tokens from

    A source hands out tokens one at a time until it has none left.  A
    source that reads text can fail, and it can show the line that a
    message points into. -/

namespace Offside

/-- Something that hands out tokens. -/
class TokenSource (ι : Type) where
  /-- The next token, none at the end, and the source after it. -/
  next : ι → Except Fault (Option Token) × ι
  /-- Whether a token is still to come. -/
  hasMore : ι → Bool
  /-- The line of source for a message about a line and column. -/
  excerpt : ι → Nat → Nat → Option Excerpt

/-- Tokens that are known beforehand. -/
structure TokenList where
  remaining : List Token
deriving DecidableEq, Repr

namespace TokenList

/-- The next token of a list. -/
def next (s : TokenList) : Option Token × TokenList :=
  (s.remaining.head?, ⟨s.remaining.tail⟩)

/-- Whether a list has a token left. -/
def hasMore (s : TokenList) : Bool := !s.remaining.isEmpty

instance : TokenSource TokenList where
  next s := (.ok s.next.1, s.next.2)
  hasMore := hasMore
  excerpt _ _ _ := none

end TokenList

end Offside

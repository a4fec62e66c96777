import Offside.Automaton.Document

/-! # The automaton of the module language

    The grammar, with the number of each production:

        0   $accept       -> Program
        1   Program       -> Statements EOF_MARKER
        2   Statements    -> Statement
        3   Statements    -> Statements NL Statement
        4   Statements    -> Statements NL
        5   Statement     -> Module
        6   OptionalBlock -> Block
        7   OptionalBlock ->
        8   Block         -> INDENT SEMANTIC_COMMENT DEDENT
        9   Block         -> INDENT SEMANTIC_COMMENT NL Statements DEDENT
        10  Block         -> INDENT Statements DEDENT
        11  Module        -> KEYWORD_MODULE DOT_DELIMITED_IDENTIFIER OptionalBlock

    The automaton stands here twice, as the document it is written in and
    as the table that the document describes. -/

namespace Offside

namespace Language

/-- The document of the automaton. -/
def document : Automaton.Document where
  tokens := [
    ("$", .text "14"), ("DEDENT", .text "9"), ("DOT_DELIMITED_IDENTIFIER", .text "11"),
    ("EOF_MARKER", .text "13"), ("IDENTIFIER", .text "12"), ("INDENT", .text "7"),
    ("KEYWORD_MODULE", .text "10"), ("NL", .text "6"), ("SEMANTIC_COMMENT", .text "8")]
  nonterminals := [
    ("Block", .number 4), ("Module", .number 5), ("OptionalBlock", .number 3),
    ("Program", .number 0), ("Statement", .number 2), ("Statements", .number 1)]
  productions := [
    (-1, 1), (0, 2), (1, 1), (1, 3), (1, 2), (2, 1), (3, 1), (3, 0), (4, 3), (4, 5), (4, 3),
    (5, 3)]
  table := [
    [("0", .number 1), ("1", .number 2), ("10", .text "s5"), ("2", .number 3), ("5", .number 4)],
    [("14", .text "acc")],
    [("13", .text "s6"), ("6", .text "s7")],
    [("13", .text "r2"), ("6", .text "r2"), ("9", .text "r2")],
    [("13", .text "r5"), ("6", .text "r5"), ("9", .text "r5")],
    [("11", .text "s8")],
    [("14", .text "r1")],
    [("10", .text "s5"), ("13", .text "r4"), ("2", .number 9), ("5", .number 4),
      ("6", .text "r4"), ("9", .text "r4")],
    [("13", .text "r7"), ("3", .number 10), ("4", .number 11), ("6", .text "r7"),
      ("7", .text "s12"), ("9", .text "r7")],
    [("13", .text "r3"), ("6", .text "r3"), ("9", .text "r3")],
    [("13", .text "r11"), ("6", .text "r11"), ("9", .text "r11")],
    [("13", .text "r6"), ("6", .text "r6"), ("9", .text "r6")],
    [("1", .number 14), ("10", .text "s5"), ("2", .number 3), ("5", .number 4),
      ("8", .text "s13")],
    [("6", .text "s16"), ("9", .text "s15")],
    [("6", .text "s7"), ("9", .text "s17")],
    [("13", .text "r8"), ("6", .text "r8"), ("9", .text "r8")],
    [("1", .number 18), ("10", .text "s5"), ("2", .number 3), ("5", .number 4)],
    [("13", .text "r10"), ("6", .text "r10"), ("9", .text "r10")],
    [("6", .text "s7"), ("9", .text "s19")],
    [("13", .text "r9"), ("6", .text "r9"), ("9", .text "r9")]]

/-- The automaton of the grammar. -/
def table : Automaton.Table where
  rows := [
    [(5, .goto 4), (2, .goto 3), (10, .shift 5), (1, .goto 2), (0, .goto 1)],
    [(14, .accept)],
    [(6, .shift 7), (13, .shift 6)],
    [(9, .reduce 2), (6, .reduce 2), (13, .reduce 2)],
    [(9, .reduce 5), (6, .reduce 5), (13, .reduce 5)],
    [(11, .shift 8)],
    [(14, .reduce 1)],
    [(9, .reduce 4), (6, .reduce 4), (5, .goto 4), (2, .goto 9), (13, .reduce 4), (10, .shift 5)],
    [(9, .reduce 7), (7, .shift 12), (6, .reduce 7), (4, .goto 11), (3, .goto 10),
      (13, .reduce 7)],
    [(9, .reduce 3), (6, .reduce 3), (13, .reduce 3)],
    [(9, .reduce 11), (6, .reduce 11), (13, .reduce 11)],
    [(9, .reduce 6), (6, .reduce 6), (13, .reduce 6)],
    [(8, .shift 13), (5, .goto 4), (2, .goto 3), (10, .shift 5), (1, .goto 14)],
    [(9, .shift 15), (6, .shift 16)],
    [(9, .shift 17), (6, .shift 7)],
    [(9, .reduce 8), (6, .reduce 8), (13, .reduce 8)],
    [(5, .goto 4), (2, .goto 3), (10, .shift 5), (1, .goto 18)],
    [(9, .reduce 10), (6, .reduce 10), (13, .reduce 10)],
    [(9, .shift 19), (6, .shift 7)],
    [(9, .reduce 9), (6, .reduce 9), (13, .reduce 9)]]
  productions := [
    ⟨none, 1⟩, ⟨some 0, 2⟩, ⟨some 1, 1⟩, ⟨some 1, 3⟩, ⟨some 1, 2⟩, ⟨some 2, 1⟩, ⟨some 3, 1⟩,
    ⟨some 3, 0⟩, ⟨some 4, 3⟩, ⟨some 4, 5⟩, ⟨some 4, 3⟩, ⟨some 5, 3⟩]
  terminals := [
    ("$", 14), ("DEDENT", 9), ("DOT_DELIMITED_IDENTIFIER", 11), ("EOF_MARKER", 13),
    ("IDENTIFIER", 12), ("INDENT", 7), ("KEYWORD_MODULE", 10), ("NL", 6),
    ("SEMANTIC_COMMENT", 8)]
  nonterminals := [
    ("Block", 4), ("Module", 5), ("OptionalBlock", 3), ("Program", 0), ("Statement", 2),
    ("Statements", 1)]
  endSymbol := 14

/-- The table is what the document describes. -/
theorem toTable_document : document.toTable = .ok table := rfl

end Language

end Offside

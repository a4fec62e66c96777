import Offside.Proofs.Language.Derivation
import Offside.Proofs.Language.Rendering

/-! # Layout — the tokens of a tree, and of its lines

    A tree has tokens of its own: a block is enclosed in its opening and its
    closing, and declarations are separated.  Line by line the closings come
    late, namely in front of the next line that stands further out.

    * `Module.signs` and the functions beside it are the tokens of a tree;
    * `Tail` are the tokens of lines, with the blocks that are still open;
    * `Module.Shaped.starts` says that both are the same;
    * `Module.AllShaped.exists_derivation` gives the tokens a derivation with
      the tree on it. -/

namespace Offside

/-- A token without its place: its kind, and its text where a tree keeps it. -/
abbrev Sign : Type := Symbol × String

open Offside.Language

/-- The sign of a token. -/
def Token.sign (t : Token) : Sign :=
  (t.kind, if t.kind = Kind.name ∨ t.kind = Kind.comment then t.text else "")

/-- The sign of a token whose text no tree keeps. -/
abbrev mark (kind : Symbol) : Sign := (kind, "")

/-! ## Tokens of a tree -/

mutual

/-- The tokens of a declaration. -/
def Module.signs : Module → List Sign
  | .mk name body _ => mark Kind.keyword :: (Kind.name, name) :: Block.bodySigns body

/-- The tokens of a block that may be absent. -/
def Block.bodySigns : Option Block → List Sign
  | none => []
  | some block => block.signs

/-- The tokens of a block. -/
def Block.signs : Block → List Sign
  | .mk (some text) ms _ =>
      mark Kind.indent :: (Kind.comment, text) :: (Module.moreSigns ms ++ [mark Kind.dedent])
  | .mk none (m :: ms) _ =>
      mark Kind.indent :: (m.signs ++ Module.moreSigns ms ++ [mark Kind.dedent])
  | .mk none [] _ => []

/-- The tokens of further declarations. -/
def Module.moreSigns : List Module → List Sign
  | [] => []
  | m :: ms => mark Kind.newline :: (m.signs ++ Module.moreSigns ms)

end

namespace Language

/-! ## Tokens of lines -/

/-- The tokens of a content. -/
def Content.signs : Content → List Sign
  | .declaration name _ => [mark Kind.keyword, (Kind.name, name)]
  | .remark text => [(Kind.comment, text)]

/-- The tokens of lines that follow a line of some depth, which opens a block
    or does not, up to the end. -/
inductive Tail : Nat → Bool → List Line → List Sign → Prop
  | done (depth : Nat) : Tail depth false []
      (List.replicate depth (mark Kind.dedent) ++ [mark Kind.marker, mark Kind.stop])
  | outward {depth next : Nat} {content : Content} {lines : List Line} {signs : List Sign} :
      next ≤ depth → Tail next content.opens lines signs →
      Tail depth false (⟨next, content⟩ :: lines)
        (List.replicate (depth - next) (mark Kind.dedent) ++
          mark Kind.newline :: (content.signs ++ signs))
  | inward {depth : Nat} {content : Content} {lines : List Line} {signs : List Sign} :
      Tail (depth + 1) content.opens lines signs →
      Tail depth true (⟨depth + 1, content⟩ :: lines)
        (mark Kind.indent :: (content.signs ++ signs))

/-- Lines that start at a depth, with their tokens. -/
inductive Starts (depth : Nat) : List Line → List Sign → Prop
  | mk {content : Content} {lines : List Line} {signs : List Sign} :
      Tail depth content.opens lines signs →
      Starts depth (⟨depth, content⟩ :: lines) (content.signs ++ signs)

/-- One level deeper there is one more block to close. -/
theorem Tail.deeper {depth : Nat} {lines : List Line} {signs : List Sign}
    (h : Tail depth false lines signs) :
    Tail (depth + 1) false lines (mark Kind.dedent :: signs) := by
  cases h with
  | done => exact .done (depth + 1)
  | outward hdepth htail =>
      have houter := Tail.outward (Nat.le_succ_of_le hdepth) htail
      rw [Nat.succ_sub hdepth, List.replicate_succ] at houter
      exact houter

/-- Lines at the same depth are separated. -/
theorem Starts.outward {depth : Nat} {lines : List Line} {signs : List Sign}
    (h : Starts depth lines signs) : Tail depth false lines (mark Kind.newline :: signs) := by
  obtain ⟨htail⟩ := h
  have houter := Tail.outward (Nat.le_refl depth) htail
  rw [Nat.sub_self] at houter
  exact houter

/-- Lines one level deeper are a block. -/
theorem Starts.inward {depth : Nat} {lines : List Line} {signs : List Sign}
    (h : Starts (depth + 1) lines signs) : Tail depth true lines (mark Kind.indent :: signs) := by
  obtain ⟨htail⟩ := h
  exact .inward htail

end Language

mutual

/-- The lines of a declaration have its tokens. -/
theorem Module.Shaped.starts {P : List Char → Prop} {m : Module} (h : m.Shaped P) {depth : Nat}
    {rest : List Line} {signs : List Sign} (hrest : Tail depth false rest signs) :
    Starts depth (m.lines depth ++ rest) (m.signs ++ signs) := by
  cases h with
  | @bare name hname =>
      have hline : Tail depth (Content.declaration name false).opens rest signs := hrest
      exact .mk hline
  | @block name b hname hb =>
      have hline : Tail depth (Content.declaration name true).opens
          (b.lines (depth + 1) ++ rest) (b.signs ++ signs) := hb.tail hrest
      exact .mk hline

theorem Block.Shaped.tail {P : List Char → Prop} {b : Block} (h : b.Shaped P) {depth : Nat}
    {rest : List Line} {signs : List Sign} (hrest : Tail depth false rest signs) :
    Tail depth true (b.lines (depth + 1) ++ rest) (b.signs ++ signs) := by
  cases h with
  | @remark text ms htext hms =>
      rw [Block.signs, List.cons_append, List.cons_append, List.append_assoc]
      -- the closing of this block comes in front of what follows it
      have hline : Tail (depth + 1) (Content.remark text).opens
          (Module.allLines (depth + 1) ms ++ rest)
          (Module.moreSigns ms ++ ([mark Kind.dedent] ++ signs)) := hms.tail hrest.deeper
      exact .inward hline
  | @statements m ms hm hms =>
      rw [Block.signs, List.cons_append, List.append_assoc, List.append_assoc]
      show Tail depth true (m.lines (depth + 1) ++ Module.allLines (depth + 1) ms ++ rest) _
      rw [List.append_assoc]
      exact (hm.starts (hms.tail hrest.deeper)).inward

/-- The lines of further declarations have their tokens. -/
theorem Module.AllShaped.tail {P : List Char → Prop} {ms : List Module}
    (h : Module.AllShaped P ms) {depth : Nat} {rest : List Line} {signs : List Sign}
    (hrest : Tail depth false rest signs) :
    Tail depth false (Module.allLines depth ms ++ rest) (Module.moreSigns ms ++ signs) := by
  cases h with
  | nil => exact hrest
  | @cons m ms hm hms =>
      rw [Module.moreSigns, List.cons_append, List.append_assoc, Module.allLines,
        List.append_assoc]
      exact (hm.starts (hms.tail hrest)).outward

end

/-! ## Derivations of tokens -/

/-- Tokens with a sign in front start with a token of that sign. -/
theorem exists_token {ts : List Token} {kind : Symbol} {text : String} {signs : List Sign}
    (h : ts.map Token.sign = (kind, text) :: signs) :
    ∃ t ts', ts = t :: ts' ∧ t.kind = kind ∧
      (kind = Kind.name ∨ kind = Kind.comment → t.text = text) ∧ ts'.map Token.sign = signs := by
  obtain ⟨t, ts', rfl, hsign, hrest⟩ := List.map_eq_cons_iff.mp h
  obtain ⟨hkind, htext⟩ := Prod.mk.inj hsign
  refine ⟨t, ts', rfl, hkind, ?_, hrest⟩
  intro hkept
  rw [if_pos (hkind ▸ hkept)] at htext
  exact htext

theorem derives_leaf {t : Token} {kind : Symbol} (h : t.kind = kind) :
    grammar.Derives (token kind) (.leaf t) := h ▸ .leaf t

theorem derives_statements {M : ParseTree} (h : grammar.Derives (phrase Kind.declaration) M) :
    grammar.Derives (phrase Kind.statements) (.node 2 [.node 5 [M]]) := by
  have hstatement : grammar.Derives (phrase Kind.statement) (.node 5 [M]) :=
    .node rfl rfl (.cons h .nil)
  exact .node rfl rfl (.cons hstatement .nil)

theorem derives_more {S M : ParseTree} {t : Token}
    (hS : grammar.Derives (phrase Kind.statements) S) (ht : t.kind = Kind.newline)
    (hM : grammar.Derives (phrase Kind.declaration) M) :
    grammar.Derives (phrase Kind.statements) (.node 3 [S, .leaf t, .node 5 [M]]) := by
  have hstatement : grammar.Derives (phrase Kind.statement) (.node 5 [M]) :=
    .node rfl rfl (.cons hM .nil)
  exact .node rfl rfl (.cons hS (.cons (derives_leaf ht) (.cons hstatement .nil)))

mutual

/-- The tokens of a declaration have a derivation that reads as it. -/
theorem Module.Shaped.exists_derivation {P : List Char → Prop} {m : Module} (h : m.Shaped P)
    {ts : List Token} (hts : ts.map Token.sign = m.signs) :
    ∃ T, grammar.Derives (phrase Kind.declaration) T ∧ T.yield = ts ∧
      readModule false T = m := by
  cases h with
  | @bare name hname =>
      obtain ⟨k, ts, rfl, hk, -, hts⟩ := exists_token hts
      obtain ⟨n, ts, rfl, hn, htext, hts⟩ := exists_token hts
      obtain rfl := List.map_eq_nil_iff.mp hts
      have hbody : grammar.Derives (phrase Kind.optionalBlock) (.node 7 []) :=
        .node rfl rfl .nil
      refine ⟨.node 11 [.leaf k, .leaf n, .node 7 []], .node rfl rfl
        (.cons (derives_leaf hk) (.cons (derives_leaf hn) (.cons hbody .nil))), rfl, ?_⟩
      show Module.mk n.text none none = _
      rw [htext (.inl rfl)]
  | @block name b hname hb =>
      obtain ⟨k, ts, rfl, hk, -, hts⟩ := exists_token hts
      obtain ⟨n, ts, rfl, hn, htext, hts⟩ := exists_token hts
      obtain ⟨B, hB, rfl, rfl⟩ := hb.exists_derivation hts
      have hbody : grammar.Derives (phrase Kind.optionalBlock) (.node 6 [B]) :=
        .node rfl rfl (.cons hB .nil)
      refine ⟨.node 11 [.leaf k, .leaf n, .node 6 [B]], .node rfl rfl
        (.cons (derives_leaf hk) (.cons (derives_leaf hn) (.cons hbody .nil))), ?_, ?_⟩
      · simp [ParseTree.yield, ParseTree.yields]
      · show Module.mk n.text (some (readBlock false B)) none = _
        rw [htext (.inl rfl)]

theorem Block.Shaped.exists_derivation {P : List Char → Prop} {b : Block} (h : b.Shaped P)
    {ts : List Token} (hts : ts.map Token.sign = b.signs) :
    ∃ T, grammar.Derives (phrase Kind.block) T ∧ T.yield = ts ∧ readBlock false T = b := by
  cases h with
  | @remark text ms htext hms =>
      obtain ⟨i, ts, rfl, hi, -, hts⟩ := exists_token hts
      obtain ⟨c, ts, rfl, hc, hctext, hts⟩ := exists_token hts
      obtain ⟨us, ds, rfl, hus, hds⟩ := List.map_eq_append_iff.mp hts
      obtain ⟨d, ds, rfl, hd, -, hds⟩ := exists_token hds
      obtain rfl := List.map_eq_nil_iff.mp hds
      cases hms with
      | nil =>
          obtain rfl := List.map_eq_nil_iff.mp hus
          refine ⟨.node 8 [.leaf i, .leaf c, .leaf d], .node rfl rfl
            (.cons (derives_leaf hi) (.cons (derives_leaf hc) (.cons (derives_leaf hd) .nil))),
            rfl, ?_⟩
          show Block.mk (some c.text) [] none = _
          rw [hctext (.inr rfl)]
      | @cons m ms hm hms =>
          obtain ⟨n, us, rfl, hn, -, hus⟩ := exists_token hus
          obtain ⟨vs, ws, rfl, hvs, hws⟩ := List.map_eq_append_iff.mp hus
          obtain ⟨M, hM, rfl, rfl⟩ := hm.exists_derivation hvs
          -- statements grow to the right, one declaration at a time
          obtain ⟨S, hS, hyield, hread⟩ := hms.exists_derivation hws (derives_statements hM)
          refine ⟨.node 9 [.leaf i, .leaf c, .leaf n, S, .leaf d], .node rfl rfl
            (.cons (derives_leaf hi) (.cons (derives_leaf hc) (.cons (derives_leaf hn)
              (.cons hS (.cons (derives_leaf hd) .nil))))), ?_, ?_⟩
          · simp [ParseTree.yield, ParseTree.yields, hyield]
          · show Block.mk (some c.text) (readStatements false S) none = _
            rw [hctext (.inr rfl), hread]
            rfl
  | @statements m ms hm hms =>
      obtain ⟨i, ts, rfl, hi, -, hts⟩ := exists_token hts
      obtain ⟨us, ds, rfl, hus, hds⟩ := List.map_eq_append_iff.mp hts
      obtain ⟨vs, ws, rfl, hvs, hws⟩ := List.map_eq_append_iff.mp hus
      obtain ⟨d, ds, rfl, hd, -, hds⟩ := exists_token hds
      obtain rfl := List.map_eq_nil_iff.mp hds
      obtain ⟨M, hM, rfl, rfl⟩ := hm.exists_derivation hvs
      obtain ⟨S, hS, hyield, hread⟩ := hms.exists_derivation hws (derives_statements hM)
      refine ⟨.node 10 [.leaf i, S, .leaf d], .node rfl rfl
        (.cons (derives_leaf hi) (.cons hS (.cons (derives_leaf hd) .nil))), ?_, ?_⟩
      · simp [ParseTree.yield, ParseTree.yields, hyield]
      · show Block.mk none (readStatements false S) none = _
        rw [hread]
        rfl

/-- The tokens of further declarations go on with a derivation. -/
theorem Module.AllShaped.exists_derivation {P : List Char → Prop} {ms : List Module}
    (h : Module.AllShaped P ms) {ts : List Token} (hts : ts.map Token.sign = Module.moreSigns ms)
    {S : ParseTree} (hS : grammar.Derives (phrase Kind.statements) S) :
    ∃ T, grammar.Derives (phrase Kind.statements) T ∧ T.yield = S.yield ++ ts ∧
      readStatements false T = readStatements false S ++ ms := by
  cases h with
  | nil =>
      obtain rfl := List.map_eq_nil_iff.mp hts
      exact ⟨S, hS, (List.append_nil _).symm, (List.append_nil _).symm⟩
  | @cons m ms hm hms =>
      obtain ⟨n, us, rfl, hn, -, hus⟩ := exists_token hts
      obtain ⟨vs, ws, rfl, hvs, hws⟩ := List.map_eq_append_iff.mp hus
      obtain ⟨M, hM, rfl, rfl⟩ := hm.exists_derivation hvs
      obtain ⟨T, hT, hyield, hread⟩ := hms.exists_derivation hws (derives_more hS hn hM)
      refine ⟨T, hT, ?_, ?_⟩
      · rw [hyield]
        simp [ParseTree.yield, ParseTree.yields]
      · rw [hread]
        show readStatements false S ++ [readModule false M] ++ ms = _
        rw [List.append_assoc]
        rfl

end

/-- The tokens of declarations, with the end marker and the end symbol behind
    them, have a derivation that reads as the program. -/
theorem exists_parses {P : List Char → Prop} {m : Module} {ms : List Module} (hm : m.Shaped P)
    (hms : Module.AllShaped P ms) {ts : List Token}
    (hts : ts.map Token.sign =
      m.signs ++ (Module.moreSigns ms ++ [mark Kind.marker, mark Kind.stop])) :
    ∃ T, grammar.Parses table.endSymbol T ts ∧ readProgram false T = ⟨m :: ms, none⟩ := by
  obtain ⟨us, vs, rfl, hus, hvs⟩ := List.map_eq_append_iff.mp hts
  obtain ⟨ws, es, rfl, hws, hes⟩ := List.map_eq_append_iff.mp hvs
  obtain ⟨e, es, rfl, he, -, hes⟩ := exists_token hes
  obtain ⟨last, es, rfl, hlast, -, hes⟩ := exists_token hes
  obtain rfl := List.map_eq_nil_iff.mp hes
  obtain ⟨M, hM, rfl, rfl⟩ := hm.exists_derivation hus
  obtain ⟨S, hS, hyield, hread⟩ := hms.exists_derivation hws (derives_statements hM)
  have hprogram : grammar.Derives (phrase Kind.program) (.node 1 [S, .leaf e]) :=
    .node rfl rfl (.cons hS (.cons (derives_leaf he) .nil))
  refine ⟨.node 1 [S, .leaf e], ⟨hprogram, last, hlast, ?_⟩, ?_⟩
  · simp [ParseTree.yield, ParseTree.yields, hyield]
  · show Program.mk (readStatements false S) none = _
    rw [hread]
    rfl

end Offside

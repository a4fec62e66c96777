import Offside.Proofs.Automaton.Loading
import Offside.Proofs.Lexer.Recovery

/-! # Safety — nothing goes wrong inside a lexer

    A lexer trusts the lexicon that it is given.  It takes the structural
    terminals to be there, what it matches to stand in front of the cursor, and
    the kinds of its tokens to be terminals.  Compiling a draft against a table
    that has been read sees to all of it, so none of the checks inside a lexer
    can fail but one: a line may still leave part of a block.

    * `InUse` are the lexers that calls lead to, and those within a call;
    * `Safe` lists what does not go wrong with one of them;
    * `Lexicon.Within` is said of a lexicon all of whose kinds are terminals,
      and `keeps_terminals` says that matches then come to terminals only;
    * `safe_of_inUse` joins this with what a match can come to. -/

namespace Offside

/-- All kinds in a lexicon are terminals of a table. -/
structure Lexicon.Within (t : Automaton.Table) (lexicon : Lexicon) : Prop where
  rules : ∀ rule ∈ lexicon.rules, ∀ kind, rule.action.kind? = some kind →
    t.isTerminal kind = true
  structural : ∀ structural, lexicon.structural = some structural →
    t.isTerminal structural.indent = true ∧ t.isTerminal structural.dedent = true ∧
      t.isTerminal structural.newline = true
  endSymbol : t.isTerminal lexicon.endSymbol = true

namespace Lexer

/-- The offset that a lexer has got to.  With the end symbol it leaves the
    text. -/
def cursor (l : Lexer) : Nat := l.place.offset + if l.finished then 1 else 0

/-- A lexer that calls lead to, or one within a call, behind matches that have
    been passed over. -/
inductive InUse (lexicon : Lexicon) (source : List Char) : Lexer → Prop
  | between (calls : List Call) : InUse lexicon source ((start lexicon source).afterCalls calls)
  | within {l m : Lexer} : InUse lexicon source l → l.pending = [] → Passes l m →
      InUse lexicon source m

/-- A lexer in whose queue only terminals wait. -/
structure Stocked (t : Automaton.Table) (lexicon : Lexicon) (l : Lexer) : Prop where
  lexicon : l.lexicon = lexicon
  pending : ∀ token ∈ l.pending, t.isTerminal token.kind = true

/-- What does not go wrong inside a lexer. -/
structure Safe (t : Automaton.Table) (source : List Char) (l : Lexer) : Prop where
  /-- The cursor is in front of the text ahead, or past the source. -/
  cursor : (∃ front, source = front ++ l.ahead ∧ l.cursor = Text.bytes front) ∨
    (l.ahead = [] ∧ l.cursor = Text.bytes source + 1)
  /-- A match takes whole characters of the text ahead. -/
  slice : ∀ {s : Selection}, l.lexicon.select l.mode l.ahead = some s →
    ∃ back, l.ahead = l.taken s ++ back ∧ s.found.length = Text.bytes (l.taken s)
  /-- A match that comes to no token is to be passed over. -/
  batch : ∀ {s : Selection} {l' : Lexer}, l.lexicon.select l.mode l.ahead = some s →
    l.take s = (.ok [], l') → s.action = .skip ∨ (s.action = .lineBreak ∧
      l.indentation.lineBreak s.width (l.past s).place.line = .ok (.deeper, l.indentation))
  /-- A breach is that of a line that leaves part of a block. -/
  breach : ∀ {b : Breach}, l.next.1 = .error (.breach b) →
    ∃ m s, Meets l m s ∧ s.action = .lineBreak ∧
      l.indentation.lineBreak s.width (m.past s).place.line = .error (.breach b) ∧
      b = .partialDedent l.indentation.current s.width l.indentation.unit
  /-- A token is of a terminal, which has a name. -/
  token : ∀ {token : Token}, l.next.1 = .ok (some token) →
    t.isTerminal token.kind = true ∧ ∃ name, t.symbolName token.kind = some name

end Lexer

/-- The only breach of a line is that it leaves part of a block. -/
theorem Indentation.breach_of_lineBreak {i : Indentation} {width line : Nat} {b : Breach}
    (h : i.lineBreak width line = .error (.breach b)) :
    b = .partialDedent i.current width i.unit := by
  obtain ⟨current, unit⟩ := i
  simp only [lineBreak] at h
  split at h
  next => cases h
  next =>
    split at h
    next =>
      cases unit with
      | none =>
          cases h
          rfl
      | some unit =>
          dsimp only at h
          split at h <;> cases h
          rfl
    next => split at h <;> cases h

/-! ## Terminals -/

namespace Automaton.Table

variable {t : Table} {name : String} {symbol : Symbol}

theorem isTerminal_of_terminal (h : t.terminal name = some symbol) :
    t.isTerminal symbol = true :=
  List.any_eq_true.mpr ⟨(name, symbol), mem_of_lookup h, beq_self_eq_true symbol⟩

/-- A terminal has a name. -/
theorem exists_symbolName (h : t.isTerminal symbol = true) :
    ∃ name, t.symbolName symbol = some name := by
  obtain ⟨x, hx, hsymbol⟩ := List.any_eq_true.mp h
  have hmem : x ∈ (t.terminals ++ t.nonterminals).reverse :=
    List.mem_reverse.mpr (List.mem_append_left _ hx)
  obtain ⟨found, hfound⟩ := Option.isSome_iff_exists.mp
    (List.find?_isSome (p := (·.2 == symbol)).mpr ⟨x, hmem, hsymbol⟩)
  rw [symbolName, hfound]
  exact ⟨found.1, rfl⟩

/-- The end symbol of a table that has been read is a terminal. -/
theorem isTerminal_endSymbol {text : String} (h : read text = .ok t) :
    t.isTerminal t.endSymbol = true := by
  rw [read] at h
  split at h
  next => cases h
  next => exact isTerminal_of_terminal (Document.gives_toTable h).stop

end Automaton.Table

variable {t : Automaton.Table} {d : LexiconDraft} {lexicon : Lexicon}

theorem LexiconDraft.isTerminal_of_resolve {name : String} {symbol : Symbol}
    (h : resolve t name = .ok symbol) : t.isTerminal symbol = true := by
  rw [resolve] at h
  split at h
  next found hfound =>
    obtain rfl := Except.ok.inj h
    exact Automaton.Table.isTerminal_of_terminal hfound
  next => cases h

/-- The kind of an action is what a name has been resolved to. -/
theorem RuleAction.exists_name_of_kind {f : String → Except GrammarFault Symbol}
    {action : RuleAction String} {resolved : RuleAction Symbol} {kind : Symbol}
    (h : action.resolve f = .ok resolved) (hkind : resolved.kind? = some kind) :
    ∃ name, f name = .ok kind := by
  cases action with
  | emit name | emitStripped name dropped | endOfInput name =>
      obtain ⟨symbol, hsymbol, h⟩ := exists_of_bind h
      cases h
      cases hkind
      exact ⟨name, hsymbol⟩
  | blockOpen | lineBreak | skip =>
      cases h
      cases hkind

/-- Against a table that has been read, all kinds of a lexicon are terminals. -/
theorem LexiconDraft.within_of_compile {text : String}
    (hread : Automaton.Table.read text = .ok t) (hcompile : d.compile t = .ok lexicon) :
    lexicon.Within t where
  rules := by
    intro rule hrule kind hkind
    obtain ⟨r, -, hcompiles⟩ := exists_draft hcompile rule hrule
    obtain ⟨name, hname⟩ := RuleAction.exists_name_of_kind hcompiles.action hkind
    exact isTerminal_of_resolve hname
  structural := by
    intro structural hsome
    have hstructural := structural_of_compile hcompile
    rw [hsome, structuralFor] at hstructural
    split at hstructural
    next =>
      obtain ⟨indent, hindent, h⟩ := exists_of_bind hstructural
      obtain ⟨dedent, hdedent, h⟩ := exists_of_bind h
      obtain ⟨newline, hnewline, h⟩ := exists_of_bind h
      cases h
      exact ⟨isTerminal_of_resolve hindent, isTerminal_of_resolve hdedent,
        isTerminal_of_resolve hnewline⟩
    next => cases hstructural
  endSymbol := by
    rw [endSymbol_of_compile hcompile]
    exact Automaton.Table.isTerminal_endSymbol hread

/-! ## Tokens -/

namespace Lexer

variable {source : List Char} {l l' m : Lexer} {s : Selection}

/-- Matches come to terminals only, and the lexicon stays. -/
theorem keeps_terminals (hwithin : lexicon.Within t) :
    Keeps (fun l => l.lexicon = lexicon) (fun token => t.isTerminal token.kind = true)
      fun _ => True where
  queue _ _ hl := hl
  take := by
    intro l l' s tokens hl hselect htake
    refine ⟨(take_lexicon htake).trans hl, fun token htoken => ?_⟩
    subst hl
    rcases (take_ok htake).kinds token htoken with hkind | ⟨structural, hsome, hkind⟩
    · obtain ⟨rule, hrule, haction⟩ := exists_rule_of_select hselect
      exact hwithin.rules rule hrule _ (haction ▸ hkind)
    · obtain ⟨hindent, hdedent, hnewline⟩ := hwithin.structural structural hsome
      rcases hkind with hkind | hkind | hkind <;> rw [hkind] <;> assumption
  fault hl _ htake := ⟨(take_lexicon htake).trans hl, trivial⟩
  stop hl := hl ▸ hwithin.endSymbol
  stuck _ _ := trivial

theorem stocked_start (lexicon : Lexicon) (source : List Char) :
    Stocked t lexicon (start lexicon source) :=
  ⟨rfl, nofun⟩

theorem Stocked.call (hwithin : lexicon.Within t) (h : Stocked t lexicon l) (c : Call) :
    Stocked t lexicon (l.call c) := by
  cases c with
  | next =>
      obtain ⟨hlexicon, hpending, -⟩ :=
        (keeps_terminals hwithin).next h.lexicon h.pending (rfl : l.next = _)
      exact ⟨hlexicon, hpending⟩
  | pushMode mode => exact ⟨h.lexicon, h.pending⟩
  | popMode =>
      rw [Lexer.call, popMode]
      split
      next => exact h
      next => exact ⟨h.lexicon, h.pending⟩

theorem InUse.stocked (hwithin : lexicon.Within t) (h : InUse lexicon source l) :
    Stocked t lexicon l := by
  induction h with
  | between calls =>
      exact afterCalls_keeps (fun _ c hl => hl.call hwithin c) (stocked_start lexicon source) calls
  | within _ _ hpasses ih =>
      obtain ⟨hlexicon, hpending⟩ := hpasses.unchanged
      exact ⟨hlexicon.trans ih.lexicon, hpending ▸ ih.pending⟩

/-! ## Safety -/

theorem InUse.underway (h : InUse lexicon source l) : Underway lexicon source l := by
  induction h with
  | between calls => exact (underway_start lexicon source).afterCalls calls
  | within _ _ hpasses ih => exact ih.passes hpasses

/-- The cursor of a lexer on its way is in front of the text ahead, or past the
    source. -/
theorem Underway.cursor (h : Underway lexicon source l) :
    (∃ front, source = front ++ l.ahead ∧ l.cursor = Text.bytes front) ∨
      (l.ahead = [] ∧ l.cursor = Text.bytes source + 1) := by
  obtain ⟨front, hsource, hplace⟩ := h.place
  have hoffset : l.place.offset = Text.bytes front := hplace ▸ Place.offset_start_after front
  cases hfinished : l.finished with
  | false =>
      refine .inl ⟨front, hsource, ?_⟩
      rw [Lexer.cursor, hoffset, hfinished]
      rfl
  | true =>
      have hahead := h.proper hfinished
      rw [hahead, List.append_nil] at hsource
      refine .inr ⟨hahead, ?_⟩
      rw [Lexer.cursor, hoffset, hfinished, hsource]
      rfl

/-- A breach is that of a line that leaves part of a block. -/
theorem Underway.breach (hl : Underway lexicon source l) (hequipped : lexicon.Equipped)
    (htied : lexicon.Tied) {b : Breach} (h : l.next = (.error (.breach b), l')) :
    ∃ m s, Meets l m s ∧ s.action = .lineBreak ∧
      l.indentation.lineBreak s.width (m.past s).place.line = .error (.breach b) ∧
      b = .partialDedent l.indentation.current s.width l.indentation.unit := by
  rcases hl.stuck_or_past hequipped htied h with ⟨hstuck, -⟩ | hpast
  · obtain ⟨c, cs, -, -, hfault⟩ := hstuck.stuck
    cases hfault
  · cases hpast with
    | @intro front text back s hsource hmeets hstart hlength hoffends =>
        cases hoffends with
        | line haction hbreak =>
            refine ⟨_, s, hmeets, haction, ?_, Indentation.breach_of_lineBreak hbreak⟩
            rw [(pass_of_append rfl hlength).2, ← Place.after_append]
            exact hbreak

/-- **Nothing goes wrong inside a lexer.**  A draft that is compiled against a
    table that has been read comes to a lexicon of terminals, with the
    structural ones where its rules need them.  Let such a lexicon be given,
    whose rules match at the place of the search only.  Whatever the source is
    and whatever calls come, within a call or between two of them, the cursor
    is at a character or one past the text, matches take whole characters, no
    match comes to an empty batch, the only breach is that of a line that
    leaves part of a block, and all tokens are terminals of the table, with
    names. -/
theorem safe_of_inUse :
    (∀ {text : String} {d : LexiconDraft}, Automaton.Table.read text = .ok t →
      d.compile t = .ok lexicon → lexicon.Within t ∧ lexicon.Equipped) ∧
    (lexicon.Within t → lexicon.Equipped → lexicon.Tied →
      ∀ {source : List Char} {l : Lexer}, InUse lexicon source l → l.Safe t source) := by
  refine ⟨fun hread hcompile => ⟨LexiconDraft.within_of_compile hread hcompile,
    LexiconDraft.equipped_of_compile hcompile⟩, ?_⟩
  intro hwithin hequipped htied source l h
  have hunderway := h.underway
  obtain ⟨hlexicon, hpending⟩ := h.stocked hwithin
  refine ⟨hunderway.cursor, ?_, fun _ htake => (silent_of_take htake).1, ?_, ?_⟩
  · intro s hselect
    rw [hlexicon] at hselect
    obtain ⟨-, text, back, hahead, hlength⟩ := exists_text_of_select htied hselect
    obtain ⟨htaken, -⟩ := pass_of_append hahead hlength
    rw [htaken]
    exact ⟨back, hahead, hlength⟩
  · intro b hbreach
    exact hunderway.breach hequipped htied (Prod.fst_eq_iff.mp hbreach)
  · intro token htoken
    have hterminal := ((keeps_terminals hwithin).next hlexicon hpending
      (rfl : l.next = _)).2.2.1 token htoken
    exact ⟨hterminal, Automaton.Table.exists_symbolName hterminal⟩

/-- A table with one state, which has a terminal for words besides those for
    blocks. -/
def blockTable : Automaton.Table where
  rows := [[]]
  productions := []
  terminals := [("$", 0), ("DEDENT", 2), ("INDENT", 1), ("NL", 3), ("WORD", 4)]
  nonterminals := []
  endSymbol := 0

/-- That table as a text. -/
def blockTableText : String :=
  "[\x7b\"$\": 0, \"INDENT\": 1, \"DEDENT\": 2, \"NL\": 3, \"WORD\": 4\x7d, \x7b\x7d, [], "
    ++ "[\x7b\x7d]]"

/-- Words, lines, and blocks that a colon opens. -/
def blockDraft : LexiconDraft where
  rules := [.initial "[a-z]+" (.emit "WORD"), .initial ":\n( +)" .blockOpen,
    .initial "\n( *)" .lineBreak]
  structural := .standard

/-- A block whose second line leaves half of it. -/
def halfOutText : List Char := [':', '\n', ' ', ' ', 'a', '\n', ' ', 'b']

theorem safe_of_inUse_blockDraft :
    Automaton.Table.read blockTableText = .ok blockTable ∧
    ∃ lexicon, blockDraft.compile blockTable = .ok lexicon ∧ lexicon.Tied ∧
      ((start lexicon halfOutText).afterCalls [.next, .next]).Safe blockTable halfOutText ∧
      ((start lexicon halfOutText).afterCalls [.next]).next.1 =
        .ok (some ⟨4, "a", ⟨4, 5, 2, 2, 2, 3⟩⟩) ∧
      ((start lexicon halfOutText).afterCalls [.next, .next]).next.1 =
        .error (.breach (.partialDedent 2 1 (some 2))) := by
  have hread : Automaton.Table.read blockTableText = .ok blockTable := by decide +kernel
  obtain ⟨lexicon, hcompile, hword, hbreach⟩ : ∃ lexicon,
      blockDraft.compile blockTable = .ok lexicon ∧
      ((start lexicon halfOutText).afterCalls [.next]).next.1 =
        .ok (some ⟨4, "a", ⟨4, 5, 2, 2, 2, 3⟩⟩) ∧
      ((start lexicon halfOutText).afterCalls [.next, .next]).next.1 =
        .error (.breach (.partialDedent 2 1 (some 2))) := by
    refine ⟨_, rfl, ?_, ?_⟩ <;> decide +kernel
  have htied : lexicon.Tied := LexiconDraft.tied_of_all hcompile (by decide +kernel)
  obtain ⟨hwithin, hequipped⟩ := safe_of_inUse.1 hread hcompile
  exact ⟨hread, lexicon, hcompile, htied,
    safe_of_inUse.2 hwithin hequipped htied (.between [.next, .next]), hword, hbreach⟩

end Lexer

end Offside

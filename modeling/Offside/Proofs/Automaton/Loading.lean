import Offside.Automaton.Reading
import Offside.Proofs.Automaton.Certificate
import Offside.Proofs.Checks

/-! # Loading tables — what is demanded of a document

    A document is a table exactly if it is as it should be, and the fault of
    one that is not is that of the first demand that it breaks.

    * `Document.Sound` lists what a document has to be like;
    * `Document.demands` are the same demands one by one, in the order in
      which they are made, and `Document.Breaks` tells the fault of each;
    * `checks_toTable` says that loading checks these, and `sound_iff` that
      nothing else is demanded;
    * `Document.Gives` is what a document comes to as a table. -/

namespace Offside.Automaton

/-- The number that an id spells. -/
def Entry.id? : Entry → Option Symbol
  | number n => some n
  | text s => Text.word? s.toList

/-- A cell spells an action: a number is a state to go to, and a text is the
    end or has a letter in front of a number. -/
inductive Entry.Spells : Entry → Action → Prop
  | goto (n : Nat) : Spells (.number n) (.goto n)
  | accept : Spells (.text "acc") .accept
  | shift {cs : List Char} {n : Nat} :
      Text.word? cs = some n → Spells (.text (String.ofList ('s' :: cs))) (.shift n)
  | reduce {cs : List Char} {n : Nat} :
      Text.word? cs = some n → Spells (.text (String.ofList ('r' :: cs))) (.reduce n)

/-- The state that an action leads to. -/
def Action.target? : Action → Option Nat
  | shift n | goto n => some n
  | reduce _ | accept | error => none

/-- An action stays inside a table with so many states and productions. -/
def Action.Inside (a : Action) (states productions : Nat) : Prop :=
  (∀ n, a.target? = some n → n < states) ∧ ∀ n, a.production? = some n → n < productions

/-- What is demanded of a document. -/
inductive Demand where
  /-- The table has a row. -/
  | row
  /-- A token or nonterminal has this id. -/
  | id (id : Entry)
  /-- The end symbol is a token. -/
  | stop
  /-- A production has this left-hand side. -/
  | side (index : Nat) (lhs : Int)
  /-- A declared id is not too great. -/
  | width (id : Symbol)
  /-- A row has this column. -/
  | column (state : Nat) (key : String)
  /-- A row has this cell. -/
  | cell (state : Nat) (key : String) (entry : Entry)

namespace Document

/-- The ids of tokens, of nonterminals and of left-hand sides. -/
def ids (d : Document) : Finset Symbol :=
  ((d.tokens ++ d.nonterminals).filterMap (·.2.id?) ++
    d.productions.filterMap (·.1.toNat?)).toFinset

/-- What a document has to be like to be a table. -/
structure Sound (d : Document) : Prop where
  row : d.table ≠ []
  id : ∀ named ∈ d.tokens ++ d.nonterminals, ∃ id, named.2.id? = some id
  stop : ∃ id, (endName, id) ∈ d.tokens
  side : ∀ p ∈ d.productions, -1 ≤ p.1
  width : ∀ id ∈ d.ids, id ≤ d.ids.card
  column : ∀ row ∈ d.table, ∀ c ∈ row, ∃ column ∈ d.ids, Text.word? c.1.toList = some column
  cell : ∀ row ∈ d.table, ∀ c ∈ row, ∃ a, c.2.Spells a ∧
    a.Inside d.table.length d.productions.length

/-- What is demanded of a document, in order. -/
def demands (d : Document) : List Demand :=
  Demand.row :: (d.tokens ++ d.nonterminals).map (fun named => Demand.id named.2) ++
    Demand.stop :: d.productions.zipIdx.map (fun p => Demand.side p.2 p.1.1) ++
    (d.ids.sort (· ≤ ·)).map Demand.width ++
    d.table.zipIdx.flatMap (fun row => row.1.map fun c => Demand.column row.2 c.1) ++
    d.table.zipIdx.flatMap (fun row => row.1.map fun c => Demand.cell row.2 c.1 c.2)

/-- A document breaks a demand, which comes to a fault. -/
inductive Breaks (d : Document) : Demand → GrammarFault → Prop
  | row : d.table = [] → Breaks d .row .emptyTable
  | id {s : String} : Text.word? s.toList = none → Breaks d (.id (.text s)) (.invalidSymbol s)
  | stop : (∀ id, (endName, id) ∉ d.tokens) → Breaks d .stop .missingEndSymbol
  | side {index : Nat} {lhs : Int} :
      lhs < -1 → Breaks d (.side index lhs) (.invalidProduction index lhs)
  | width {id : Symbol} :
      d.ids.card < id → Breaks d (.width id) (.invalidSymbol (Text.decimal id))
  | column {state : Nat} {key : String} :
      (∀ column ∈ d.ids, Text.word? key.toList ≠ some column) →
      Breaks d (.column state key) (.invalidColumn state key)
  | cell {state column : Nat} {key s : String} :
      Text.word? key.toList = some column → (∀ a, ¬ (Entry.text s).Spells a) →
      Breaks d (.cell state key (.text s)) (.invalidCell state column s)
  | target {state column n : Nat} {key : String} {entry : Entry} {a : Action} :
      Text.word? key.toList = some column → entry.Spells a → a.target? = some n →
      d.table.length ≤ n →
      Breaks d (.cell state key entry) (.stateOutOfRange state column n d.table.length)
  | production {state column n : Nat} {key : String} {entry : Entry} {a : Action} :
      Text.word? key.toList = some column → entry.Spells a → a.production? = some n →
      d.productions.length ≤ n →
      Breaks d (.cell state key entry)
        (.productionOutOfRange state column n d.productions.length)

/-- Names that stand for the ids of a document. -/
def Named (entries : List (String × Entry)) (named : List (String × Symbol)) : Prop :=
  List.Forall₂ (fun e n => n.1 = e.1 ∧ e.2.id? = some n.2) entries named

/-- Actions that the cells of a row spell, in their columns. -/
def Lists (row : List (String × Entry)) (actions : List (Symbol × Action)) : Prop :=
  List.Forall₂ (fun c x => Text.word? c.1.toList = some x.1 ∧ c.2.Spells x.2) row actions

/-- What a document has become as a table; the cells of a row that come last
    come first. -/
structure Gives (d : Document) (t : Table) : Prop where
  terminals : Named d.tokens t.terminals
  nonterminals : Named d.nonterminals t.nonterminals
  stop : t.terminals.lookup endName = some t.endSymbol
  productions : t.productions = d.productions.map fun p => ⟨p.1.toNat?, p.2⟩
  rows : List.Forall₂ (fun row actions => Lists row actions.reverse) d.table t.rows

end Document

/-! ## Ids and cells -/

namespace Entry

theorem symbol_eq_ok_iff {e : Entry} {id : Symbol} : e.symbol = .ok id ↔ e.id? = some id := by
  cases e with
  | number n =>
      rw [symbol, id?]
      constructor <;> rintro ⟨⟩ <;> rfl
  | text s =>
      rw [symbol, id?]
      split
      next n hn =>
        rw [hn]
        constructor <;> rintro ⟨⟩ <;> rfl
      next hn =>
        rw [hn]
        constructor <;> rintro ⟨⟩

theorem symbol_eq_error_iff {d : Document} {e : Entry} {fault : GrammarFault} :
    e.symbol = .error fault ↔ d.Breaks (.id e) fault := by
  cases e with
  | number n =>
      constructor
      · rintro ⟨⟩
      · rintro ⟨⟩
  | text s =>
      rw [symbol]
      constructor
      · intro h
        split at h
        next => cases h
        next hn =>
          cases h
          exact .id hn
      · intro h
        cases h with
        | id hn => rw [hn]

/-- A text with a letter in front spells an action by the number behind it. -/
theorem spells_text_iff {s : String} {a : Action} : (text s).Spells a ↔
    (s = "acc" ∧ a = .accept) ∨
      ∃ cs n, Text.word? cs = some n ∧ ((s.toList = 's' :: cs ∧ a = .shift n) ∨
        s.toList = 'r' :: cs ∧ a = .reduce n) := by
  constructor
  · intro h
    cases h with
    | accept => exact .inl ⟨rfl, rfl⟩
    | shift hn => exact .inr ⟨_, _, hn, .inl ⟨String.toList_ofList, rfl⟩⟩
    | reduce hn => exact .inr ⟨_, _, hn, .inr ⟨String.toList_ofList, rfl⟩⟩
  · rintro (⟨rfl, rfl⟩ | ⟨cs, n, hn, ⟨hs, rfl⟩ | ⟨hs, rfl⟩⟩)
    · exact .accept
    · rw [← String.ofList_toList (s := s), hs]
      exact .shift hn
    · rw [← String.ofList_toList (s := s), hs]
      exact .reduce hn

/-- What a cell is read as, if it is read. -/
theorem action_spec (e : Entry) (state column : Nat) :
    (∃ a, e.action state column = .ok a ∧ ∀ b, e.Spells b ↔ b = a) ∨
      ∃ s, e = .text s ∧ e.action state column = .error (.invalidCell state column s) ∧
        ∀ b, ¬ e.Spells b := by
  cases e with
  | number n =>
      refine .inl ⟨.goto n, rfl, fun b => ⟨?_, ?_⟩⟩
      · rintro ⟨⟩
        rfl
      · rintro rfl
        exact .goto n
  | text s =>
      have hlist : ∀ {t : List Char}, s.toList = t → s = String.ofList t := by
        rintro t rfl
        exact String.ofList_toList.symm
      rw [action]
      split
      next hs =>
        have hacc : s = "acc" := hlist hs
        refine .inl ⟨_, rfl, fun b => ?_⟩
        rw [spells_text_iff, hs]
        simp [hacc]
      next cs hs =>
        have hacc : s ≠ "acc" := by
          rintro rfl
          cases hs
        cases hn : Text.word? cs with
        | some n =>
            refine .inl ⟨_, rfl, fun b => ?_⟩
            rw [spells_text_iff, hs]
            simp [hacc, hn]
        | none =>
            refine .inr ⟨s, rfl, rfl, fun b => ?_⟩
            rw [spells_text_iff, hs]
            simp [hacc, hn]
      next cs hs =>
        have hacc : s ≠ "acc" := by
          rintro rfl
          cases hs
        cases hn : Text.word? cs with
        | some n =>
            refine .inl ⟨_, rfl, fun b => ?_⟩
            rw [spells_text_iff, hs]
            simp [hacc, hn]
        | none =>
            refine .inr ⟨s, rfl, rfl, fun b => ?_⟩
            rw [spells_text_iff, hs]
            simp [hacc, hn]
      next hacc hshift hreduce =>
        refine .inr ⟨s, rfl, rfl, fun b => ?_⟩
        rw [spells_text_iff]
        rintro (⟨rfl, -⟩ | ⟨cs, n, -, ⟨hs, -⟩ | ⟨hs, -⟩⟩)
        · exact hacc rfl
        · exact hshift cs hs
        · exact hreduce cs hs

theorem action_eq_ok_iff {e : Entry} {state column : Nat} {a : Action} :
    e.action state column = .ok a ↔ e.Spells a := by
  rcases e.action_spec state column with ⟨b, hb, hspells⟩ | ⟨s, -, herror, hspells⟩
  · rw [hb, hspells]
    constructor
    · rintro ⟨⟩
      rfl
    · rintro rfl
      rfl
  · rw [herror]
    constructor
    · rintro ⟨⟩
    · intro h
      exact absurd h (hspells a)

theorem action_eq_error_iff {e : Entry} {state column : Nat} {fault : GrammarFault} :
    e.action state column = .error fault ↔
      ∃ s, e = .text s ∧ (∀ a, ¬ e.Spells a) ∧ fault = .invalidCell state column s := by
  rcases e.action_spec state column with ⟨b, hb, hspells⟩ | ⟨s, hs, herror, hspells⟩
  · rw [hb]
    constructor
    · rintro ⟨⟩
    · rintro ⟨s, -, hnone, -⟩
      exact absurd ((hspells b).mpr rfl) (hnone b)
  · rw [herror]
    constructor
    · rintro ⟨⟩
      exact ⟨s, hs, hspells, rfl⟩
    · rintro ⟨s', hs', -, rfl⟩
      cases hs.symm.trans hs'
      rfl

end Entry

/-! ## Lists -/

section Lists

variable {α β : Type} {R : α → β → Prop} {xs : List α} {ys : List β}

theorem forall₂_zipIdx (h : List.Forall₂ R xs ys) (k : Nat) :
    List.Forall₂ (fun x y => R x.1 y.1 ∧ x.2 = y.2) (xs.zipIdx k) (ys.zipIdx k) := by
  induction h generalizing k with
  | nil => exact .nil
  | cons hxy _ ih => exact .cons ⟨hxy, rfl⟩ (ih (k + 1))

theorem forall₂_of_zipIdx {k : Nat} (h : List.Forall₂ (fun x y => R x.1 y) (xs.zipIdx k) ys) :
    List.Forall₂ R xs ys := by
  rwa [← List.forall₂_map_left_iff (f := Prod.fst), List.zipIdx_map_fst] at h

theorem forall₂_getElem? (h : List.Forall₂ R xs ys) (index : Nat) :
    Option.Rel R xs[index]? ys[index]? := by
  induction h generalizing index with
  | nil => exact .none
  | cons hxy _ ih =>
      cases index with
      | zero => exact .some hxy
      | succ index => exact ih index

/-- In a list in order, the first with a property is the least. -/
theorem exists_first_iff {P : Nat → Prop} {ns : List Nat} (h : ns.Pairwise (· < ·)) {n : Nat} :
    (∃ front back, ns = front ++ n :: back ∧ P n ∧ ∀ m ∈ front, ¬ P m) ↔
      (n ∈ ns ∧ P n) ∧ ∀ m ∈ ns, P m → n ≤ m := by
  constructor
  · rintro ⟨front, back, rfl, hn, hfront⟩
    refine ⟨⟨List.mem_append_right _ (List.mem_cons_self ..), hn⟩, fun m hmem hm => ?_⟩
    rcases List.mem_append.mp hmem with hmem | hmem
    · exact absurd hm (hfront m hmem)
    · rcases List.mem_cons.mp hmem with rfl | hmem
      · exact Nat.le_refl _
      · exact Nat.le_of_lt
          ((List.pairwise_cons.mp (List.pairwise_append.mp h).2.1).1 m hmem)
  · rintro ⟨⟨hmem, hn⟩, hleast⟩
    obtain ⟨front, back, rfl⟩ := List.append_of_mem hmem
    refine ⟨front, back, rfl, hn, fun m hmem hm => ?_⟩
    have hlt : m < n := (List.pairwise_append.mp h).2.2 m hmem n (List.mem_cons_self ..)
    exact Nat.not_le.mpr hlt (hleast m (List.mem_append_left _ hmem) hm)

end Lists

namespace Document

variable {d : Document} {terminals nonterminals : List (String × Symbol)}
  {productions : List Production} {fault : GrammarFault}

/-! ## One check -/

theorem production_eq_ok_iff {index : Nat} {lhs : Int} {length : Nat} {p : Production} :
    production index lhs length = .ok p ↔ -1 ≤ lhs ∧ p = ⟨lhs.toNat?, length⟩ := by
  match lhs with
  | .ofNat n =>
      have hlhs : -1 ≤ Int.ofNat n := Int.le_trans (by decide) (Int.natCast_nonneg n)
      rw [production]
      constructor
      · rintro ⟨⟩
        exact ⟨hlhs, rfl⟩
      · rintro ⟨-, rfl⟩
        rfl
  | .negSucc 0 =>
      rw [production]
      constructor
      · rintro ⟨⟩
        exact ⟨by decide, rfl⟩
      · rintro ⟨-, rfl⟩
        rfl
  | .negSucc (n + 1) =>
      constructor
      · rintro ⟨⟩
      · rintro ⟨hlhs, -⟩
        omega

theorem production_eq_error_iff {index : Nat} {lhs : Int} (length : Nat) :
    production index lhs length = .error fault ↔ d.Breaks (.side index lhs) fault := by
  by_cases hlhs : -1 ≤ lhs
  · rw [production_eq_ok_iff.mpr ⟨hlhs, rfl⟩]
    constructor
    · rintro ⟨⟩
    · rintro ⟨⟩
      omega
  · match lhs with
    | .ofNat n => exact absurd (Int.le_trans (by decide) (Int.natCast_nonneg n)) hlhs
    | .negSucc 0 => exact absurd (by decide) hlhs
    | .negSucc (n + 1) =>
        constructor
        · rintro ⟨⟩
          exact .side (by omega)
        · rintro ⟨⟩
          rfl

/-- A cell that spells an action is kept if the action stays inside the table. -/
theorem cell_of_spells {states productions state column : Nat} {e : Entry} {a : Action}
    (h : e.Spells a) : cell states productions state column e =
      match a with
      | .shift n | .goto n =>
          if n < states then .ok a else .error (.stateOutOfRange state column n states)
      | .reduce n =>
          if n < productions then .ok a
          else .error (.productionOutOfRange state column n productions)
      | .accept | .error => .ok a := by
  rw [cell, Entry.action_eq_ok_iff.mpr h]
  cases a <;> rfl

theorem cell_eq_ok_iff {states productions state column : Nat} {e : Entry} {a : Action} :
    cell states productions state column e = .ok a ↔ e.Spells a ∧ a.Inside states productions := by
  constructor
  · intro h
    obtain ⟨b, hb, -⟩ := exists_of_bind h
    have hspells := Entry.action_eq_ok_iff.mp hb
    rw [cell_of_spells hspells] at h
    cases b with
    | shift n | goto n =>
        dsimp only at h
        split at h
        next hn =>
          cases h
          exact ⟨hspells, fun m hm => Option.some.inj hm ▸ hn, nofun⟩
        next => cases h
    | reduce n =>
        dsimp only at h
        split at h
        next hn =>
          cases h
          exact ⟨hspells, nofun, fun m hm => Option.some.inj hm ▸ hn⟩
        next => cases h
    | accept | error =>
        cases h
        exact ⟨hspells, nofun, nofun⟩
  · rintro ⟨hspells, hstate, hproduction⟩
    rw [cell_of_spells hspells]
    cases a with
    | shift n | goto n => exact if_pos (hstate n rfl)
    | reduce n => exact if_pos (hproduction n rfl)
    | accept | error => rfl

theorem cell_eq_error_iff {state column : Nat} {key : String} {e : Entry}
    (hkey : Text.word? key.toList = some column) :
    cell d.table.length d.productions.length state column e = .error fault ↔
      d.Breaks (.cell state key e) fault := by
  constructor
  · intro h
    rcases bind_eq_error_iff.mp h with herror | ⟨a, ha, -⟩
    · obtain ⟨s, rfl, hnone, rfl⟩ := Entry.action_eq_error_iff.mp herror
      exact .cell hkey hnone
    · have hspells := Entry.action_eq_ok_iff.mp ha
      rw [cell_of_spells hspells] at h
      cases a with
      | shift n | goto n =>
          dsimp only at h
          split at h
          next => cases h
          next hn =>
            cases h
            exact .target hkey hspells rfl (Nat.not_lt.mp hn)
      | reduce n =>
          dsimp only at h
          split at h
          next => cases h
          next hn =>
            cases h
            exact .production hkey hspells rfl (Nat.not_lt.mp hn)
      | accept | error => cases h
  · intro h
    cases h with
    | cell hkey' hnone =>
        obtain rfl := Option.some.inj (hkey.symm.trans hkey')
        rw [cell, Entry.action_eq_error_iff.mpr ⟨_, rfl, hnone, rfl⟩]
        rfl
    | @target _ column' n _ _ a hkey' hspells htarget hn =>
        obtain rfl := Option.some.inj (hkey.symm.trans hkey')
        rw [cell_of_spells hspells]
        cases a with
        | shift m | goto m =>
            cases htarget
            exact if_neg (Nat.not_lt.mpr hn)
        | reduce | accept | error => cases htarget
    | @production _ column' n _ _ a hkey' hspells hproduction hn =>
        obtain rfl := Option.some.inj (hkey.symm.trans hkey')
        rw [cell_of_spells hspells]
        cases a with
        | reduce m =>
            cases hproduction
            exact if_neg (Nat.not_lt.mpr hn)
        | shift | goto | accept | error => cases hproduction

/-! ## Stages -/

/-- The stage that refuses an empty table. -/
def someRow (d : Document) : Except GrammarFault Unit :=
  if d.table.isEmpty then .error .emptyTable else .ok ()

/-- The stage that looks for the end symbol. -/
def stopOf (terminals : List (String × Symbol)) : Except GrammarFault Symbol :=
  (terminals.lookup endName).elim (.error .missingEndSymbol) .ok

/-- The stage that refuses ids that are too great. -/
def narrow (declared : List Symbol) : Except GrammarFault Unit :=
  (tooGreat? declared).elim (.ok ()) fun id => .error (.invalidSymbol (Text.decimal id))

/-- The stage that resolves left-hand sides. -/
def sides (d : Document) : Except GrammarFault (List Production) :=
  d.productions.zipIdx.mapM fun ((lhs, length), index) => production index lhs length

/-- The stage that looks up the column of a cell. -/
def columnOf (declared : List Symbol) (state : Nat) (c : String × Entry) :
    Except GrammarFault (Symbol × Entry) :=
  match Text.word? c.1.toList with
  | some column =>
      if declared.contains column then .ok (column, c.2) else .error (.invalidColumn state c.1)
  | none => .error (.invalidColumn state c.1)

theorem toTable_eq (d : Document) : d.toTable = (do
    someRow d
    let terminals ← symbols d.tokens
    let nonterminals ← symbols d.nonterminals
    let stop ← stopOf terminals
    let productions ← sides d
    narrow (declared terminals nonterminals productions)
    let resolved ← d.table.zipIdx.mapM fun (cells, state) =>
      columns (declared terminals nonterminals productions) state cells
    let rows ← resolved.zipIdx.mapM fun (cells, state) =>
      row d.table.length productions.length state cells
    return ⟨rows, productions, terminals, nonterminals, stop⟩) := by
  unfold toTable someRow
  split
  · rfl
  · refine bind_congr fun terminals => bind_congr fun nonterminals => ?_
    unfold stopOf
    cases terminals.lookup endName with
    | none => rfl
    | some stop =>
        refine bind_congr fun productions => ?_
        dsimp only
        unfold narrow
        cases tooGreat? (declared terminals nonterminals productions) <;> rfl

/-! ## Symbols -/

theorem symbols_eq_ok_iff {entries : List (String × Entry)} {named : List (String × Symbol)} :
    symbols entries = .ok named ↔ Named entries named := by
  rw [symbols, mapM_eq_ok_iff, Named]
  have hone : ∀ (e : String × Entry) (n : String × Symbol),
      (do return (e.1, ← e.2.symbol) : Except GrammarFault (String × Symbol)) = .ok n ↔
        n.1 = e.1 ∧ e.2.id? = some n.2 := by
    rintro ⟨name, e⟩ ⟨name', id⟩
    dsimp only
    rw [← Entry.symbol_eq_ok_iff]
    constructor
    · intro h
      obtain ⟨id', hid, h⟩ := exists_of_bind h
      cases h
      exact ⟨rfl, hid⟩
    · rintro ⟨rfl, hid⟩
      rw [hid]
      rfl
  constructor
  · intro h
    exact h.imp fun e n hen => (hone e n).mp hen
  · intro h
    exact h.imp fun e n hen => (hone e n).mpr hen

theorem checks_symbols (d : Document) (entries : List (String × Entry)) :
    Checks d.Breaks (entries.map fun named => .id named.2) (symbols entries) := by
  refine Checks.mapM_map ?_
  rintro ⟨name, e⟩ - fault
  rw [← Entry.symbol_eq_error_iff, bind_eq_error_iff]
  constructor
  · rintro (h | ⟨id, -, h⟩)
    · exact h
    · cases h
  · intro h
    exact .inl h

theorem Named.ids {entries : List (String × Entry)} {named : List (String × Symbol)}
    (h : Named entries named) : named.map Prod.snd = entries.filterMap (·.2.id?) := by
  induction h with
  | nil => rfl
  | cons hen _ ih => rw [List.map_cons, List.filterMap_cons, hen.2, ih]

/-! ## Declared ids -/

theorem checks_someRow (d : Document) : Checks d.Breaks [.row] (someRow d) := by
  refine .one fun fault => ?_
  unfold someRow
  constructor
  · intro h
    split at h
    next hempty =>
      cases h
      exact .row (List.isEmpty_iff.mp hempty)
    next => cases h
  · rintro ⟨hempty⟩
    rw [hempty]
    rfl

theorem Named.lookup {entries : List (String × Entry)} {named : List (String × Symbol)}
    (h : Named entries named) (name : String) :
    named.lookup name = (entries.lookup name).bind (·.id?) := by
  induction h with
  | nil => rfl
  | @cons e n _ _ hen _ ih =>
      obtain ⟨name', id⟩ := n
      obtain ⟨name'', entry⟩ := e
      obtain ⟨rfl, hid⟩ := hen
      rw [List.lookup_cons, List.lookup_cons]
      cases name == name' with
      | true => exact hid.symm
      | false => exact ih

theorem Named.names {entries : List (String × Entry)} {named : List (String × Symbol)}
    (h : Named entries named) : named.map Prod.fst = entries.map Prod.fst := by
  induction h with
  | nil => rfl
  | cons hen _ ih => rw [List.map_cons, List.map_cons, hen.1, ih]

theorem checks_stopOf (h : Named d.tokens terminals) :
    Checks d.Breaks [.stop] (stopOf terminals) := by
  refine .one fun fault => ?_
  have hnone : terminals.lookup endName = none ↔ ∀ id, (endName, id) ∉ d.tokens := by
    have hnames : endName ∉ terminals.map Prod.fst ↔ ∀ id, (endName, id) ∉ d.tokens := by
      rw [h.names]
      simp
    rw [← hnames, List.lookup_eq_none_iff, List.mem_map, not_exists]
    refine forall_congr' fun named => ?_
    rw [bne_iff_ne, not_and, ne_comm]
  unfold stopOf
  constructor
  · intro hfault
    cases hstop : terminals.lookup endName with
    | none =>
        rw [hstop] at hfault
        cases hfault
        exact .stop (hnone.mp hstop)
    | some id =>
        rw [hstop] at hfault
        cases hfault
  · intro hbreaks
    cases hbreaks with
    | stop hstop =>
        rw [hnone.mpr hstop]
        rfl

theorem checks_sides (d : Document) :
    Checks d.Breaks (d.productions.zipIdx.map fun p => .side p.2 p.1.1) (sides d) := by
  refine Checks.mapM_map ?_
  rintro ⟨⟨lhs, length⟩, index⟩ - fault
  exact production_eq_error_iff _

theorem sides_eq (h : sides d = .ok productions) :
    productions = d.productions.map fun p => ⟨p.1.toNat?, p.2⟩ := by
  have hsides : List.Forall₂ (fun p q => (⟨p.1.toNat?, p.2⟩ : Production) = q) d.productions
      productions :=
    forall₂_of_zipIdx ((mapM_eq_ok_iff.mp h).imp fun _ _ hp => (production_eq_ok_iff.mp hp).2.symm)
  rw [← List.forall₂_map_left_iff, List.forall₂_eq_eq_eq] at hsides
  exact hsides.symm

theorem nodup_eraseDups (ids : List Symbol) : ids.eraseDups.Nodup := by
  induction hlength : ids.length using Nat.strongRecOn generalizing ids with
  | ind n ih =>
      cases ids with
      | nil => exact List.nodup_nil
      | cons id ids =>
          have hshorter : (ids.filter fun b => !b == id).length < n := by
            rw [← hlength, List.length_cons]
            exact Nat.lt_succ_of_le (List.length_filter_le ..)
          rw [List.eraseDups_cons, List.nodup_cons, List.mem_eraseDups]
          exact ⟨by simp, ih _ hshorter _ rfl⟩

/-- What has been declared are the ids. -/
theorem mem_declared (hterminals : Named d.tokens terminals)
    (hnonterminals : Named d.nonterminals nonterminals)
    (hproductions : productions = d.productions.map fun p => ⟨p.1.toNat?, p.2⟩) (id : Symbol) :
    id ∈ declared terminals nonterminals productions ↔ id ∈ d.ids := by
  have hlhs : productions.filterMap Production.lhs = d.productions.filterMap (·.1.toNat?) := by
    rw [hproductions, List.filterMap_map]
    rfl
  rw [declared, List.mem_eraseDups, ids, List.mem_toFinset, List.filterMap_append,
    hterminals.ids, hnonterminals.ids, hlhs]

/-- The least of the ids that are too great is the first of them in order. -/
theorem checks_narrow {declared : List Symbol} (hnodup : declared.Nodup)
    (hids : ∀ id, id ∈ declared ↔ id ∈ d.ids) :
    Checks d.Breaks ((d.ids.sort (· ≤ ·)).map .width) (narrow declared) := by
  have hlength : declared.length = d.ids.card := by
    rw [← List.toFinset_card_of_nodup hnodup]
    congr 1
    ext id
    rw [List.mem_toFinset, hids]
  have hsorted : (d.ids.sort (· ≤ ·)).Pairwise (· < ·) := (Finset.sortedLT_sort d.ids).pairwise
  have hgreat (id : Symbol) : tooGreat? declared = some id ↔
      ∃ front back, d.ids.sort (· ≤ ·) = front ++ id :: back ∧ d.ids.card < id ∧
        ∀ other ∈ front, ¬ d.ids.card < other := by
    rw [exists_first_iff hsorted, tooGreat?, List.min?_eq_some_iff, hlength]
    simp only [List.mem_filter, hids, Finset.mem_sort, decide_eq_true_eq, and_imp]
  intro fault
  unfold narrow
  constructor
  · intro h
    cases hid : tooGreat? declared with
    | none =>
        rw [hid] at h
        cases h
    | some id =>
        rw [hid] at h
        cases h
        obtain ⟨front, back, hsort, hlt, hfront⟩ := (hgreat id).mp hid
        rw [hsort, List.map_append, List.map_cons]
        refine ⟨front.map .width, .width id, back.map .width, rfl, .width hlt, ?_⟩
        rw [List.forall_mem_map]
        intro other hother e hbreaks
        cases hbreaks with
        | width hgreater => exact hfront other hother hgreater
  · rintro ⟨front, a, back, hsplit, hbreaks, hfront⟩
    obtain ⟨front', rest, hsort, rfl, hrest⟩ := List.map_eq_append_iff.mp hsplit
    obtain ⟨id, back', rfl, rfl, rfl⟩ := List.map_eq_cons_iff.mp hrest
    cases hbreaks with
    | width hlt =>
        have hid : tooGreat? declared = some id := by
          refine (hgreat id).mpr ⟨front', back', hsort, hlt, fun other hother hgreater => ?_⟩
          exact List.forall_mem_map.mp hfront other hother _ (.width hgreater)
        rw [hid]
        rfl

/-! ## Rows -/

/-- Cells of a row with their columns resolved. -/
def Resolved (declared : List Symbol) (row : List (String × Entry))
    (cells : List (Symbol × Entry)) : Prop :=
  List.Forall₂ (fun c x => Text.word? c.1.toList = some x.1 ∧ x.1 ∈ declared ∧ x.2 = c.2) row cells

theorem columns_eq (declared : List Symbol) (state : Nat) (row : List (String × Entry)) :
    columns declared state row = row.mapM (columnOf declared state) := rfl

theorem columnOf_eq_ok_iff {declared : List Symbol} {state : Nat} {c : String × Entry}
    {x : Symbol × Entry} : columnOf declared state c = .ok x ↔
      Text.word? c.1.toList = some x.1 ∧ x.1 ∈ declared ∧ x.2 = c.2 := by
  obtain ⟨key, e⟩ := c
  obtain ⟨column, e'⟩ := x
  rw [columnOf]
  dsimp only
  split
  next column' hkey =>
    rw [hkey]
    split
    next hmem =>
      rw [List.contains_iff_mem] at hmem
      constructor
      · rintro ⟨⟩
        exact ⟨rfl, hmem, rfl⟩
      · rintro ⟨⟨⟩, -, rfl⟩
        rfl
    next hmem =>
      rw [List.contains_iff_mem] at hmem
      constructor
      · rintro ⟨⟩
      · rintro ⟨⟨⟩, hmem', -⟩
        exact absurd hmem' hmem
  next hkey =>
    rw [hkey]
    constructor
    · rintro ⟨⟩
    · rintro ⟨⟨⟩, -⟩

theorem columns_eq_ok_iff {declared : List Symbol} {state : Nat} {row : List (String × Entry)}
    {cells : List (Symbol × Entry)} :
    columns declared state row = .ok cells ↔ Resolved declared row cells := by
  rw [columns_eq, mapM_eq_ok_iff, Resolved]
  constructor
  · intro h
    exact h.imp fun _ _ hx => columnOf_eq_ok_iff.mp hx
  · intro h
    exact h.imp fun _ _ hx => columnOf_eq_ok_iff.mpr hx

theorem columnOf_eq_error_iff {declared : List Symbol} (hids : ∀ id, id ∈ declared ↔ id ∈ d.ids)
    {state : Nat} {c : String × Entry} :
    columnOf declared state c = .error fault ↔ d.Breaks (.column state c.1) fault := by
  rw [columnOf]
  constructor
  · intro h
    split at h
    next column hkey =>
      split at h
      next => cases h
      next hmem =>
        cases h
        rw [List.contains_iff_mem, hids] at hmem
        refine .column fun other hother hkey' => hmem ?_
        obtain rfl := Option.some.inj (hkey.symm.trans hkey')
        exact hother
    next hkey =>
      cases h
      refine .column fun other _ hkey' => ?_
      cases hkey.symm.trans hkey'
  · intro h
    cases h with
    | column hnone =>
        split
        next column hkey =>
          refine if_neg fun hmem => ?_
          rw [List.contains_iff_mem, hids] at hmem
          exact hnone column hmem hkey
        next => rfl

theorem checks_columns {declared : List Symbol} (hids : ∀ id, id ∈ declared ↔ id ∈ d.ids)
    (state : Nat) (row : List (String × Entry)) :
    Checks d.Breaks (row.map fun c => .column state c.1) (columns declared state row) := by
  rw [columns_eq]
  exact Checks.mapM_map fun _ _ _ => columnOf_eq_error_iff hids

theorem checks_row {declared : List Symbol} {row : List (String × Entry)}
    {cells : List (Symbol × Entry)} (h : Resolved declared row cells) (state : Nat) :
    Checks d.Breaks (row.map fun c => .cell state c.1 c.2)
      (Document.row d.table.length d.productions.length state cells) := by
  rw [List.map_eq_flatMap, List.flatMap_def]
  refine Checks.map (Checks.mapM ?_) List.reverse
  rw [List.forall₂_map_right_iff]
  refine h.flip.imp ?_
  rintro ⟨column, e⟩ ⟨key, _⟩ ⟨hkey, -, rfl⟩
  refine .map (.one fun fault => ?_) (Prod.mk column)
  exact cell_eq_error_iff hkey

theorem lists_of_row {declared : List Symbol} {row : List (String × Entry)}
    {cells : List (Symbol × Entry)} {states productions state : Nat} {actions : Row}
    (h : Resolved declared row cells)
    (hrow : Document.row states productions state cells = .ok actions) :
    Lists row actions.reverse := by
  obtain ⟨decoded, hdecoded, heq⟩ := exists_of_bind hrow
  cases heq
  rw [List.reverse_reverse]
  replace hdecoded := mapM_eq_ok_iff.mp hdecoded
  clear hrow
  induction h generalizing decoded with
  | nil =>
      cases hdecoded
      exact .nil
  | @cons c x row cells hx _ ih =>
      cases hdecoded with
      | cons hone hrest =>
          obtain ⟨a, ha, heq⟩ := exists_of_bind hone
          cases heq
          obtain ⟨hkey, -, hentry⟩ := hx
          have hspells := (cell_eq_ok_iff.mp ha).1
          rw [hentry] at hspells
          exact .cons ⟨hkey, hspells⟩ (ih _ hrest)

/-! ## The whole document -/

theorem resolved_of_columns {declared : List Symbol} {resolved : List (List (Symbol × Entry))}
    (h : d.table.zipIdx.mapM (fun (cells, state) => columns declared state cells) = .ok resolved) :
    List.Forall₂ (Resolved declared) d.table resolved :=
  forall₂_of_zipIdx ((mapM_eq_ok_iff.mp h).imp fun _ _ hrow => columns_eq_ok_iff.mp hrow)

theorem lists_of_rows {declared : List Symbol} {table : List (List (String × Entry))}
    {resolved : List (List (Symbol × Entry))} {rows : List Row} {states productions : Nat}
    (hresolved : List.Forall₂ (Resolved declared) table resolved)
    (hrows : List.Forall₂ (fun cells actions => ∃ state,
      Document.row states productions state cells = .ok actions) resolved rows) :
    List.Forall₂ (fun row actions => Lists row actions.reverse) table rows := by
  induction hresolved generalizing rows with
  | nil =>
      cases hrows
      exact .nil
  | cons hrow _ ih =>
      cases hrows with
      | cons hone hrest =>
          obtain ⟨state, hstate⟩ := hone
          exact .cons (lists_of_row hrow hstate) (ih hrest)

theorem gives_toTable {t : Table} (h : d.toTable = .ok t) : d.Gives t := by
  rw [toTable_eq] at h
  obtain ⟨-, -, h⟩ := exists_of_bind h
  obtain ⟨terminals, hterminals, h⟩ := exists_of_bind h
  obtain ⟨nonterminals, hnonterminals, h⟩ := exists_of_bind h
  obtain ⟨stop, hstop, h⟩ := exists_of_bind h
  obtain ⟨productions, hproductions, h⟩ := exists_of_bind h
  obtain ⟨-, -, h⟩ := exists_of_bind h
  obtain ⟨resolved, hresolved, h⟩ := exists_of_bind h
  obtain ⟨rows, hrows, h⟩ := exists_of_bind h
  cases h
  refine ⟨symbols_eq_ok_iff.mp hterminals, symbols_eq_ok_iff.mp hnonterminals, ?_,
    sides_eq hproductions, ?_⟩
  · unfold stopOf at hstop
    cases hlookup : terminals.lookup endName with
    | none =>
        rw [hlookup] at hstop
        cases hstop
    | some id =>
        rw [hlookup] at hstop
        cases hstop
        rfl
  · have hresolved := resolved_of_columns hresolved
    have hlisted := forall₂_of_zipIdx (R := fun cells actions => ∃ state,
        Document.row d.table.length productions.length state cells = .ok actions)
      ((mapM_eq_ok_iff.mp hrows).imp fun cells actions hrow => ⟨cells.2, hrow⟩)
    exact lists_of_rows hresolved hlisted

theorem checks_toTable (d : Document) : Checks d.Breaks d.demands d.toTable := by
  have hdemands : d.demands = [Demand.row] ++ (d.tokens.map (fun named => Demand.id named.2) ++
      (d.nonterminals.map (fun named => Demand.id named.2) ++ ([Demand.stop] ++
      (d.productions.zipIdx.map (fun p => Demand.side p.2 p.1.1) ++
      ((d.ids.sort (· ≤ ·)).map Demand.width ++
      (d.table.zipIdx.flatMap (fun row => row.1.map fun c => Demand.column row.2 c.1) ++
      d.table.zipIdx.flatMap (fun row => row.1.map fun c => Demand.cell row.2 c.1 c.2))))))) := by
    simp [demands]
  rw [hdemands, toTable_eq]
  refine (checks_someRow d).bind fun _ _ => ?_
  refine (checks_symbols d d.tokens).bind fun terminals hterminals => ?_
  refine (checks_symbols d d.nonterminals).bind fun nonterminals hnonterminals => ?_
  replace hterminals := symbols_eq_ok_iff.mp hterminals
  replace hnonterminals := symbols_eq_ok_iff.mp hnonterminals
  refine (checks_stopOf hterminals).bind fun stop _ => ?_
  refine (checks_sides d).bind fun productions hsides => ?_
  have hids := mem_declared hterminals hnonterminals (sides_eq hsides)
  have hcount : productions.length = d.productions.length := by
    rw [sides_eq hsides, List.length_map]
  refine (checks_narrow (nodup_eraseDups _) hids).bind fun _ _ => ?_
  refine (Checks.mapM_flatMap fun row _ => checks_columns hids row.2 row.1).bind
    fun resolved hresolved => ?_
  refine Checks.map ?_ fun rows : List Row =>
    (⟨rows, productions, terminals, nonterminals, stop⟩ : Table)
  rw [List.flatMap_def, hcount]
  refine Checks.mapM ?_
  rw [List.forall₂_map_right_iff]
  refine (forall₂_zipIdx (resolved_of_columns hresolved) 0).flip.imp ?_
  rintro ⟨cells, state⟩ ⟨row, state'⟩ ⟨hrow, rfl⟩
  exact checks_row hrow state'

/-- What is said of every demand is said of its kinds. -/
theorem forall_demands {P : Demand → Prop} : (∀ demand ∈ d.demands, P demand) ↔
    P .row ∧ (∀ named ∈ d.tokens ++ d.nonterminals, P (.id named.2)) ∧ P .stop ∧
      (∀ index p, d.productions[index]? = some p → P (.side index p.1)) ∧
      (∀ id ∈ d.ids, P (.width id)) ∧
      (∀ state row, d.table[state]? = some row → ∀ c ∈ row, P (.column state c.1)) ∧
      ∀ state row, d.table[state]? = some row → ∀ c ∈ row, P (.cell state c.1 c.2) := by
  have hzip : ∀ {α : Type} (xs : List α) (Q : α × Nat → Prop), (∀ x ∈ xs.zipIdx, Q x) ↔
      ∀ index x, xs[index]? = some x → Q (x, index) := by
    intro α xs Q
    constructor
    · intro h index x hx
      exact h _ (List.mem_zipIdx_iff_getElem?.mpr hx)
    · rintro h ⟨x, index⟩ hx
      exact h index x (List.mem_zipIdx_iff_getElem?.mp hx)
  simp only [demands, List.forall_mem_append, List.forall_mem_cons, List.forall_mem_map,
    List.forall_mem_flatMap, hzip, Finset.mem_sort, and_assoc]

theorem met_row : (∀ fault, ¬ d.Breaks .row fault) ↔ d.table ≠ [] := by
  constructor
  · intro h hrow
    exact h _ (.row hrow)
  · rintro h _ ⟨hrow⟩
    exact h hrow

theorem met_id {e : Entry} : (∀ fault, ¬ d.Breaks (.id e) fault) ↔ ∃ id, e.id? = some id := by
  rw [Checks.met_iff fun _ => Entry.symbol_eq_error_iff]
  simp only [Entry.symbol_eq_ok_iff]

theorem met_stop : (∀ fault, ¬ d.Breaks .stop fault) ↔ ∃ id, (endName, id) ∈ d.tokens := by
  constructor
  · intro h
    by_contra hstop
    exact h _ (.stop (not_exists.mp hstop))
  · rintro ⟨id, hid⟩ fault hbreaks
    cases hbreaks with
    | stop hstop => exact hstop id hid

theorem met_side {index : Nat} {lhs : Int} :
    (∀ fault, ¬ d.Breaks (.side index lhs) fault) ↔ -1 ≤ lhs := by
  rw [Checks.met_iff fun _ => production_eq_error_iff 0]
  simp only [production_eq_ok_iff, exists_and_left, exists_eq, and_true]

theorem met_width {id : Symbol} : (∀ fault, ¬ d.Breaks (.width id) fault) ↔ id ≤ d.ids.card := by
  constructor
  · intro h
    exact Nat.not_lt.mp fun hlt => h _ (.width hlt)
  · intro h fault hbreaks
    cases hbreaks with
    | width hlt => exact Nat.not_lt.mpr h hlt

theorem met_column {state : Nat} {key : String} :
    (∀ fault, ¬ d.Breaks (.column state key) fault) ↔
      ∃ column ∈ d.ids, Text.word? key.toList = some column := by
  constructor
  · intro h
    by_contra hcolumn
    refine h _ (.column fun column hmem hkey => hcolumn ⟨column, hmem, hkey⟩)
  · rintro ⟨column, hmem, hkey⟩ fault hbreaks
    cases hbreaks with
    | column hnone => exact hnone column hmem hkey

theorem met_cell {state column : Nat} {key : String} {e : Entry}
    (hkey : Text.word? key.toList = some column) :
    (∀ fault, ¬ d.Breaks (.cell state key e) fault) ↔
      ∃ a, e.Spells a ∧ a.Inside d.table.length d.productions.length := by
  rw [Checks.met_iff fun _ => cell_eq_error_iff hkey]
  simp only [cell_eq_ok_iff]

theorem sound_iff : d.Sound ↔ ∀ demand ∈ d.demands, ∀ fault, ¬ d.Breaks demand fault := by
  simp only [forall_demands, met_row, met_id, met_stop, met_side, met_width, met_column]
  constructor
  · intro h
    refine ⟨h.row, h.id, h.stop, fun index p hp => h.side p (List.mem_of_getElem? hp), h.width,
      fun state row hrow => h.column row (List.mem_of_getElem? hrow), ?_⟩
    intro state row hrow c hc
    obtain ⟨column, -, hkey⟩ := h.column row (List.mem_of_getElem? hrow) c hc
    exact (met_cell hkey).mpr (h.cell row (List.mem_of_getElem? hrow) c hc)
  · rintro ⟨hrow, hid, hstop, hside, hwidth, hcolumn, hcell⟩
    have hcolumn' : ∀ row ∈ d.table, ∀ c ∈ row,
        ∃ column ∈ d.ids, Text.word? c.1.toList = some column := by
      intro row hrow
      obtain ⟨state, hstate⟩ := List.getElem?_of_mem hrow
      exact hcolumn state row hstate
    refine ⟨hrow, hid, hstop, fun p hp => ?_, hwidth, hcolumn', fun row hrow c hc => ?_⟩
    · obtain ⟨index, hindex⟩ := List.getElem?_of_mem hp
      exact hside index p hindex
    · obtain ⟨state, hstate⟩ := List.getElem?_of_mem hrow
      obtain ⟨column, -, hkey⟩ := hcolumn' row hrow c hc
      exact (met_cell hkey).mp (hcell state row hstate c hc)

end Document
end Offside.Automaton

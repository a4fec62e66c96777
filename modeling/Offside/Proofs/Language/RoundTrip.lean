import Offside.Proofs.Language.Lexing
import Offside.Proofs.Language.Parsing

/-! # Round trip — a tree that is laid out is read back

    A source that lays out a tree with plain names parses to that tree.  If a
    name begins like the keyword, the lexer hands out the keyword twice in a
    row, and no derivation has that.

    * `parse_source` is the round trip of a program;
    * `parse_forest_iff` says for which forests there is one. -/

namespace Offside

namespace Language

open Automaton

/-! ## What comes behind the keyword -/

/-- Every keyword has a name behind it. -/
def Named : List Token → Prop
  | [] => True
  | t :: ts => (t.kind = Kind.keyword → ∃ n ns, ts = n :: ns ∧ n.kind = Kind.name) ∧ Named ts

theorem Named.append {ts us : List Token} (h : Named ts) (h' : Named us) : Named (ts ++ us) := by
  induction ts with
  | nil => exact h'
  | cons t ts ih =>
      obtain ⟨hname, hts⟩ := h
      refine ⟨?_, ih hts⟩
      intro hkeyword
      obtain ⟨n, ns, rfl, hn⟩ := hname hkeyword
      exact ⟨n, ns ++ us, rfl, hn⟩

theorem named_singleton {t : Token} (h : t.kind ≠ Kind.keyword) : Named [t] :=
  ⟨fun hkeyword => absurd hkeyword h, trivial⟩

theorem keyword_in_rules : ∀ r ∈ grammar.rules,
    r.output = [token Kind.keyword, token Kind.name, phrase Kind.optionalBlock] ∨
      ∀ X ∈ r.output, X ≠ token Kind.keyword := by decide

mutual

/-- In a derivation every keyword has a name behind it. -/
theorem named_of_derives {X : Letter} {T : ParseTree} (h : grammar.Derives X T)
    (hX : X ≠ token Kind.keyword) : Named T.yield := by
  cases h with
  | leaf t => exact named_singleton fun hkind => hX (congrArg token hkind)
  | @node index r A Ts hr hA hTs =>
      rw [ParseTree.yield]
      rcases keyword_in_rules r (List.mem_of_getElem? hr) with houtput | hothers
      · rw [houtput] at hTs
        -- the keyword is the first letter of a declaration and the name its second
        rcases hTs with _ | ⟨hk, _ | ⟨hn, hbody⟩⟩
        obtain ⟨k, rfl, -⟩ := hk.exists_leaf
        obtain ⟨n, rfl, hname⟩ := hn.exists_leaf
        have hrest : Named (ParseTree.yields _) := named_of_derivesAll hbody (by decide)
        have hplain : n.kind ≠ Kind.keyword := by
          rw [hname]
          decide
        exact ⟨fun _ => ⟨n, _, rfl, hname⟩, (named_singleton hplain).append hrest⟩
      · exact named_of_derivesAll hTs hothers

theorem named_of_derivesAll {Xs : List Letter} {Ts : List ParseTree}
    (h : grammar.DerivesAll Xs Ts) (hXs : ∀ X ∈ Xs, X ≠ token Kind.keyword) :
    Named (ParseTree.yields Ts) := by
  cases h with
  | nil => exact trivial
  | cons hT hTs =>
      obtain ⟨hX, hXs⟩ := List.forall_mem_cons.mp hXs
      exact (named_of_derives hT hX).append (named_of_derivesAll hTs hXs)

end

/-- The tokens of a sentence do not have the keyword twice in a row. -/
theorem not_named {front rest : List Token} {k k' : Token} (hk : k.kind = Kind.keyword)
    (hk' : k'.kind = Kind.keyword) : ¬ Named (front ++ k :: k' :: rest) := by
  induction front with
  | nil =>
      rintro ⟨hname, -⟩
      obtain ⟨n, ns, hcons, hn⟩ := hname hk
      obtain ⟨rfl, -⟩ := List.cons.inj hcons
      exact absurd (hk'.symm.trans hn) (by decide)
  | cons t front ih => exact fun h => ih h.2

theorem named_of_parses {T : ParseTree} {tokens : List Token}
    (h : grammar.Parses table.endSymbol T tokens) : Named tokens := by
  obtain ⟨hT, last, hlast, rfl⟩ := h
  have hplain : last.kind ≠ Kind.keyword := by
    rw [hlast]
    decide
  exact (named_of_derives hT (by decide)).append (named_singleton hplain)

/-- A source that comes to the keyword twice in a row has no program. -/
theorem Stumbles.parse_ne_ok {l : Language} {s : String}
    (h : Stumbles (Lexer.start l.lexicon s.toList)) (capture : Bool) (p : Program) :
    l.parse s capture ≠ .ok p := by
  intro hparse
  obtain ⟨T, tokens, hparses, ⟨s', hfeeds, hmore⟩, -⟩ :=
    parses_of_returns (parse_eq_ok_iff.mp hparse)
  obtain ⟨signs, l', ⟨us, hus, hsigns⟩, hrunning⟩ := h
  obtain ⟨front, back, rfl, -, hback⟩ := List.map_eq_append_iff.mp hsigns
  obtain ⟨k, back, rfl, hk, -, hback⟩ := exists_token hback
  obtain ⟨k', back, rfl, hk', -, -⟩ := exists_token hback
  rcases hus.comparable hfeeds with ⟨vs, rfl, -⟩ | ⟨vs, -, hvs⟩
  · -- a sentence goes on behind the second keyword
    have hnamed := named_of_parses hparses
    rw [List.append_assoc] at hnamed
    exact not_named hk hk' hnamed
  · -- the end symbol has not been handed out where the keyword comes again
    have hfinished : s'.finished = true := by
      have hqueue : (!s'.pending.isEmpty || !s'.finished) = false := hmore
      simpa using (Bool.or_eq_false_iff.mp hqueue).2
    exact Bool.false_ne_true (hrunning.symm.trans (Lexer.finished_of_feeds hvs hfinished))

/-! ## Programs -/

theorem starts_allLines {P : List Char → Prop} {m : Module} {ms : List Module} (hm : m.Shaped P)
    (hms : Module.AllShaped P ms) : Starts 0 (Module.allLines 0 (m :: ms))
      (m.signs ++ (Module.moreSigns ms ++ [mark Kind.marker, mark Kind.stop])) := by
  have hstarts := hm.starts (hms.tail (Tail.done 0))
  rw [List.append_nil] at hstarts
  exact hstarts

/-- A program that can be read back is: its layout parses to it. -/
theorem parse_source {p : Program} (h : p.Printable) {n : Nat} (hn : 0 < n) :
    standard.parse (source (4 * n) (Module.allLines 0 p.statements)) false = .ok p := by
  obtain ⟨statements, location⟩ := p
  obtain ⟨rfl, hne, hshaped⟩ := h
  have hformed := hshaped.formed 0
  cases hshaped with
  | nil => exact absurd rfl hne
  | cons hm hms =>
      obtain ⟨l', ⟨tokens, hfeeds, hsigns⟩, hmore⟩ := (starts_allLines hm hms).completes hn hformed
      obtain ⟨T, hparses, hread⟩ := exists_parses hm hms hsigns
      have hreturns := returns_of_parses hparses ⟨l', hfeeds, hmore⟩ false
      rw [hread] at hreturns
      exact parse_eq_ok_iff.mpr hreturns

/-- A forest is read back from its layout exactly if none of its names begins
    like the keyword; otherwise its layout has no program at all. -/
theorem parse_forest_iff (k : Nat) (first : Node) (rest : List Node) :
    ∃ l, withMarker defaultMarker = .ok l ∧
      (l.parse (source (4 * (k + 1)) (Node.forestLines 0 (first :: rest))) false =
          .ok ⟨Node.toModules (first :: rest), none⟩ ↔
        ∀ name ∈ Node.forestNames (first :: rest), ¬ keyword <+: name.text.toList) ∧
      ((∃ name ∈ Node.forestNames (first :: rest), keyword <+: name.text.toList) →
        ∃ fault, l.parse (source (4 * (k + 1)) (Node.forestLines 0 (first :: rest))) false =
          .error fault) := by
  have hrefused : (∃ name ∈ Node.forestNames (first :: rest), keyword <+: name.text.toList) →
      ∀ p, standard.parse (source (4 * (k + 1)) (Node.forestLines 0 (first :: rest))) false ≠
        .ok p := by
    rintro ⟨name, hmem, hkeyword⟩ p
    have hshaped := Node.forestShaped (P := IsDotted) (first :: rest) fun name _ => name.dotted
    have hnot : ¬ ∀ line ∈ Node.forestLines 0 (first :: rest), line.content.Formed IsName :=
      fun hall => (Node.forall_forestNames 0 _ hall name hmem).2 hkeyword
    rw [Node.forestLines_eq] at hnot ⊢
    rcases hshaped with _ | ⟨hm, hms⟩
    exact ((starts_allLines hm hms).stumbles (Nat.succ_pos k)
      ((Module.AllShaped.cons hm hms).formed 0) hnot).parse_ne_ok false p
  refine ⟨standard, withMarker_defaultMarker, ⟨?_, ?_⟩, ?_⟩
  · intro hparse name hmem hkeyword
    exact hrefused ⟨name, hmem, hkeyword⟩ _ hparse
  · intro hplain
    rw [Node.forestLines_eq]
    have hshaped : Module.AllShaped IsName (Node.toModules (first :: rest)) :=
      Node.forestShaped _ fun name hmem => ⟨name.dotted, hplain name hmem⟩
    have hprintable : Program.Printable ⟨Node.toModules (first :: rest), none⟩ :=
      ⟨rfl, List.cons_ne_nil _ _, hshaped⟩
    exact parse_source hprintable (Nat.succ_pos k)
  · intro hkeyword
    cases hparse : standard.parse (source (4 * (k + 1)) (Node.forestLines 0 (first :: rest)))
        false with
    | error fault => exact ⟨fault, rfl⟩
    | ok p => exact absurd hparse (hrefused hkeyword p)

end Language

end Offside

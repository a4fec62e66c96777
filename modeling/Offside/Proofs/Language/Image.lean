import Offside.Proofs.Language.RoundTrip
import Offside.Proofs.Language.Tokens

/-! # Image — the trees that parsing gives are those that can be printed

    Along the derivation of a source every value has the shape of its kind:
    names and comments come from tokens that have their form, and no rule
    makes an empty block or an empty program.

    * `shaped_node` is one rule, and `hereditary_shaped` a derivation;
    * `parse_image` says that parsing gives the printable trees and no others,
      and that a printed tree parses to itself again. -/

namespace Offside

open Offside.Language

theorem Module.AllShaped.append {P : List Char → Prop} {ms ms' : List Module}
    (h : Module.AllShaped P ms) (h' : Module.AllShaped P ms') : Module.AllShaped P (ms ++ ms') := by
  induction ms with
  | nil => exact h'
  | cons m ms ih =>
      rcases h with _ | ⟨hm, hms⟩
      exact .cons hm (ih hms)

/-- Statements that are not empty make a block. -/
theorem Module.AllShaped.block {P : List Char → Prop} {ms : List Module}
    (h : Module.AllShaped P ms) (hne : ms ≠ []) : Block.Shaped P (.mk none ms none) := by
  cases h with
  | nil => exact absurd rfl hne
  | cons hm hms => exact .statements hm hms

/-- A value that can be read back, by its kind. -/
def Value.Shaped : Value → Prop
  | .token t => t.Formed
  | .program p => p.Printable
  | .statements ms => ms ≠ [] ∧ Module.AllShaped IsName ms
  | .statement m => m.Shaped IsName
  | .optionalBlock body => ∀ b, body = some b → b.Shaped IsName
  | .block b => b.Shaped IsName
  | .module m => m.Shaped IsName

namespace Language

/-! ## Along a derivation -/

theorem isName_readText {T : ParseTree} (h : grammar.Derives (token Kind.name) T)
    (hT : (readValue false T).Shaped) : IsName (readText T).toList := by
  obtain ⟨t, rfl, hkind⟩ := h.exists_leaf
  have hformed : t.Formed := hT
  exact hformed.name hkind

theorem isRemark_readText {T : ParseTree} (h : grammar.Derives (token Kind.comment) T)
    (hT : (readValue false T).Shaped) : IsRemark (readText T).toList := by
  obtain ⟨t, rfl, hkind⟩ := h.exists_leaf
  have hformed : t.Formed := hT
  exact hformed.comment hkind

theorem shaped_statements {T : ParseTree} (h : grammar.Derives (phrase Kind.statements) T)
    (hT : (readValue false T).Shaped) :
    readStatements false T ≠ [] ∧ Module.AllShaped IsName (readStatements false T) := by
  rw [readValue_statements h] at hT
  exact hT

/-- A rule keeps values in shape. -/
theorem shaped_node {index : Nat} {r : GrammarRule} {trees : List ParseTree}
    (hr : grammar.rules[index]? = some r) (hinput : r.input ≠ none)
    (htrees : grammar.DerivesAll r.output trees)
    (hshaped : ∀ T ∈ trees, (readValue false T).Shaped) :
    (readValue false (.node index trees)).Shaped := by
  match index, hr with
  | 0, hr =>
      cases hr
      exact absurd rfl hinput
  | 1, hr =>
      cases hr
      rcases htrees with _ | ⟨hS, _ | ⟨-, _ | _⟩⟩
      obtain ⟨hne, hall⟩ := shaped_statements hS (hshaped _ (List.mem_cons_self ..))
      exact ⟨rfl, hne, hall⟩
  | 2, hr =>
      cases hr
      rcases htrees with _ | ⟨hT, _ | _⟩
      have hm := hshaped _ (List.mem_cons_self ..)
      rw [readValue_statement hT] at hm
      exact ⟨List.cons_ne_nil _ _, .cons hm .nil⟩
  | 3, hr =>
      cases hr
      rcases htrees with _ | ⟨hS, _ | ⟨-, _ | ⟨hT, _ | _⟩⟩⟩
      obtain ⟨hS', -, hm, -⟩ : _ ∧ _ ∧ _ ∧ _ := by
        simpa only [List.forall_mem_cons] using hshaped
      obtain ⟨hne, hall⟩ := shaped_statements hS hS'
      rw [readValue_statement hT] at hm
      exact ⟨List.append_ne_nil_of_left_ne_nil hne _, hall.append (.cons hm .nil)⟩
  | 4, hr =>
      cases hr
      rcases htrees with _ | ⟨hS, _ | ⟨-, _ | _⟩⟩
      have hms := shaped_statements hS (hshaped _ (List.mem_cons_self ..))
      exact hms
  | 5, hr =>
      cases hr
      rcases htrees with _ | ⟨hM, _ | _⟩
      have hm := hshaped _ (List.mem_cons_self ..)
      rw [readValue_module hM] at hm
      exact hm
  | 6, hr =>
      cases hr
      rcases htrees with _ | ⟨hB, _ | _⟩
      have hb := hshaped _ (List.mem_cons_self ..)
      rw [readValue_block hB] at hb
      rintro b ⟨⟩
      exact hb
  | 7, hr =>
      cases hr
      obtain ⟨⟩ := htrees
      exact nofun
  | 8, hr =>
      cases hr
      rcases htrees with _ | ⟨-, _ | ⟨hC, _ | ⟨-, _ | _⟩⟩⟩
      obtain ⟨-, hc, -⟩ : _ ∧ _ ∧ _ := by
        simpa only [List.forall_mem_cons] using hshaped
      exact Block.Shaped.remark (isRemark_readText hC hc) .nil
  | 9, hr =>
      cases hr
      rcases htrees with _ | ⟨-, _ | ⟨hC, _ | ⟨-, _ | ⟨hS, _ | ⟨-, _ | _⟩⟩⟩⟩⟩
      obtain ⟨-, hc, -, hs, -⟩ : _ ∧ _ ∧ _ ∧ _ ∧ _ := by
        simpa only [List.forall_mem_cons] using hshaped
      exact Block.Shaped.remark (isRemark_readText hC hc) (shaped_statements hS hs).2
  | 10, hr =>
      cases hr
      rcases htrees with _ | ⟨-, _ | ⟨hS, _ | ⟨-, _ | _⟩⟩⟩
      obtain ⟨-, hs, -⟩ : _ ∧ _ ∧ _ := by
        simpa only [List.forall_mem_cons] using hshaped
      obtain ⟨hne, hall⟩ := shaped_statements hS hs
      exact hall.block hne
  | 11, hr =>
      cases hr
      rcases htrees with _ | ⟨-, _ | ⟨hN, _ | ⟨hB, _ | _⟩⟩⟩
      obtain ⟨-, hn, hb, -⟩ : _ ∧ _ ∧ _ ∧ _ := by
        simpa only [List.forall_mem_cons] using hshaped
      -- the block, if there is one, has its shape already
      have hname := isName_readText hN hn
      rw [readValue_body hB] at hb
      show Module.Shaped IsName (.mk _ (readBody false _) none)
      cases hbody : readBody false _ with
      | none => exact .bare hname
      | some b => exact .block hname (hb b hbody)
  | n + 12, hr => exact nomatch hr

/-- Along a derivation from tokens that have their form values are in shape. -/
theorem hereditary_shaped : grammar.Hereditary (fun tokens => ∀ t ∈ tokens, t.Formed)
    fun _ T => (readValue false T).Shaped where
  sublist h htokens t ht := htokens t (h.subset ht)
  start := start_not_in_rules
  leaf t htokens := htokens t (List.mem_singleton_self t)
  node hr hinput htrees _ hchildren := shaped_node hr hinput htrees
    (Grammar.forall_of_forall₂ (Q := fun T => (readValue false T).Shaped) (fun _ _ h => h)
      hchildren)

/-! ## Parsing -/

/-- What a source parses to can be read back. -/
theorem printable_of_parse {s : String} {p : Program} (h : standard.parse s false = .ok p) :
    p.Printable := by
  obtain ⟨T, tokens, hparses, ⟨l', hfeeds, -⟩, hp⟩ := parses_of_returns (parse_eq_ok_iff.mp h)
  -- the tokens have their form, so all values along the derivation have theirs
  have htokens := formed_of_feeds hfeeds
  obtain ⟨hT, last, -, rfl⟩ := hparses
  obtain ⟨hyield, -⟩ := List.forall_mem_append.mp htokens
  have hshaped := hereditary_shaped.derives hT (by decide) hyield
  rw [readValue_program hT, ← hp] at hshaped
  exact hshaped

/-- The programs of sources are those that can be printed, and such a program
    is the one of its own layout, four spaces a level. -/
theorem parse_image :
    ∃ l, withMarker defaultMarker = .ok l ∧ ∀ p,
      ((∃ s, l.parse s false = .ok p) ↔ p.Printable) ∧
      ((∃ s, l.parse s false = .ok p) ↔
        l.parse (source 4 (Module.allLines 0 p.statements)) false = .ok p) := by
  have hround : ∀ p : Program, p.Printable →
      standard.parse (source 4 (Module.allLines 0 p.statements)) false = .ok p := by
    intro p hp
    have hparse := parse_source hp Nat.one_pos
    rw [Nat.mul_one] at hparse
    exact hparse
  refine ⟨standard, withMarker_defaultMarker, ?_⟩
  intro p
  refine ⟨⟨?_, ?_⟩, ⟨?_, ?_⟩⟩
  · rintro ⟨s, hparse⟩
    exact printable_of_parse hparse
  · intro hprintable
    exact ⟨_, hround p hprintable⟩
  · rintro ⟨s, hparse⟩
    exact hround p (printable_of_parse hparse)
  · intro hparse
    exact ⟨_, hparse⟩

end Language

end Offside

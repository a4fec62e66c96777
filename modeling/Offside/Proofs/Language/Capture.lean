import Offside.Proofs.Automaton.Simulation
import Offside.Proofs.Language.Marker
import Offside.Proofs.Language.Parsing

/-! # Capture — locations change nothing but themselves

    Without capture a parse goes on, ends and fails as it does with it, and
    its tree is the same one with the locations left out.

    * `Program.locations` are all locations of a tree;
    * `readProgram_false` compares what is read off one derivation;
    * `parse_without_capture` compares whole parses. -/

namespace Offside

/-! ## The locations of a tree -/

mutual

/-- The locations of a declaration and of all that is in it. -/
def Module.locations : Module → List Span
  | .mk _ body location => location.toList ++ Block.bodyLocations body

/-- The locations of a block and of all that is in it. -/
def Block.locations : Block → List Span
  | .mk _ statements location => location.toList ++ Module.allLocations statements

/-- The locations of a block that may be absent. -/
def Block.bodyLocations : Option Block → List Span
  | none => []
  | some block => block.locations

/-- The locations of declarations and of all that is in them. -/
def Module.allLocations : List Module → List Span
  | [] => []
  | m :: ms => m.locations ++ Module.allLocations ms

end

/-- The locations of a program and of all that is in it. -/
def Program.locations (p : Program) : List Span :=
  p.location.toList ++ Module.allLocations p.statements

mutual

theorem Module.locations_withoutLocations (m : Module) : m.withoutLocations.locations = [] := by
  cases m with
  | mk name body location => exact Block.bodyLocations_bodyWithoutLocations body

theorem Block.locations_withoutLocations (b : Block) : b.withoutLocations.locations = [] := by
  cases b with
  | mk comment statements location => exact Module.allLocations_allWithoutLocations statements

theorem Block.bodyLocations_bodyWithoutLocations (body : Option Block) :
    Block.bodyLocations (Block.bodyWithoutLocations body) = [] := by
  cases body with
  | none => rfl
  | some block => exact block.locations_withoutLocations

theorem Module.allLocations_allWithoutLocations (ms : List Module) :
    Module.allLocations (Module.allWithoutLocations ms) = [] := by
  cases ms with
  | nil => rfl
  | cons m ms =>
      rw [Module.allWithoutLocations, Module.allLocations, m.locations_withoutLocations,
        Module.allLocations_allWithoutLocations ms, List.append_nil]

end

/-- No location is left. -/
theorem Program.locations_withoutLocations (p : Program) : p.withoutLocations.locations = [] :=
  Module.allLocations_allWithoutLocations p.statements

mutual

theorem Module.withoutLocations_withoutLocations (m : Module) :
    m.withoutLocations.withoutLocations = m.withoutLocations := by
  cases m with
  | mk name body location =>
      rw [Module.withoutLocations, Module.withoutLocations,
        Block.bodyWithoutLocations_bodyWithoutLocations body]

theorem Block.withoutLocations_withoutLocations (b : Block) :
    b.withoutLocations.withoutLocations = b.withoutLocations := by
  cases b with
  | mk comment statements location =>
      rw [Block.withoutLocations, Block.withoutLocations,
        Module.allWithoutLocations_allWithoutLocations statements]

theorem Block.bodyWithoutLocations_bodyWithoutLocations (body : Option Block) :
    Block.bodyWithoutLocations (Block.bodyWithoutLocations body) =
      Block.bodyWithoutLocations body := by
  cases body with
  | none => rfl
  | some block =>
      rw [Block.bodyWithoutLocations, Block.bodyWithoutLocations,
        block.withoutLocations_withoutLocations]

theorem Module.allWithoutLocations_allWithoutLocations (ms : List Module) :
    Module.allWithoutLocations (Module.allWithoutLocations ms) =
      Module.allWithoutLocations ms := by
  cases ms with
  | nil => rfl
  | cons m ms =>
      rw [Module.allWithoutLocations, Module.allWithoutLocations,
        m.withoutLocations_withoutLocations, Module.allWithoutLocations_allWithoutLocations ms]

end

theorem Module.allWithoutLocations_append (ms ms' : List Module) :
    Module.allWithoutLocations (ms ++ ms') =
      Module.allWithoutLocations ms ++ Module.allWithoutLocations ms' := by
  rw [Module.allWithoutLocations_eq_map, List.map_append, ← Module.allWithoutLocations_eq_map,
    ← Module.allWithoutLocations_eq_map]

namespace Language

open Automaton

/-! ## One derivation read twice -/

theorem readStatements_false (T : ParseTree) :
    readStatements false T = Module.allWithoutLocations (readStatements true T) := by
  refine readStatements.induct
    (fun T => readStatements false T = Module.allWithoutLocations (readStatements true T))
    (fun T => readStatement false T = (readStatement true T).withoutLocations)
    (fun T => readModule false T = (readModule true T).withoutLocations)
    (fun T => readBody false T = Block.bodyWithoutLocations (readBody true T))
    (fun T => readBlock false T = (readBlock true T).withoutLocations)
    ?_ ?_ ?_ ?_ ?_ ?_ ?_ ?_ ?_ ?_ ?_ ?_ ?_ ?_ T
  · intro statement ih
    rw [readStatements, readStatements, ih]
    rfl
  · intro statements _ statement ihs ih
    rw [readStatements, readStatements, ihs, ih, Module.allWithoutLocations_append]
    rfl
  · intro statements _ ihs
    rw [readStatements, readStatements, ihs]
  · intro T h₁ h₂ h₃
    rw [readStatements.eq_4 false T h₁ h₂ h₃, readStatements.eq_4 true T h₁ h₂ h₃]
    rfl
  · intro declaration ih
    rw [readStatement, readStatement, ih]
  · intro T h
    rw [readStatement.eq_2 false T h, readStatement.eq_2 true T h]
    rfl
  · intro keyword name body ih
    rw [readModule, readModule, ih]
    rfl
  · intro T h
    rw [readModule.eq_2 false T h, readModule.eq_2 true T h]
    rfl
  · intro block ih
    rw [readBody, readBody, ih]
    rfl
  · intro T h
    rw [readBody.eq_2 false T h, readBody.eq_2 true T h]
    rfl
  · intro indent comment dedent
    rfl
  · intro indent comment newline statements dedent ihs
    rw [readBlock, readBlock, ihs]
    rfl
  · intro indent statements dedent ihs
    rw [readBlock, readBlock, ihs]
    rfl
  · intro T h₁ h₂ h₃
    rw [readBlock.eq_4 false T h₁ h₂ h₃, readBlock.eq_4 true T h₁ h₂ h₃]
    rfl

/-- Whether or not locations are kept, without them the declarations are the
    same. -/
theorem allWithoutLocations_readStatements (capture : Bool) (T : ParseTree) :
    Module.allWithoutLocations (readStatements capture T) = readStatements false T := by
  cases capture with
  | false => rw [readStatements_false, Module.allWithoutLocations_allWithoutLocations]
  | true => exact (readStatements_false T).symm

/-- Reading a derivation without locations leaves them out. -/
theorem readProgram_false (T : ParseTree) :
    readProgram false T = (readProgram true T).withoutLocations := by
  rw [readProgram.eq_def, readProgram.eq_def]
  split
  next statements marker =>
    rw [readStatements_false]
    rfl
  next => rfl

/-! ## Parsing -/

/-- The two parses of a source, as their runs give them. -/
theorem parse_false (l : Language) (s : String) :
    l.parse s false = (l.parse s true).map Program.withoutLocations := by
  obtain ⟨result, hparse, hreturns⟩ := exists_returns_parse l s false
  obtain ⟨result', hparse', hreturns'⟩ := exists_returns_parse l s true
  rw [hparse, hparse']
  rcases alike_of_returns sound (builder_model false) (builder_model true) hreturns hreturns' with
    ⟨fault, hfault, hfault'⟩ | ⟨T, _, _, hT, rfl, rfl, hvalue, hvalue'⟩
  · cases result with
    | ok p => cases hfault
    | error e =>
        cases result' with
        | ok p => cases hfault'
        | error e' =>
            cases hfault
            cases hfault'
            rfl
  · rw [frameOf, readValue_program hT] at hvalue hvalue'
    cases result with
    | error e => cases hvalue
    | ok p =>
        cases result' with
        | error e' => cases hvalue'
        | ok p' =>
            cases hvalue
            cases hvalue'
            exact congrArg Except.ok (readProgram_false T)

/-- With every end marker, a parse without capture gives the tree of the
    parse with capture, all its locations left out, or the same fault. -/
theorem parse_without_capture (marker : String) :
    ∃ l, withMarker marker = .ok l ∧ ∀ s : String,
      l.parse s false = (l.parse s true).map Program.withoutLocations ∧
      ∀ p, l.parse s false = .ok p → p.locations = [] := by
  refine ⟨_, withMarker_eq marker, fun s => ⟨parse_false _ s, ?_⟩⟩
  intro p hp
  rw [parse_false] at hp
  cases hcaptured : Language.parse ⟨lexiconFor marker, marker⟩ s true with
  | error fault =>
      rw [hcaptured] at hp
      cases hp
  | ok q =>
      rw [hcaptured] at hp
      cases hp
      exact q.locations_withoutLocations

/-- A module in the block of another one. -/
def nestedSource : String := "module a.b:\n    module c.d\n@@EOF@@"

theorem parse_nestedSource : standard.parse nestedSource false =
    .ok ⟨[.mk "a.b" (some (.mk none [.mk "c.d" none none] none)) none], none⟩ := by
  decide +kernel

theorem parse_without_capture_nestedSource :
    standard.parse nestedSource false =
        (standard.parse nestedSource true).map Program.withoutLocations ∧
      ∃ p, standard.parse nestedSource false = .ok p ∧ p.locations = [] := by
  obtain ⟨l, hl, hparse⟩ := parse_without_capture defaultMarker
  obtain rfl := Except.ok.inj (hl.symm.trans withMarker_defaultMarker)
  obtain ⟨hmap, hnone⟩ := hparse nestedSource
  exact ⟨hmap, _, parse_nestedSource, hnone _ parse_nestedSource⟩

end Language

end Offside

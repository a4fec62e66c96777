import Offside.Span

/-! # Syntax trees — modules and the blocks inside them

    A program is a list of module declarations.  A module may carry a block,
    which holds a comment, further declarations, or both.  Every node
    records the source that it covers, unless locations are left out. -/

namespace Offside

mutual

/-- A module declaration: a dotted name and possibly a block. -/
inductive Module where
  | mk (name : String) (body : Option Block) (location : Option Span)

/-- An indented block: possibly a comment, and declarations. -/
inductive Block where
  | mk (comment : Option String) (statements : List Module) (location : Option Span)

end

/-- A whole file. -/
structure Program where
  statements : List Module
  location : Option Span

namespace Module

/-- The dotted name. -/
def name : Module → String
  | mk name _ _ => name

/-- The block, if there is one. -/
def body : Module → Option Block
  | mk _ body _ => body

/-- The source that the declaration covers. -/
def location : Module → Option Span
  | mk _ _ location => location

end Module

namespace Block

/-- The comment, if there is one. -/
def comment : Block → Option String
  | mk comment _ _ => comment

/-- The declarations. -/
def statements : Block → List Module
  | mk _ statements _ => statements

/-- The source that the block covers. -/
def location : Block → Option Span
  | mk _ _ location => location

end Block

/-! ## Leaving out locations -/

mutual

/-- A declaration with no locations in it. -/
def Module.withoutLocations : Module → Module
  | .mk name body _ => .mk name (Block.bodyWithoutLocations body) none

/-- A block with no locations in it. -/
def Block.withoutLocations : Block → Block
  | .mk comment statements _ => .mk comment (Module.allWithoutLocations statements) none

/-- A block that may be absent, with no locations in it. -/
def Block.bodyWithoutLocations : Option Block → Option Block
  | none => none
  | some block => some block.withoutLocations

/-- Declarations with no locations in them. -/
def Module.allWithoutLocations : List Module → List Module
  | [] => []
  | m :: ms => m.withoutLocations :: Module.allWithoutLocations ms

end

theorem Module.allWithoutLocations_eq_map (ms : List Module) :
    Module.allWithoutLocations ms = ms.map Module.withoutLocations := by
  induction ms with
  | nil => rfl
  | cons m ms ih => rw [Module.allWithoutLocations, ih, List.map_cons]

/-- A program with no locations in it. -/
def Program.withoutLocations (p : Program) : Program :=
  ⟨Module.allWithoutLocations p.statements, none⟩

/-! ## Equality -/

mutual

/-- Whether two declarations are equal. -/
def Module.decEq : (a b : Module) → Decidable (a = b)
  | .mk name body location, .mk name' body' location' =>
      match decEq name name', Block.bodyDecEq body body', decEq location location' with
      | isTrue h, isTrue h', isTrue h'' => isTrue (by rw [h, h', h''])
      | isFalse h, _, _ => isFalse fun e => h (Module.mk.inj e).1
      | _, isFalse h, _ => isFalse fun e => h (Module.mk.inj e).2.1
      | _, _, isFalse h => isFalse fun e => h (Module.mk.inj e).2.2

/-- Whether two blocks are equal. -/
def Block.decEq : (a b : Block) → Decidable (a = b)
  | .mk comment statements location, .mk comment' statements' location' =>
      match decEq comment comment', Module.allDecEq statements statements',
          decEq location location' with
      | isTrue h, isTrue h', isTrue h'' => isTrue (by rw [h, h', h''])
      | isFalse h, _, _ => isFalse fun e => h (Block.mk.inj e).1
      | _, isFalse h, _ => isFalse fun e => h (Block.mk.inj e).2.1
      | _, _, isFalse h => isFalse fun e => h (Block.mk.inj e).2.2

/-- Whether two blocks that may be absent are equal. -/
def Block.bodyDecEq : (a b : Option Block) → Decidable (a = b)
  | none, none => isTrue rfl
  | none, some _ => isFalse nofun
  | some _, none => isFalse nofun
  | some a, some b =>
      match Block.decEq a b with
      | isTrue h => isTrue (by rw [h])
      | isFalse h => isFalse fun e => h (Option.some.inj e)

/-- Whether two lists of declarations are equal. -/
def Module.allDecEq : (as bs : List Module) → Decidable (as = bs)
  | [], [] => isTrue rfl
  | [], _ :: _ => isFalse nofun
  | _ :: _, [] => isFalse nofun
  | a :: as, b :: bs =>
      match Module.decEq a b, Module.allDecEq as bs with
      | isTrue h, isTrue h' => isTrue (by rw [h, h'])
      | isFalse h, _ => isFalse fun e => h (List.cons.inj e).1
      | _, isFalse h => isFalse fun e => h (List.cons.inj e).2

end

instance : DecidableEq Module := Module.decEq

instance : DecidableEq Block := Block.decEq

instance : DecidableEq Program := fun a b =>
  match decEq a.statements b.statements, decEq a.location b.location with
  | isTrue h, isTrue h' => isTrue (by cases a; cases b; simp_all)
  | isFalse h, _ => isFalse fun e => h (congrArg Program.statements e)
  | _, isFalse h => isFalse fun e => h (congrArg Program.location e)

end Offside

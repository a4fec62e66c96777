import Offside.Proofs.Language.Lexicon

/-! # Rendering — trees as lines of a source

    A declaration is written on a line of its own, with a colon if it has a
    block; the block follows one level deeper, its comment first.  The last
    line is the end marker.

    * `Module.lines` lays a tree out and `source` writes the lines;
    * `Module.Shaped` says which trees can be read back;
    * `Node` is a tree that is so by construction, and `Node.lines_eq` says
      that it is laid out like the tree it stands for. -/

namespace Offside

namespace Language

/-! ## Names and comments -/

/-- A word. -/
def IsWord (text : List Char) : Prop := text ≠ [] ∧ ∀ c ∈ text, isWordChar c = true

/-- A dotted name: words with dots between them, at least two. -/
def IsDotted (text : List Char) : Prop :=
  ∃ first others, IsWord first ∧ others ≠ [] ∧ (∀ w ∈ others, IsWord w) ∧
    text = first ++ others.flatMap ('.' :: ·)

/-- A dotted name that does not begin like the keyword. -/
def IsName (text : List Char) : Prop := IsDotted text ∧ ¬ keyword <+: text

/-- A comment. -/
def IsRemark (text : List Char) : Prop := ∀ c ∈ text, isRemarkChar c = true

instance (text : List Char) : Decidable (IsRemark text) :=
  inferInstanceAs (Decidable (∀ c ∈ text, isRemarkChar c = true))

/-! ## Lines -/

/-- What a line says. -/
inductive Content where
  | declaration (name : String) (opens : Bool)
  | remark (text : String)

/-- A line at a depth. -/
structure Line where
  depth : Nat
  content : Content

/-- Whether a block is to follow. -/
def Content.opens : Content → Bool
  | .declaration _ opens => opens
  | .remark _ => false

/-- The text of a content, without the colon. -/
def Content.body : Content → List Char
  | .declaration name _ => keyword ++ ' ' :: name.toList
  | .remark text => ';' :: text.toList

/-- A content whose name or comment has its form. -/
def Content.Formed (P : List Char → Prop) : Content → Prop
  | .declaration name _ => P name.toList
  | .remark text => IsRemark text.toList

/-- The colon of a line that opens a block. -/
def colon (opens : Bool) : List Char := if opens then [':'] else []

/-- A line as it is written. -/
def Line.written (unit : Nat) (line : Line) : List Char :=
  List.replicate (line.depth * unit) ' ' ++ line.content.body ++ colon line.content.opens

/-- The source that has these lines, and the end marker behind them. -/
def source (unit : Nat) (lines : List Line) : String :=
  String.ofList (Text.unlines (lines.map (Line.written unit) ++ [defaultMarker.toList]))

end Language

open Offside.Language

/-! ## Trees -/

mutual

/-- The lines of a declaration at a depth. -/
def Module.lines (depth : Nat) : Module → List Line
  | .mk name body _ =>
      ⟨depth, .declaration name body.isSome⟩ :: Block.bodyLines (depth + 1) body

/-- The lines of a block that may be absent. -/
def Block.bodyLines (depth : Nat) : Option Block → List Line
  | none => []
  | some block => block.lines depth

/-- The lines of a block. -/
def Block.lines (depth : Nat) : Block → List Line
  | .mk comment statements _ =>
      (comment.toList.map fun text => ⟨depth, .remark text⟩) ++ Module.allLines depth statements

/-- The lines of declarations. -/
def Module.allLines (depth : Nat) : List Module → List Line
  | [] => []
  | m :: ms => m.lines depth ++ Module.allLines depth ms

end

mutual

/-- A declaration without locations that can be read back: its name is of a
    form, and so are the declarations of its block, if it has one. -/
inductive Module.Shaped (P : List Char → Prop) : Module → Prop
  | bare {name : String} : P name.toList → Module.Shaped P (.mk name none none)
  | block {name : String} {b : Block} : P name.toList → Block.Shaped P b →
      Module.Shaped P (.mk name (some b) none)

/-- A block that can be read back: it has a comment or a declaration. -/
inductive Block.Shaped (P : List Char → Prop) : Block → Prop
  | remark {text : String} {ms : List Module} : IsRemark text.toList →
      Module.AllShaped P ms → Block.Shaped P (.mk (some text) ms none)
  | statements {m : Module} {ms : List Module} : Module.Shaped P m →
      Module.AllShaped P ms → Block.Shaped P (.mk none (m :: ms) none)

/-- Declarations that can be read back. -/
inductive Module.AllShaped (P : List Char → Prop) : List Module → Prop
  | nil : Module.AllShaped P []
  | cons {m : Module} {ms : List Module} : Module.Shaped P m → Module.AllShaped P ms →
      Module.AllShaped P (m :: ms)

end

mutual

/-- The lines of a declaration have the form that it has. -/
theorem Module.Shaped.formed {P : List Char → Prop} {m : Module} (h : m.Shaped P) (depth : Nat) :
    ∀ line ∈ m.lines depth, line.content.Formed P := by
  cases h with
  | bare hname => exact List.forall_mem_singleton.mpr hname
  | block hname hb => exact List.forall_mem_cons.mpr ⟨hname, hb.formed (depth + 1)⟩

theorem Block.Shaped.formed {P : List Char → Prop} {b : Block} (h : b.Shaped P) (depth : Nat) :
    ∀ line ∈ b.lines depth, line.content.Formed P := by
  cases h with
  | remark htext hms => exact List.forall_mem_cons.mpr ⟨htext, hms.formed depth⟩
  | @statements m ms hm hms =>
      show ∀ line ∈ m.lines depth ++ Module.allLines depth ms, line.content.Formed P
      exact List.forall_mem_append.mpr ⟨hm.formed depth, hms.formed depth⟩

theorem Module.AllShaped.formed {P : List Char → Prop} {ms : List Module}
    (h : Module.AllShaped P ms) (depth : Nat) :
    ∀ line ∈ Module.allLines depth ms, line.content.Formed P := by
  cases h with
  | nil => exact nofun
  | cons hm hms => exact List.forall_mem_append.mpr ⟨hm.formed depth, hms.formed depth⟩

end

/-- A program that can be read back: it has declarations, and they can. -/
structure Program.Printable (p : Program) : Prop where
  location : p.location = none
  statements : p.statements ≠ []
  shaped : Module.AllShaped IsName p.statements

/-! ## Nodes -/

/-- A dotted name with its form. -/
structure DottedName where
  text : String
  dotted : IsDotted text.toList

/-- A comment with its form. -/
structure Remark where
  text : String
  plain : IsRemark text.toList

/-- A declaration by its name, its comment and what it encloses. -/
inductive Node where
  | mk (name : DottedName) (comment : Option Remark) (children : List Node)

namespace Node

mutual

/-- The lines of a node: its name, with a colon exactly if it has a comment or
    encloses anything, then its comment and its children one level deeper. -/
def lines (depth : Nat) : Node → List Line
  | .mk name comment children =>
      ⟨depth, .declaration name.text (comment.isSome || !children.isEmpty)⟩ ::
        ((comment.toList.map fun c => ⟨depth + 1, .remark c.text⟩) ++
          forestLines (depth + 1) children)

/-- The lines of nodes. -/
def forestLines (depth : Nat) : List Node → List Line
  | [] => []
  | n :: ns => n.lines depth ++ forestLines depth ns

end

mutual

/-- The tree that a node stands for: it has a block exactly if it has a
    comment or encloses anything. -/
def toModule : Node → Module
  | .mk name comment children =>
      .mk name.text
        (if comment.isSome || !children.isEmpty then
          some (.mk (comment.map Remark.text) (toModules children) none)
        else
          none)
        none

/-- The trees that nodes stand for. -/
def toModules : List Node → List Module
  | [] => []
  | n :: ns => n.toModule :: toModules ns

end

mutual

/-- The names of a node and of all nodes inside it. -/
def names : Node → List DottedName
  | .mk name _ children => name :: forestNames children

/-- The names of nodes and of all nodes inside them. -/
def forestNames : List Node → List DottedName
  | [] => []
  | n :: ns => n.names ++ forestNames ns

end

mutual

/-- A node is laid out like its tree. -/
theorem lines_eq (depth : Nat) : (n : Node) → n.lines depth = n.toModule.lines depth
  | .mk name comment children => by
      rw [lines, toModule, Module.lines, forestLines_eq]
      cases comment with
      | none =>
          cases children with
          | nil => rfl
          | cons n ns => rfl
      | some c => rfl

theorem forestLines_eq (depth : Nat) :
    (ns : List Node) → forestLines depth ns = Module.allLines depth (toModules ns)
  | [] => rfl
  | n :: ns => by
      rw [forestLines, toModules, Module.allLines, lines_eq depth n, forestLines_eq depth ns]

end

mutual

/-- A node stands for a tree that can be read back, up to what is asked of the
    names. -/
theorem shaped {P : List Char → Prop} : (n : Node) → (∀ name ∈ n.names, P name.text.toList) →
    n.toModule.Shaped P
  | .mk name comment children, h => by
      have hname := h name (List.mem_cons_self ..)
      have hchildren := forestShaped children fun x hx => h x (List.mem_cons_of_mem _ hx)
      rw [toModule]
      cases comment with
      | some c => exact .block hname (.remark c.plain hchildren)
      | none =>
          cases children with
          | nil => exact .bare hname
          | cons n ns =>
              rcases hchildren with _ | ⟨hn, hns⟩
              exact .block hname (.statements hn hns)

theorem forestShaped {P : List Char → Prop} : (ns : List Node) →
    (∀ name ∈ forestNames ns, P name.text.toList) → Module.AllShaped P (toModules ns)
  | [], _ => .nil
  | n :: ns, h => .cons (n.shaped fun x hx => h x (List.mem_append_left _ hx))
      (forestShaped ns fun x hx => h x (List.mem_append_right _ hx))

end

mutual

/-- The names of a node stand in its lines. -/
theorem forall_names {P : List Char → Prop} (depth : Nat) : (n : Node) →
    (∀ line ∈ n.lines depth, line.content.Formed P) → ∀ name ∈ n.names, P name.text.toList
  | .mk name comment children, h => by
      rw [lines] at h
      obtain ⟨hname, hbelow⟩ := List.forall_mem_cons.mp h
      obtain ⟨-, hchildren⟩ := List.forall_mem_append.mp hbelow
      exact List.forall_mem_cons.mpr ⟨hname, forall_forestNames (depth + 1) children hchildren⟩

theorem forall_forestNames {P : List Char → Prop} (depth : Nat) : (ns : List Node) →
    (∀ line ∈ forestLines depth ns, line.content.Formed P) →
      ∀ name ∈ forestNames ns, P name.text.toList
  | [], _ => nofun
  | n :: ns, h => by
      obtain ⟨hn, hns⟩ := List.forall_mem_append.mp h
      exact List.forall_mem_append.mpr ⟨forall_names depth n hn, forall_forestNames depth ns hns⟩

end

end Node

end Offside

import Mathlib.Data.List.Forall2
import Offside.Tree.Display

/-! # Serialized trees — nothing is lost

    A serialized node leaves out the fields that are absent, and a declaration
    that stands as a statement has its type among its own members.  Still every
    field can be told from the value: each has a key of its own, and where the
    key is missing, the field was absent.

    * `Json.Same` is when two values are the same: the members of an object
      are looked up by key, so their order does not matter;
    * `Module.lookup_members` and its like say what stands under which key;
    * `Module.eq_of_same` goes along the trees, and `toJson_same_iff` says that
      nodes are the same if their values are. -/

namespace Offside

/-! ## Values -/

/-- Values that are the same.  Two objects are, if they have the same under
    every key. -/
inductive Json.Same : Json → Json → Prop
  | null : Same .null .null
  | bool (b : Bool) : Same (.bool b) (.bool b)
  | integer (n : Int) : Same (.integer n) (.integer n)
  | real (literal : String) : Same (.real literal) (.real literal)
  | string (s : String) : Same (.string s) (.string s)
  | array {items items' : List Json} :
      List.Forall₂ Same items items' → Same (.array items) (.array items')
  | object {members members' : List (String × Json)} :
      (∀ key, Option.Rel Same (members.lookup key) (members'.lookup key)) →
      Same (.object members) (.object members')

namespace Json

mutual

/-- A value is the same as itself. -/
theorem Same.refl : ∀ j : Json, Same j j
  | .null => .null
  | .bool b => .bool b
  | .integer n => .integer n
  | .real literal => .real literal
  | .string s => .string s
  | .array items => .array (Same.reflItems items)
  | .object members => .object (Same.reflMembers members)

theorem Same.reflItems : ∀ items : List Json, List.Forall₂ Same items items
  | [] => .nil
  | item :: items => .cons (Same.refl item) (Same.reflItems items)

theorem Same.reflMembers : ∀ (members : List (String × Json)) (key : String),
    Option.Rel Same (members.lookup key) (members.lookup key)
  | [], _ => .none
  | (name, value) :: members, key => by
      rw [List.lookup_cons]
      split
      · exact .some (Same.refl value)
      · exact Same.reflMembers members key

end

@[simp] theorem same_nat_iff {m n : Nat} : Same (.nat m) (.nat n) ↔ m = n := by
  constructor
  · intro h
    cases h
    rfl
  · rintro rfl
    exact .refl _

@[simp] theorem same_string_iff {s t : String} : Same (.string s) (.string t) ↔ s = t := by
  constructor
  · intro h
    cases h
    rfl
  · rintro rfl
    exact .refl _

@[simp] theorem same_array_iff {items items' : List Json} :
    Same (.array items) (.array items') ↔ List.Forall₂ Same items items' := by
  constructor
  · intro h
    cases h with
    | array hitems => exact hitems
  · exact .array

theorem same_object_iff {members members' : List (String × Json)} :
    Same (.object members) (.object members') ↔
      ∀ key, Option.Rel Same (members.lookup key) (members'.lookup key) := by
  constructor
  · intro h
    cases h with
    | object hmembers => exact hmembers
  · exact .object

/-- Where single values can be told apart, so can values that may be absent. -/
theorem eq_of_rel_map {α : Type} {f : α → Json} (hf : ∀ x y, Same (f x) (f y) → x = y)
    {a b : Option α} (h : Option.Rel Same (a.map f) (b.map f)) : a = b := by
  cases a with
  | none =>
      cases b with
      | none => rfl
      | some y => exact absurd h Option.not_rel_none_some
  | some x =>
      cases b with
      | none => exact absurd h Option.not_rel_some_none
      | some y => rw [hf x y (Option.rel_some_some.mp h)]

end Json

/-! ## Fields by their keys -/

/-- The members of a block. -/
def Block.members : Block → List (String × Json)
  | .mk comment statements location =>
      commentMember comment
        ++ ("statements", .array (Module.statementsToJson statements)) :: locationMember location

theorem Block.toJson_eq (b : Block) : b.toJson = .object b.members := by
  cases b
  rfl

/-- The members of a program. -/
def Program.members (p : Program) : List (String × Json) :=
  ("statements", .array (Module.statementsToJson p.statements)) :: locationMember p.location

/-- Every field of a declaration has a key of its own, and so has the mark that
    it is a statement. -/
theorem Module.lookup_members (m : Module) :
    m.members.lookup "name" = some (.string m.name) ∧
      m.members.lookup "body" = m.body.map Block.toJson ∧
      m.members.lookup "location" = m.location.map Span.toJson ∧
      m.members.lookup "type" = none := by
  obtain ⟨name, body, location⟩ := m
  cases body <;> cases location <;>
    simp [members, Block.bodyMember, locationMember, Module.name, Module.body, Module.location,
      List.lookup_cons]

/-- Every field of a block has a key of its own. -/
theorem Block.lookup_members (b : Block) :
    b.members.lookup "comment" = b.comment.map Json.string ∧
      b.members.lookup "statements" = some (.array (Module.statementsToJson b.statements)) ∧
      b.members.lookup "location" = b.location.map Span.toJson := by
  obtain ⟨comment, statements, location⟩ := b
  cases comment <;> cases location <;>
    simp [members, commentMember, locationMember, Block.comment, Block.statements, Block.location,
      List.lookup_cons]

/-- Every field of a program has a key of its own. -/
theorem Program.lookup_members (p : Program) :
    p.members.lookup "statements" = some (.array (Module.statementsToJson p.statements)) ∧
      p.members.lookup "location" = p.location.map Span.toJson := by
  obtain ⟨statements, location⟩ := p
  cases location <;> simp [members, locationMember, List.lookup_cons]

/-- The mark of a statement hides no field. -/
theorem Module.lookup_statement (m : Module) {key : String} (h : key ≠ "type") :
    (("type", Json.string "Module") :: m.members).lookup key = m.members.lookup key := by
  rw [List.lookup_cons, beq_false_of_ne h]

/-! ## Equal values -/

open Json (Same)

theorem Span.eq_of_same (s t : Span) (h : Same s.toJson t.toJson) : s = t := by
  have hfields := Json.same_object_iff.mp h
  have hstart := hfields "start_offset"
  have hend := hfields "end_offset"
  have hstartLine := hfields "start_line"
  have hendLine := hfields "end_line"
  have hstartColumn := hfields "start_column"
  have hendColumn := hfields "end_column"
  simp only [List.lookup_cons, Option.rel_some_some, Json.same_nat_iff, String.reduceBEq]
    at hstart hend hstartLine hendLine hstartColumn hendColumn
  cases s
  cases t
  simp_all only

theorem location_eq_of_same {a b : Option Span}
    (h : Option.Rel Same (a.map Span.toJson) (b.map Span.toJson)) : a = b :=
  Json.eq_of_rel_map Span.eq_of_same h

mutual

/-- Declarations with the same members are the same. -/
theorem Module.eq_of_same : ∀ m n : Module,
    (∀ key, Option.Rel Same (m.members.lookup key) (n.members.lookup key)) → m = n
  | .mk name body location, .mk name' body' location', h => by
      obtain ⟨hname, hbody, hlocation, -⟩ := Module.lookup_members (.mk name body location)
      obtain ⟨hname', hbody', hlocation', -⟩ := Module.lookup_members (.mk name' body' location')
      have hnames := h "name"
      have hbodies := h "body"
      have hlocations := h "location"
      rw [hname, hname', Option.rel_some_some, Json.same_string_iff] at hnames
      rw [hbody, hbody'] at hbodies
      rw [hlocation, hlocation'] at hlocations
      rw [Module.mk.injEq]
      exact ⟨hnames, Block.body_eq_of_same body body' hbodies, location_eq_of_same hlocations⟩

/-- Blocks with the same value are the same. -/
theorem Block.eq_of_same : ∀ a b : Block, Same a.toJson b.toJson → a = b
  | .mk comment statements location, .mk comment' statements' location', h => by
      rw [Block.toJson_eq, Block.toJson_eq, Json.same_object_iff] at h
      obtain ⟨hcomment, hstatements, hlocation⟩ :=
        Block.lookup_members (.mk comment statements location)
      obtain ⟨hcomment', hstatements', hlocation'⟩ :=
        Block.lookup_members (.mk comment' statements' location')
      have hcomments := h "comment"
      have hitems := h "statements"
      have hlocations := h "location"
      rw [hcomment, hcomment'] at hcomments
      rw [hstatements, hstatements', Option.rel_some_some, Json.same_array_iff] at hitems
      rw [hlocation, hlocation'] at hlocations
      rw [Block.mk.injEq]
      exact ⟨Json.eq_of_rel_map (fun _ _ => Json.same_string_iff.mp) hcomments,
        Module.statements_eq_of_same statements statements' hitems,
        location_eq_of_same hlocations⟩

/-- A block that is absent has another value than one that is there. -/
theorem Block.body_eq_of_same : ∀ a b : Option Block,
    Option.Rel Same (a.map Block.toJson) (b.map Block.toJson) → a = b
  | none, none, _ => rfl
  | none, some _, h => absurd h Option.not_rel_none_some
  | some _, none, h => absurd h Option.not_rel_some_none
  | some a, some b, h => by rw [Block.eq_of_same a b (Option.rel_some_some.mp h)]

/-- Statements with the same values are the same. -/
theorem Module.statements_eq_of_same : ∀ ms ns : List Module,
    List.Forall₂ Same (Module.statementsToJson ms) (Module.statementsToJson ns) → ms = ns
  | [], [], _ => rfl
  | [], _ :: _, h => nomatch h
  | _ :: _, [], h => nomatch h
  | m :: ms, n :: ns, .cons hfirst hrest => by
      have hmembers := Json.same_object_iff.mp hfirst
      have hm : m = n := Module.eq_of_same m n fun key => by
        by_cases hkey : key = "type"
        · subst hkey
          rw [m.lookup_members.2.2.2, n.lookup_members.2.2.2]
          exact .none
        · have hsame := hmembers key
          rwa [m.lookup_statement hkey, n.lookup_statement hkey] at hsame
      rw [hm, Module.statements_eq_of_same ms ns hrest]

end

/-- Programs with the same value are the same. -/
theorem Program.eq_of_same (p q : Program) (h : Same p.toJson q.toJson) : p = q := by
  have hmembers : ∀ key, Option.Rel Same (p.members.lookup key) (q.members.lookup key) :=
    Json.same_object_iff.mp h
  obtain ⟨hstatements, hlocation⟩ := p.lookup_members
  obtain ⟨hstatements', hlocation'⟩ := q.lookup_members
  have hitems := hmembers "statements"
  have hlocations := hmembers "location"
  rw [hstatements, hstatements', Option.rel_some_some, Json.same_array_iff] at hitems
  rw [hlocation, hlocation'] at hlocations
  cases p
  cases q
  rw [Program.mk.injEq]
  exact ⟨Module.statements_eq_of_same _ _ hitems, location_eq_of_same hlocations⟩

/-- **Serialized trees lose nothing.**  Two programs have the same value if and
    only if they are the same program, and so it is with the declarations and
    the blocks inside them.  So whatever is absent from a node makes another
    value than whatever could stand there, an empty comment and an empty block
    included. -/
theorem toJson_same_iff :
    (∀ p q : Program, Same p.toJson q.toJson ↔ p = q) ∧
      (∀ m n : Module, Same m.toJson n.toJson ↔ m = n) ∧
      ∀ a b : Block, Same a.toJson b.toJson ↔ a = b := by
  refine ⟨fun p q => ⟨p.eq_of_same q, ?_⟩, fun m n => ⟨fun h => ?_, ?_⟩,
    fun a b => ⟨a.eq_of_same b, ?_⟩⟩
  · rintro rfl
    exact .refl _
  · exact m.eq_of_same n (Json.same_object_iff.mp h)
  · rintro rfl
    exact .refl _
  · rintro rfl
    exact .refl _

end Offside

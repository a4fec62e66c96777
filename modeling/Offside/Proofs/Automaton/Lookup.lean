import Offside.Proofs.Automaton.Loading

/-! # Lookups — what a loaded table answers

    A document is sparse and its keys are texts, several of which can stand
    for one column.  The table that it becomes answers for every state and
    symbol, and it can be laid out in arrays without an index that is out of
    range.

    * `ascending_ofJson` says that decoded documents are in the order of
      their keys, so the last cell of a column is that of the last key;
    * `Document.Describes` is what a table says of its document;
    * `Table.dense?` lays a table out, and `exists_dense` says that this
      works and changes no answer;
    * `loading_exact` joins these with the demands on documents. -/

namespace Offside.Automaton

/-- Entries in the order of their keys, each key once. -/
def Ascending {α : Type} (entries : List (String × α)) : Prop :=
  entries.Pairwise fun a b => a.1 < b.1

/-- A table answers what a document says.  Of the cells of a row in one column
    the one with the last key counts, and where there is none is an error. -/
structure Document.Describes (d : Document) (t : Table) : Prop where
  action : ∀ {state symbol : Nat} {row : List (String × Entry)} {key : String} {entry : Entry},
    d.table[state]? = some row → (key, entry) ∈ row → Text.word? key.toList = some symbol →
    (∀ c ∈ row, Text.word? c.1.toList = some symbol → c.1 ≤ key) →
    entry.Spells (t.action state symbol)
  error : ∀ {state symbol : Nat}, (∀ row, d.table[state]? = some row → ∀ c ∈ row,
    Text.word? c.1.toList ≠ some symbol) → t.action state symbol = .error
  outside : ∀ {state symbol : Nat}, d.table.length ≤ state ∨ (∀ id ∈ d.ids, id < symbol) →
    t.action state symbol = .error
  production : ∀ index, t.production index =
    d.productions[index]?.map fun p => ⟨p.1.toNat?, p.2⟩
  terminal : ∀ name, t.terminal name = (d.tokens.lookup name).bind (·.id?)

/-- A table laid out in arrays: the cells state by state, and the names of the
    symbols. -/
structure Dense where
  actions : Array Action
  columns : Nat
  states : Nat
  names : Array (Option String)

/-- Write to an array, unless the index is out of range. -/
def write? {α : Type} (xs : Array α) (write : Nat × α) : Option (Array α) :=
  if h : write.1 < xs.size then some (xs.set write.1 write.2) else none

namespace Table

/-- One more than the greatest id that is declared. -/
def columns (t : Table) : Nat :=
  (Document.declared t.terminals t.nonterminals t.productions).max?.elim 0 (· + 1)

/-- Where the cells of a table are written, in the order of the document. -/
def cellWrites (t : Table) : List (Nat × Action) :=
  t.rows.zipIdx.flatMap fun row => row.1.reverse.map fun x => (row.2 * t.columns + x.1, x.2)

/-- Where the names of symbols are written. -/
def nameWrites (t : Table) : List (Nat × Option String) :=
  (t.terminals ++ t.nonterminals).map fun x => (x.2, some x.1)

/-- The table laid out, if no index is out of range. -/
def dense? (t : Table) : Option Dense := do
  let actions ← t.cellWrites.foldlM write? (Array.replicate (t.rows.length * t.columns) .error)
  let names ← t.nameWrites.foldlM write? (Array.replicate t.columns none)
  return ⟨actions, t.columns, t.rows.length, names⟩

end Table

namespace Dense

/-- The action of a state on a symbol, if no index is out of range. -/
def action? (t : Dense) (state : Nat) (symbol : Symbol) : Option Action :=
  if t.states ≤ state ∨ t.columns ≤ symbol then some .error
  else t.actions[state * t.columns + symbol]?

/-- The name of a symbol. -/
def symbolName (t : Dense) (symbol : Symbol) : Option String := t.names[symbol]?.join

end Dense

/-! ## Keys in order -/

section Keys

variable {α : Type} {key : String} {value : α} {entries : List (String × α)}

theorem mem_insertKey {x : String × α} (h : x ∈ insertKey key value entries) :
    x = (key, value) ∨ x ∈ entries := by
  induction entries with
  | nil => exact .inl (List.mem_singleton.mp h)
  | cons entry entries ih =>
      rw [insertKey] at h
      split at h
      · exact (List.mem_cons.mp h).imp_right id
      · split at h
        · exact (List.mem_cons.mp h).imp_right (List.mem_cons_of_mem _)
        · rcases List.mem_cons.mp h with rfl | h
          · exact .inr (List.mem_cons_self ..)
          · exact (ih h).imp_right (List.mem_cons_of_mem _)

theorem ascending_insertKey (h : Ascending entries) : Ascending (insertKey key value entries) := by
  induction entries with
  | nil => exact List.pairwise_singleton ..
  | cons entry entries ih =>
      obtain ⟨hfirst, hrest⟩ := List.pairwise_cons.mp h
      rw [insertKey]
      split
      next hlt =>
        refine List.pairwise_cons.mpr ⟨?_, h⟩
        exact List.forall_mem_cons.mpr ⟨hlt, fun x hx => lt_trans hlt (hfirst x hx)⟩
      next hge =>
        split
        next heq =>
          subst heq
          exact List.pairwise_cons.mpr ⟨hfirst, hrest⟩
        next hne =>
          refine List.pairwise_cons.mpr ⟨fun x hx => ?_, ih hrest⟩
          rcases mem_insertKey hx with rfl | hx
          · exact lt_of_le_of_ne (not_lt.mp hge) (Ne.symm hne)
          · exact hfirst x hx

theorem ascending_inKeyOrder (entries : List (String × α)) : Ascending (inKeyOrder entries) := by
  have hfold : ∀ (entries sorted : List (String × α)), Ascending sorted → Ascending
      (entries.foldl (fun sorted entry => insertKey entry.1 entry.2 sorted) sorted) := by
    intro entries
    induction entries with
    | nil => exact fun _ h => h
    | cons entry entries ih => exact fun sorted h => ih _ (ascending_insertKey h)
  exact hfold entries [] List.Pairwise.nil

end Keys

theorem ascending_entries {json : Json} {entries : List (String × Entry)}
    (h : entries? json = some entries) : Ascending entries := by
  cases json with
  | object members =>
      obtain ⟨read, -, rfl⟩ := Option.map_eq_some_iff.mp h
      exact ascending_inKeyOrder read
  | _ => cases h

theorem exists_of_mem_mapM {α β : Type} {f : α → Option β} {xs : List α} {ys : List β}
    (h : xs.mapM f = some ys) : ∀ y ∈ ys, ∃ x, f x = some y := by
  induction xs generalizing ys with
  | nil =>
      cases h
      exact nofun
  | cons x xs ih =>
      rw [List.mapM_cons] at h
      obtain ⟨y, hy, h⟩ := Option.bind_eq_some_iff.mp h
      obtain ⟨ys', hys, h⟩ := Option.bind_eq_some_iff.mp h
      cases h
      exact List.forall_mem_cons.mpr ⟨⟨x, hy⟩, ih hys⟩

theorem ascending_ofParts {tokens nonterminals productions table : Json} {d : Document}
    (h : Document.ofParts? tokens nonterminals productions table = some d) :
    ∀ row ∈ d.table, Ascending row := by
  rw [Document.ofParts?] at h
  split at h
  next hrows =>
    cases h
    cases table with
    | array items =>
        intro row hrow
        obtain ⟨json, hjson⟩ := exists_of_mem_mapM hrows row hrow
        exact ascending_entries hjson
    | _ => cases hrows
  next => cases h

/-- A document is decoded from its parts, whichever way it is written. -/
theorem exists_ofParts {json : Json} {d : Document} (h : Document.ofJson? json = some d) :
    ∃ tokens nonterminals productions table,
      Document.ofParts? tokens nonterminals productions table = some d := by
  unfold Document.ofJson? at h
  split at h
  next => exact ⟨_, _, _, _, h⟩
  next =>
    split at h
    next => exact ⟨_, _, _, _, h⟩
    next => cases h
  next => cases h

/-- The rows of a decoded document are in the order of their keys. -/
theorem ascending_ofJson {json : Json} {d : Document} (h : Document.ofJson? json = some d) :
    ∀ row ∈ d.table, Ascending row := by
  obtain ⟨_, _, _, _, hparts⟩ := exists_ofParts h
  exact ascending_ofParts hparts

/-- The tokens of a decoded document are in the order of their names. -/
theorem ascending_tokens {json : Json} {d : Document} (h : Document.ofJson? json = some d) :
    Ascending d.tokens := by
  obtain ⟨_, _, _, _, hparts⟩ := exists_ofParts h
  rw [Document.ofParts?] at hparts
  split at hparts
  next htokens _ _ _ =>
    cases hparts
    exact ascending_entries htokens
  next => cases hparts

/-! ## Cells -/

section Cells

variable {d : Document} {t : Table} {row : List (String × Entry)} {actions : List (Symbol × Action)}
  {symbol : Symbol}

theorem Document.Lists.lookup_none (h : Document.Lists row actions)
    (hnone : ∀ c ∈ row, Text.word? c.1.toList ≠ some symbol) :
    actions.reverse.lookup symbol = none := by
  rw [List.lookup_eq_none_iff]
  intro x hx
  rw [List.mem_reverse] at hx
  induction h with
  | nil => cases hx
  | @cons c y row actions hy _ ih =>
      obtain ⟨hfirst, hrest⟩ := List.forall_mem_cons.mp hnone
      rcases List.mem_cons.mp hx with rfl | hx
      · rw [bne_iff_ne]
        rintro rfl
        exact hfirst hy.1
      · exact ih hrest hx

theorem Document.Lists.lookup_last (h : Document.Lists row actions) (hrow : Ascending row)
    {key : String} {entry : Entry} (hmem : (key, entry) ∈ row)
    (hkey : Text.word? key.toList = some symbol)
    (hlast : ∀ c ∈ row, Text.word? c.1.toList = some symbol → c.1 ≤ key) :
    ∃ a, actions.reverse.lookup symbol = some a ∧ entry.Spells a := by
  induction h with
  | nil => cases hmem
  | @cons c y row actions hy hrest ih =>
      obtain ⟨hfirst, hrow⟩ := List.pairwise_cons.mp hrow
      have hlater := (List.forall_mem_cons.mp hlast).2
      rw [List.reverse_cons, List.lookup_append]
      rcases List.mem_cons.mp hmem with rfl | hmem
      · -- keys behind the last one are greater, so they are those of other columns
        have hnone : actions.reverse.lookup symbol = none := by
          refine Document.Lists.lookup_none hrest fun c hc hcolumn => ?_
          exact not_lt.mpr (hlater c hc hcolumn) (hfirst c hc)
        obtain rfl : symbol = y.1 := Option.some.inj (hkey.symm.trans hy.1)
        refine ⟨y.2, ?_, hy.2⟩
        rw [hnone, Option.none_or, List.lookup_cons, beq_self_eq_true]
      · obtain ⟨a, ha, hspells⟩ := ih hrow hmem hlater
        exact ⟨a, by rw [ha, Option.some_or], hspells⟩

end Cells

/-! ## Lookups -/

namespace Document

variable {d : Document} {t : Table}

/-- Where a row has no cell in a column is an error. -/
theorem error_of_gives (h : d.Gives t) {state symbol : Nat}
    (hnone : ∀ row, d.table[state]? = some row → ∀ c ∈ row,
      Text.word? c.1.toList ≠ some symbol) : t.action state symbol = .error := by
  have hrel := forall₂_getElem? h.rows state
  rw [Table.action]
  generalize t.rows[state]? = actions? at hrel ⊢
  generalize hrow : d.table[state]? = row? at hrel
  cases hrel with
  | none => rfl
  | some hlists =>
      have hlookup := Lists.lookup_none hlists (hnone _ hrow)
      rw [List.reverse_reverse] at hlookup
      dsimp only
      rw [hlookup]
      rfl

theorem describes_of_gives (h : d.Gives t) (hsound : d.Sound)
    (hkeys : ∀ row ∈ d.table, Ascending row) : d.Describes t where
  action := by
    intro state symbol row key entry hrow hmem hkey hlast
    have hrel := forall₂_getElem? h.rows state
    rw [hrow] at hrel
    rw [Table.action]
    generalize t.rows[state]? = actions? at hrel ⊢
    cases hrel with
    | some hlists =>
        obtain ⟨a, ha, hspells⟩ := Lists.lookup_last hlists
          (hkeys row (List.mem_of_getElem? hrow)) hmem hkey hlast
        rw [List.reverse_reverse] at ha
        dsimp only
        rw [ha]
        exact hspells
  error := error_of_gives h
  outside := by
    rintro state symbol (hstate | hsymbol)
    · refine error_of_gives h fun row hrow => ?_
      rw [List.getElem?_eq_none hstate] at hrow
      cases hrow
    · refine error_of_gives h fun row hrow c hc hkey => ?_
      obtain ⟨column, hcolumn, hkey'⟩ := hsound.column row (List.mem_of_getElem? hrow) c hc
      obtain rfl := Option.some.inj (hkey.symm.trans hkey')
      exact Nat.lt_irrefl _ (hsymbol _ hcolumn)
  production := by
    intro index
    rw [Table.production, h.productions, List.getElem?_map]
  terminal := h.terminals.lookup

end Document

/-! ## Arrays -/

/-- Writes inside an array come to one in which the last write to an index
    counts. -/
theorem exists_foldlM_write {α : Type} {writes : List (Nat × α)} {xs : Array α}
    (h : ∀ w ∈ writes, w.1 < xs.size) :
    ∃ ys, writes.foldlM write? xs = some ys ∧ ys.size = xs.size ∧
      ∀ i, i < xs.size → ys[i]? = (writes.reverse.lookup i).or xs[i]? := by
  induction writes generalizing xs with
  | nil => exact ⟨xs, rfl, rfl, fun i _ => rfl⟩
  | cons w writes ih =>
      obtain ⟨index, a⟩ := w
      obtain ⟨hindex, hrest⟩ := List.forall_mem_cons.mp h
      have hsize : (xs.set index a hindex).size = xs.size := Array.size_set ..
      have hrest' : ∀ w ∈ writes, w.1 < (xs.set index a hindex).size := by rwa [hsize]
      obtain ⟨ys, hys, hsame, hlookup⟩ := ih hrest'
      refine ⟨ys, ?_, hsame.trans hsize, fun i hi => ?_⟩
      · rw [List.foldlM_cons, write?, dif_pos hindex]
        exact hys
      · rw [hlookup i (by rwa [hsize]), List.reverse_cons, List.lookup_append, Option.or_assoc,
          Array.getElem?_set]
        congr 1
        by_cases hi' : index = i
        · subst hi'
          rw [if_pos rfl, List.lookup_cons, beq_self_eq_true, Option.some_or]
        · rw [if_neg hi', List.lookup_cons, beq_false_of_ne (Ne.symm hi'), List.lookup_nil,
            Option.none_or]

/-- A cell of a row and a column stands inside the array. -/
theorem index_lt {states columns state symbol : Nat} (h : state < states)
    (h' : symbol < columns) : state * columns + symbol < states * columns :=
  calc state * columns + symbol < state * columns + columns := Nat.add_lt_add_left h' _
    _ = (state + 1) * columns := (Nat.succ_mul ..).symm
    _ ≤ states * columns := Nat.mul_le_mul_right _ h

/-- An index tells its row and its column. -/
theorem index_inj {columns state state' symbol symbol' : Nat} (h : symbol < columns)
    (h' : symbol' < columns)
    (heq : state * columns + symbol = state' * columns + symbol') :
    state = state' ∧ symbol = symbol' := by
  have hstate : state = state' := by
    have hdiv := congrArg (· / columns) heq
    simp only [Nat.mul_comm _ columns, Nat.mul_add_div (Nat.zero_lt_of_lt h),
      Nat.div_eq_of_lt h, Nat.div_eq_of_lt h', Nat.add_zero] at hdiv
    exact hdiv
  subst hstate
  exact ⟨rfl, Nat.add_left_cancel heq⟩

section Layout

variable {d : Document} {t : Table} {columns : Nat} {symbol : Symbol}

/-- Everything that is declared has a column. -/
theorem Document.Gives.lt_columns (h : d.Gives t) {id : Symbol} (hid : id ∈ d.ids) :
    id < t.columns := by
  rw [← mem_declared h.terminals h.nonterminals h.productions] at hid
  rw [Table.columns]
  cases hmax : (declared t.terminals t.nonterminals t.productions).max? with
  | none =>
      rw [List.max?_eq_none_iff.mp hmax] at hid
      cases hid
  | some greatest => exact Nat.lt_succ_of_le ((List.max?_eq_some_iff.mp hmax).2 id hid)

theorem lookup_rowWrites (hsymbol : symbol < columns) {row : Row}
    (hrow : ∀ x ∈ row, x.1 < columns) (state state' : Nat) :
    (row.map fun x => (state' * columns + x.1, x.2)).lookup (state * columns + symbol) =
      if state = state' then row.lookup symbol else none := by
  induction row with
  | nil => exact (ite_self _).symm
  | cons x row ih =>
      obtain ⟨hx, hrest⟩ := List.forall_mem_cons.mp hrow
      rw [List.map_cons, List.lookup_cons, ih hrest, List.lookup_cons]
      by_cases hsame : state = state' ∧ symbol = x.1
      · obtain ⟨rfl, rfl⟩ := hsame
        simp
      · have hindex : state * columns + symbol ≠ state' * columns + x.1 :=
          fun heq => hsame (index_inj hsymbol hx heq)
        rw [beq_false_of_ne hindex]
        by_cases hstate : state = state'
        · have hne : symbol ≠ x.1 := fun heq => hsame ⟨hstate, heq⟩
          rw [beq_false_of_ne hne]
        · rw [if_neg hstate, if_neg hstate]

theorem lookup_cellWrites (hsymbol : symbol < columns) {rows : List Row}
    (hrows : ∀ row ∈ rows, ∀ x ∈ row, x.1 < columns) (state k : Nat) :
    ((rows.zipIdx k).flatMap fun row =>
      row.1.reverse.map fun x => (row.2 * columns + x.1, x.2)).reverse.lookup
        (state * columns + symbol) =
      if k ≤ state then rows[state - k]?.bind (·.lookup symbol) else none := by
  induction rows generalizing k with
  | nil => simp
  | cons row rows ih =>
      obtain ⟨hrow, hrest⟩ := List.forall_mem_cons.mp hrows
      rw [List.zipIdx_cons, List.flatMap_cons, List.reverse_append, List.lookup_append,
        ih hrest (k + 1), ← List.map_reverse, List.reverse_reverse,
        lookup_rowWrites hsymbol hrow]
      rcases Nat.lt_trichotomy state k with hlt | rfl | hgt
      · rw [if_neg (by omega), if_neg (by omega), if_neg (by omega), Option.or_none]
      · rw [if_neg (by omega), if_pos rfl, if_pos (Nat.le_refl _), Option.none_or, Nat.sub_self]
        rfl
      · obtain ⟨n, rfl⟩ := Nat.exists_eq_add_of_lt hgt
        rw [if_pos (by omega), if_neg (by omega), if_pos (by omega), Option.or_none]
        have hindex : k + n + 1 - k = (k + n + 1 - (k + 1)) + 1 := by omega
        rw [hindex, List.getElem?_cons_succ]

/-- A lookup finds the last item for a symbol. -/
theorem lookup_names (names : List (String × Symbol)) (symbol : Symbol) :
    ((names.map fun x => (x.2, some x.1)).reverse.lookup symbol).join =
      (names.reverse.find? (·.2 == symbol)).map Prod.fst := by
  rw [← List.map_reverse]
  generalize names.reverse = names
  induction names with
  | nil => rfl
  | cons x names ih =>
      rw [List.map_cons, List.lookup_cons, List.find?_cons]
      by_cases hx : symbol = x.2
      · subst hx
        simp
      · rw [beq_false_of_ne hx, beq_false_of_ne (Ne.symm hx)]
        exact ih

/-- All symbols of a table are declared. -/
theorem Document.Gives.mem_ids (h : d.Gives t) :
    ∀ x ∈ t.terminals ++ t.nonterminals, x.2 ∈ d.ids := by
  have hone : ∀ {entries : List (String × Entry)} {named : List (String × Symbol)},
      Named entries named → ∀ x ∈ named, ∃ e ∈ entries, e.2.id? = some x.2 := by
    intro entries named hnamed x hx
    obtain ⟨e, he, -, hid⟩ := exists_of_forall₂ hnamed x hx
    exact ⟨e, he, hid⟩
  intro x hx
  rw [ids, List.mem_toFinset, List.mem_append, List.mem_filterMap]
  left
  rcases List.mem_append.mp hx with hx | hx
  · obtain ⟨e, he, hid⟩ := hone h.terminals x hx
    exact ⟨e, List.mem_append_left _ he, hid⟩
  · obtain ⟨e, he, hid⟩ := hone h.nonterminals x hx
    exact ⟨e, List.mem_append_right _ he, hid⟩

/-- A cell of a table is written in its document. -/
theorem Document.Gives.exists_written (h : d.Gives t) {row : Row} (hrow : row ∈ t.rows)
    {x : Symbol × Action} (hx : x ∈ row) : ∃ written ∈ d.table, ∃ c ∈ written,
      Text.word? c.1.toList = some x.1 ∧ c.2.Spells x.2 := by
  obtain ⟨written, hwritten, hlists⟩ := exists_of_forall₂ h.rows row hrow
  obtain ⟨c, hc, hkey, hspells⟩ := exists_of_forall₂ hlists x (List.mem_reverse.mpr hx)
  exact ⟨written, hwritten, c, hc, hkey, hspells⟩

/-- All cells of a table are in columns that are declared. -/
theorem Document.Gives.column_mem_ids (h : d.Gives t) (hsound : d.Sound) :
    ∀ row ∈ t.rows, ∀ x ∈ row, x.1 ∈ d.ids := by
  intro row hrow x hx
  obtain ⟨written, hwritten, c, hc, hkey, -⟩ := h.exists_written hrow hx
  obtain ⟨column, hcolumn, hkey'⟩ := hsound.column written hwritten c hc
  obtain rfl := Option.some.inj (hkey.symm.trans hkey')
  exact hcolumn

/-- No cell is written outside its array. -/
theorem cellWrites_lt (hcolumn : ∀ row ∈ t.rows, ∀ x ∈ row, x.1 < t.columns) :
    ∀ w ∈ t.cellWrites, w.1 < t.rows.length * t.columns := by
  intro w hw
  obtain ⟨⟨row, state⟩, hrow, hw⟩ := List.mem_flatMap.mp hw
  obtain ⟨x, hx, rfl⟩ := List.mem_map.mp hw
  have hstate := List.mem_zipIdx_iff_getElem?.mp hrow
  exact index_lt (List.getElem?_eq_some_iff.mp hstate).1
    (hcolumn row (List.mem_of_getElem? hstate) x (List.mem_reverse.mp hx))

section Arrays

variable {actions : Array Action} {names : Array (Option String)}

/-- Arrays that the cells have been written to answer as the table does. -/
theorem dense_action (hcolumn : ∀ row ∈ t.rows, ∀ x ∈ row, x.1 < t.columns)
    (hcells : ∀ i < t.rows.length * t.columns, actions[i]? =
      (t.cellWrites.reverse.lookup i).or (some .error)) (state : Nat) (symbol : Symbol) :
    Dense.action? ⟨actions, t.columns, t.rows.length, names⟩ state symbol =
      some (t.action state symbol) := by
  rw [Dense.action?]
  dsimp only
  by_cases hout : t.rows.length ≤ state ∨ t.columns ≤ symbol
  · rw [if_pos hout, Table.action]
    rcases hout with hstate | hsymbol
    · rw [List.getElem?_eq_none hstate]
    · split
      next => rfl
      next row hrow =>
        have hnone : row.lookup symbol = none := by
          rw [List.lookup_eq_none_iff]
          intro x hx
          have hlt := hcolumn row (List.mem_of_getElem? hrow) x hx
          rw [bne_iff_ne]
          exact Nat.ne_of_gt (Nat.lt_of_lt_of_le hlt hsymbol)
        rw [hnone]
        rfl
  · rw [if_neg hout]
    obtain ⟨hstate, hsymbol⟩ := not_or.mp hout
    rw [Nat.not_le] at hstate hsymbol
    rw [hcells _ (index_lt hstate hsymbol), Table.cellWrites,
      lookup_cellWrites hsymbol hcolumn, if_pos (Nat.zero_le _), Nat.sub_zero, Table.action]
    cases t.rows[state]? with
    | none => rfl
    | some row =>
        show (row.lookup symbol).or (some .error) = some ((row.lookup symbol).getD .error)
        cases row.lookup symbol <;> rfl

/-- Arrays that the names have been written to answer as the table does. -/
theorem dense_symbolName (hname : ∀ x ∈ t.terminals ++ t.nonterminals, x.2 < t.columns)
    (hsize : names.size = t.columns) (hnames : ∀ i < t.columns, names[i]? =
      (t.nameWrites.reverse.lookup i).or (some none)) (symbol : Symbol) :
    Dense.symbolName ⟨actions, t.columns, t.rows.length, names⟩ symbol =
      t.symbolName symbol := by
  rw [Dense.symbolName, Table.symbolName, ← lookup_names]
  show names[symbol]?.join = (t.nameWrites.reverse.lookup symbol).join
  by_cases hsymbol : symbol < t.columns
  · rw [hnames symbol hsymbol]
    cases t.nameWrites.reverse.lookup symbol <;> rfl
  · have hnone : t.nameWrites.reverse.lookup symbol = none := by
      rw [List.lookup_eq_none_iff]
      intro w hw
      obtain ⟨x, hx, rfl⟩ := List.mem_map.mp (List.mem_reverse.mp hw)
      rw [bne_iff_ne]
      exact Nat.ne_of_gt (Nat.lt_of_lt_of_le (hname x hx) (Nat.not_lt.mp hsymbol))
    rw [hnone, Array.getElem?_eq_none (hsize ▸ Nat.not_lt.mp hsymbol)]

end Arrays

/-- **A table can be laid out.**  No index is out of range, and what is looked
    up in the arrays is what the table says. -/
theorem exists_dense (h : d.Gives t) (hsound : d.Sound) :
    ∃ dense, t.dense? = some dense ∧ ∀ state symbol,
      dense.action? state symbol = some (t.action state symbol) ∧
        dense.symbolName symbol = t.symbolName symbol := by
  have hcolumn : ∀ row ∈ t.rows, ∀ x ∈ row, x.1 < t.columns := fun row hrow x hx =>
    h.lt_columns (h.column_mem_ids hsound row hrow x hx)
  have hname : ∀ x ∈ t.terminals ++ t.nonterminals, x.2 < t.columns := fun x hx =>
    h.lt_columns (h.mem_ids x hx)
  have hcellsIn : ∀ w ∈ t.cellWrites,
      w.1 < (Array.replicate (t.rows.length * t.columns) Action.error).size := by
    rw [Array.size_replicate]
    exact cellWrites_lt hcolumn
  have hnamesIn : ∀ w ∈ t.nameWrites,
      w.1 < (Array.replicate t.columns (none : Option String)).size := by
    rw [Array.size_replicate]
    exact List.forall_mem_map.mpr hname
  obtain ⟨actions, hactions, -, hcells⟩ := exists_foldlM_write hcellsIn
  obtain ⟨names, hnames, hsize, hsymbols⟩ := exists_foldlM_write hnamesIn
  rw [Array.size_replicate] at hcells hsize hsymbols
  refine ⟨⟨actions, t.columns, t.rows.length, names⟩, ?_, fun state symbol => ⟨?_, ?_⟩⟩
  · rw [Table.dense?, hactions, hnames]
    rfl
  · refine dense_action hcolumn (fun i hi => ?_) state symbol
    rw [hcells i hi, Array.getElem?_replicate, if_pos hi]
  · refine dense_symbolName hname hsize (fun i hi => ?_) symbol
    rw [hsymbols i hi, Array.getElem?_replicate, if_pos hi]

end Layout

/-! ## Loading -/

/-- **Loading is exact.**  A decoded document is a table exactly if it is sound.
    Then the table answers what the document says, for every state and every
    symbol, and it can be laid out in arrays with no index out of range.  The
    fault of a document that is not sound is that of the first demand that it
    breaks. -/
theorem loading_exact {json : Json} {d : Document} (hd : Document.ofJson? json = some d) :
    ((∃ t, d.toTable = .ok t) ↔ d.Sound) ∧
    (∀ t, d.toTable = .ok t → d.Describes t ∧
      ∃ dense, t.dense? = some dense ∧ ∀ state symbol,
        dense.action? state symbol = some (t.action state symbol) ∧
          dense.symbolName symbol = t.symbolName symbol) ∧
    ∀ fault, d.toTable = .error fault ↔ FirstFault d.Breaks d.demands fault := by
  have hsound : (∃ t, d.toTable = .ok t) ↔ d.Sound := by
    rw [d.checks_toTable.ok_iff, Document.sound_iff]
  refine ⟨hsound, fun t ht => ?_, d.checks_toTable⟩
  have hgives := Document.gives_toTable ht
  exact ⟨Document.describes_of_gives hgives (hsound.mp ⟨t, ht⟩) (ascending_ofJson hd),
    exists_dense hgives (hsound.mp ⟨t, ht⟩)⟩

/-- A document in which two keys of a row stand for one column. -/
def aliasedJson : Json := .object [
  ("tokens", .object [("x", .string "1"), ("$", .integer 2)]),
  ("productions", .array [.array [.integer (-1), .integer 1], .array [.integer 0, .integer 1]]),
  ("table", .array [
    .object [("01", .string "r1"), ("+1", .string "s2"), ("0", .integer 1)],
    .object [("2", .string "acc")], .object [("2", .string "r1")]])]

/-- The same with a token whose id is too great. -/
def sparseJson : Json := .object [
  ("tokens", .object [("x", .integer 9), ("$", .integer 8)]),
  ("productions", .array []), ("table", .array [.object [("7", .string "acc")]])]

theorem loading_exact_aliased :
    (∃ d t, Document.ofJson? aliasedJson = some d ∧ d.toTable = .ok t ∧ d.Sound ∧
      d.Describes t ∧ t.action 0 1 = .reduce 1 ∧ t.action 0 3 = .error) ∧
    ∃ d, Document.ofJson? sparseJson = some d ∧
      FirstFault d.Breaks d.demands (.invalidSymbol "8") := by
  obtain ⟨d, hd, t, ht, haction⟩ : ∃ d, Document.ofJson? aliasedJson = some d ∧
      ∃ t, d.toTable = .ok t ∧ t.action 0 1 = .reduce 1 ∧ t.action 0 3 = .error :=
    ⟨_, rfl, _, rfl, by decide⟩
  obtain ⟨d', hd', hfault⟩ : ∃ d, Document.ofJson? sparseJson = some d ∧
      d.toTable = .error (.invalidSymbol "8") :=
    ⟨_, rfl, rfl⟩
  have h := loading_exact hd
  exact ⟨⟨d, t, hd, ht, h.1.mp ⟨t, ht⟩, (h.2.1 t ht).1, haction⟩,
    d', hd', ((loading_exact hd').2.2 _).mp hfault⟩

end Offside.Automaton

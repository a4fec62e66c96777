import Offside.Proofs.Language.Lines
import Offside.Proofs.Language.Moves
import Offside.Proofs.Language.Tokens
import Offside.Proofs.Lexer.Places

/-! # Margins — how far the lines are indented that keywords stand on

    The indentation of a lexer is the width of the line that was read last,
    unless deeper lines have come since.  Such lines come to no tokens, and a
    token on one of them comes after white space only.

    * `StandsAt` is said of the lines of a source: one is indented so far, or
      it is deeper and comes behind white space on such a line;
    * `Lays` lists what a match comes to, for the lines around it;
    * `Laid` is what a lexer knows of all that it has read, and
      `keyword_stands` is what this says of every keyword. -/

namespace Offside

open Automaton

namespace Indentation

/-! ## Widths of the innermost block -/

variable {i j : Indentation}

theorem current_openBlock {width line : Nat} (h : i.openBlock width line = .ok j) :
    j.current = width := by
  simp only [openBlock] at h
  split at h
  next => cases h
  next =>
    split at h
    next => cases h; rfl
    next =>
      split at h
      next => cases h
      next =>
        split at h
        next => cases h
        next => cases h; rfl

/-- A line that is not deeper is as wide as the blocks say that stay open. -/
theorem current_lineBreak {width line : Nat} {r : LineBreak}
    (h : i.lineBreak width line = .ok (r, j)) :
    match r with
    | .deeper => 0 < i.current ∧ i.current < width
    | _ => j.current = width := by
  simp only [lineBreak] at h
  split at h
  next hsame => cases h; exact hsame.symm
  next hsame =>
    split at h
    next =>
      split at h
      next => cases h
      next =>
        split at h
        next => cases h; rfl
        next => cases h
    next hdeeper =>
      split at h
      next => cases h
      next hopen =>
        cases h
        exact ⟨Nat.pos_of_ne_zero hopen, by omega⟩

/-- The width of the innermost block is that of all blocks together. -/
theorem StandsFor.current_eq {b : OpenBlocks} (h : i.StandsFor b) {u : Nat}
    (hunit : i.unit = none ∨ i.unit = some u) : i.current = i.depth * u := by
  cases h with
  | fresh => exact (Nat.zero_mul u).symm
  | @blocks depth unit hpos =>
      obtain rfl : unit = u := by simpa using hunit
      exact congrArg (· * unit) (Nat.mul_div_cancel depth hpos).symm

end Indentation

namespace Language

/-! ## Margins -/

/-- How far a line is indented by spaces, in whole levels of four. -/
def marginOf (line : List Char) : Nat := (line.takeWhile (· = ' ')).length / 4 * 4

theorem marginOf_eq (line : List Char) : marginOf line = 4 * levels line := by
  induction line using levels.induct with
  | case1 cs ih =>
      rw [marginOf] at ih ⊢
      have hlength : ((' ' :: ' ' :: ' ' :: ' ' :: cs).takeWhile (· = ' ')).length =
          (cs.takeWhile (· = ' ')).length + 4 := rfl
      rw [hlength, levels]
      omega
  | case2 line hline =>
      have hnot : ¬ fourSpaces <+: line := by
        rintro ⟨cs, rfl⟩
        exact hline cs rfl
      have hshort : (line.takeWhile (· = ' ')).length < 4 := by
        by_contra hlong
        refine hnot (List.IsPrefix.trans ?_ (List.takeWhile_prefix (· = ' ')))
        have hspaces : line.takeWhile (· = ' ') =
            List.replicate (line.takeWhile (· = ' ')).length ' ' :=
          List.eq_replicate_of_mem fun c hc => of_decide_eq_true
            (List.mem_takeWhile_imp (p := (· = ' ')) hc)
        obtain ⟨m, hm⟩ := Nat.exists_eq_add_of_le (Nat.not_lt.mp hlong)
        rw [hspaces, hm, List.replicate_add]
        exact List.prefix_append fourSpaces _
      rw [levels_eq_zero hnot, marginOf, Nat.div_eq_of_lt hshort]

/-- A line is indented so far; or it is deeper, though not outside of all
    blocks, and behind a line of white space of which this holds. -/
inductive StandsAt (ls : List (List Char)) (width : Nat) : Nat → Prop
  | exact {n : Nat} {line : List Char} : ls[n]? = some line → marginOf line = width →
      StandsAt ls width n
  | deeper {n : Nat} {above line : List Char} : 0 < width → StandsAt ls width n →
      ls[n]? = some above → (∀ c ∈ above, isBlank c = true) → ls[n + 1]? = some line →
      width < marginOf line → StandsAt ls width (n + 1)

/-- A text ends in white space on a line that stands so far. -/
def EndsOnLine (source front : List Char) (width : Nat) : Prop :=
  ∃ base blanks, front = base ++ '\n' :: blanks ∧ (∀ c ∈ blanks, isBlank c = true) ∧
    StandsAt (Text.lines source) width (base.count '\n' + 1)

theorem isBlank_of_mem_indentation {n : Nat} {c : Char} (h : c ∈ indentation n) :
    isBlank c = true := by
  rw [List.eq_of_mem_replicate h]
  decide

theorem levels_takeWhile (cs : List Char) : levels (cs.takeWhile (· ≠ '\n')) = levels cs := by
  have hcut := List.takeWhile_append_dropWhile (p := (· ≠ '\n')) (l := cs)
  cases hrest : cs.dropWhile (· ≠ '\n') with
  | nil =>
      rw [hrest, List.append_nil] at hcut
      rw [hcut]
  | cons c rest =>
      have hc : c = '\n' := by
        have hhead := List.head?_dropWhile_not (· ≠ '\n') cs
        rw [hrest] at hhead
        simpa using hhead
      rw [hrest, hc] at hcut
      rw [← hcut, levels_newline, hcut]

section

variable {source front text rest : List Char} {n width : Nat}

/-- The line behind a newline, with the levels that it is indented by. -/
theorem exists_line (hsource : source = front ++ '\n' :: indentation n ++ rest)
    (hlevels : levels (indentation n ++ rest) = n) : ∃ line,
      (Text.lines source)[front.count '\n' + 1]? = some line ∧ marginOf line = 4 * n := by
  refine ⟨(indentation n ++ rest).takeWhile (· ≠ '\n'), ?_, ?_⟩
  · rw [hsource, List.append_assoc, List.cons_append]
    exact Text.getElem?_lines front (indentation n ++ rest)
  · rw [marginOf_eq, levels_takeWhile, hlevels]

/-- A line that starts stands as far as it is indented. -/
theorem endsOnLine_start (hsource : source = front ++ '\n' :: indentation n ++ rest)
    (hlevels : levels (indentation n ++ rest) = n) :
    EndsOnLine source (front ++ '\n' :: indentation n) (4 * n) := by
  obtain ⟨line, hline, hmargin⟩ := exists_line hsource hlevels
  exact ⟨front, indentation n, rfl, fun _ => isBlank_of_mem_indentation, .exact hline hmargin⟩

namespace EndsOnLine

theorem blank (h : EndsOnLine source front width) (htext : ∀ c ∈ text, isBlank c = true) :
    EndsOnLine source (front ++ text) width := by
  obtain ⟨base, blanks, rfl, hblanks, hstands⟩ := h
  exact ⟨base, blanks ++ text, by rw [List.append_assoc, List.cons_append],
    List.forall_mem_append.mpr ⟨hblanks, htext⟩, hstands⟩

/-- A deeper line comes behind white space on the line before. -/
theorem deeper (h : EndsOnLine source front width) (hwidth : 0 < width)
    (hsource : source = front ++ '\n' :: indentation n ++ rest)
    (hlevels : levels (indentation n ++ rest) = n) (hdeeper : width < 4 * n) :
    EndsOnLine source (front ++ '\n' :: indentation n) width := by
  obtain ⟨line, hline, hmargin⟩ := exists_line hsource hlevels
  obtain ⟨base, blanks, rfl, hblanks, hstands⟩ := h
  refine ⟨base ++ '\n' :: blanks, indentation n, rfl, fun _ => isBlank_of_mem_indentation, ?_⟩
  have hnone : blanks.count '\n' = 0 :=
    List.count_eq_zero.mpr fun hmem => absurd (hblanks _ hmem) (by decide)
  have hcount : (base ++ '\n' :: blanks).count '\n' = base.count '\n' + 1 := by
    rw [List.count_append, List.count_cons_self, hnone]
  have habove : (Text.lines source)[base.count '\n' + 1]? = some blanks := by
    have hall := Text.getElem?_lines base (blanks ++ '\n' :: (indentation n ++ rest))
    have hplain : ∀ c ∈ blanks, decide (c ≠ '\n') = true := fun c hc =>
      decide_eq_true fun hnewline => absurd (hnewline ▸ hblanks c hc) (by decide)
    rw [List.takeWhile_append_of_pos hplain, List.takeWhile_cons_of_neg (by decide),
      List.append_nil] at hall
    rw [hsource, List.append_assoc, List.append_assoc, List.cons_append, List.cons_append]
    exact hall
  rw [hcount] at hline ⊢
  exact .deeper hwidth hstands habove hblanks hline (hmargin ▸ hdeeper)

/-- The number of such a line. -/
theorem exists_stands (h : EndsOnLine source front width) :
    StandsAt (Text.lines source) width (front.count '\n') := by
  obtain ⟨base, blanks, rfl, hblanks, hstands⟩ := h
  have hnone : blanks.count '\n' = 0 :=
    List.count_eq_zero.mpr fun hmem => absurd (hblanks _ hmem) (by decide)
  rw [List.count_append, List.count_cons_self, hnone]
  exact hstands

end EndsOnLine

end

end Language

/-- A token that comes first on its line. -/
def Token.StartsLine (t : Token) : Prop :=
  t.kind = Language.Kind.indent ∨ t.kind = Language.Kind.newline

namespace Language

/-! ## Matches and lines -/

/-- What a match that covers a span comes to: nothing for white space and for
    deeper lines, last the start of a line, a keyword, or something else. -/
inductive Lays (i : Indentation) (text rest : List Char) (span : Span) :
    List Token → Indentation → Prop
  | blank : (∀ c ∈ text, isBlank c = true) → Lays i text rest span [] i
  | deeper {n : Nat} : text = '\n' :: indentation n → levels (indentation n ++ rest) = n →
      0 < i.current → i.current < 4 * n → Lays i text rest span [] i
  | line {front : List Char} {n : Nat} {j : Indentation} {ends : List Token} {last : Token} :
      text = front ++ '\n' :: indentation n → levels (indentation n ++ rest) = n →
      j.current = 4 * n → (∀ t ∈ ends ++ [last], t.kind ≠ Kind.keyword) →
      Lays i text rest span (ends ++ [last]) j
  | keyword {k : Token} : k.kind = Kind.keyword → k.span = span → Lays i text rest span [k] i
  | other {j : Indentation} {ends : List Token} {last : Token} : ¬ last.StartsLine →
      (∀ t ∈ ends ++ [last], t.kind ≠ Kind.keyword) → Lays i text rest span (ends ++ [last]) j

section

variable {marker : String} {i j : Indentation} {x : Lexeme} {rest : List Char} {span : Span}
  {tokens : List Token}

/-- No keyword comes of a match whose action does not ask for one. -/
theorem kind_ne_keyword (haction : x.action.kind? ≠ some Kind.keyword)
    (h : Lexer.perform (lexiconFor marker) i x.action x.text span x.width = .ok ⟨tokens, j⟩) :
    ∀ t ∈ tokens, t.kind ≠ Kind.keyword := by
  intro t ht hkind
  refine haction ?_
  rw [← hkind]
  exact kind_of_perform h ht (by rw [hkind]; decide)

/-- What is selected and performed is listed. -/
theorem lays_of_scanner (hscan : scanner marker.toList (x.text ++ rest) = some x)
    (h : Lexer.perform (lexiconFor marker) i x.action x.text span x.width = .ok ⟨tokens, j⟩) :
    Lays i x.text rest span tokens j := by
  have hkeyword := kind_ne_keyword (h := h)
  obtain ⟨action, text, width⟩ := x
  have hformed := scanner_formed hscan
  cases hformed with
  | keyword =>
      cases h
      exact .keyword rfl rfl
  | remark | name | word =>
      cases h
      show Lays _ _ _ _ ([] ++ [_]) _
      exact .other (by simp [Token.StartsLine]) (hkeyword (by simp [RuleAction.kind?]))
  | marker =>
      have houtcome := Lexer.perform_outcome h
      generalize hscanned : Lexer.Scanned.mk tokens j = scanned at houtcome
      cases houtcome with
      | single _ _ hsingle => cases hsingle
      | closing =>
          cases hscanned
          exact .other (by simp [Token.StartsLine]) (hkeyword (by simp [RuleAction.kind?]))
  | opening n =>
      simp only [Lexer.perform, lexiconFor] at h
      split at h
      next => cases h
      next j hopen =>
        cases h
        show Lays _ ([':'] ++ _) _ _ ([] ++ [_]) _
        exact .line rfl (levels_of_opening hscan)
          (Indentation.current_openBlock hopen) (hkeyword (by rintro ⟨⟩))
  | lineBreak n =>
      have hlevels := levels_of_lineBreak hscan
      simp only [Lexer.perform, Lexer.batch_concat, lexiconFor] at h
      split at h
      next => cases h
      next hbreak =>
        cases h
        show Lays _ ([] ++ _) _ _ ([] ++ [_]) _
        exact .line rfl hlevels (Indentation.current_lineBreak hbreak)
          (hkeyword (by rintro ⟨⟩))
      next hbreak =>
        cases h
        show Lays _ ([] ++ _) _ _ _ _
        exact .line rfl hlevels (Indentation.current_lineBreak hbreak)
          (hkeyword (by rintro ⟨⟩))
      next hbreak =>
        cases h
        obtain ⟨hopen, hdeeper⟩ := Indentation.current_lineBreak hbreak
        obtain rfl : j = i := Indentation.depth_lineBreak hbreak
        exact .deeper rfl hlevels hopen hdeeper
  | skip hblank =>
      cases h
      exact .blank hblank

/-- A keyword comes alone. -/
theorem Lays.of_keyword {text : List Char} (h : Lays i text rest span tokens j) {k : Token}
    (hk : k.kind = Kind.keyword) (hmem : k ∈ tokens) : tokens = [k] ∧ k.span = span ∧ j = i := by
  cases h with
  | blank | deeper => exact absurd hmem List.not_mem_nil
  | line _ _ _ hnone => exact absurd hk (hnone k hmem)
  | keyword _ hspan =>
      obtain rfl := List.mem_singleton.mp hmem
      exact ⟨rfl, hspan, rfl⟩
  | other _ hnone => exact absurd hk (hnone k hmem)

end

/-! ## What a lexer knows of all that it has read -/

/-- A keyword behind some tokens: it stands on the first line if there are
    none; and if it comes first on a line, then that line stands as far as the
    blocks are deep that the tokens leave open. -/
structure KeywordStands (source : List Char) (unit : Option Nat) (before : List Token)
    (k : Token) : Prop where
  first : before = [] → k.span.startLine = 1
  line : ∀ {front : List Token} {last : Token}, before = front ++ [last] → last.StartsLine →
    ∃ n d, k.span.startLine = n + 1 ∧
      Kind.indent.countIn before = Kind.dedent.countIn before + d ∧
      ∀ u, (unit = none ∨ unit = some u) → StandsAt (Text.lines source) (d * u) n

/-- A member of an append stands in the first list or in the second one. -/
theorem append_eq_append_cons {α : Type} {as bs front back : List α} {x : α}
    (h : as ++ bs = front ++ x :: back) :
    (∃ later, as = front ++ x :: later ∧ back = later ++ bs) ∨
      ∃ first, front = as ++ first ∧ bs = first ++ x :: back := by
  rcases List.append_eq_append_iff.mp h with ⟨first, hfront, hbs⟩ | ⟨rest, has, hrest⟩
  · exact .inr ⟨first, hfront, hbs⟩
  · cases rest with
    | nil =>
        rw [List.append_nil] at has
        exact .inr ⟨[], by rw [has, List.append_nil], hrest.symm⟩
    | cons y later =>
        obtain ⟨rfl, rfl⟩ := List.cons.inj hrest
        exact .inl ⟨later, has, rfl⟩

/-- All tokens of the text in front, with the indentation behind it. -/
structure Laid (source front : List Char) (i : Indentation) (all : List Token) : Prop where
  stands : ∃ b, i.StandsFor b
  counts : Kind.indent.countIn all = Kind.dedent.countIn all + i.depth
  first : all = [] → '\n' ∉ front ∧ i.current = 0
  line : ∀ {ts : List Token} {last : Token}, all = ts ++ [last] → last.StartsLine →
    EndsOnLine source front i.current
  keywords : ∀ {before after : List Token} {k : Token}, all = before ++ k :: after →
    k.kind = Kind.keyword → KeywordStands source i.unit before k

theorem laid_start (source : List Char) : Laid source [] .start [] where
  stands := ⟨_, .fresh⟩
  counts := rfl
  first _ := ⟨List.not_mem_nil, rfl⟩
  line h := absurd h.symm (List.append_ne_nil_of_right_ne_nil _ (List.cons_ne_nil _ _))
  keywords h := absurd h.symm (List.append_ne_nil_of_right_ne_nil _ (List.cons_ne_nil _ _))

section

variable {source front text rest : List Char} {i j : Indentation} {all tokens : List Token}
  {span : Span}

theorem KeywordStands.mono {before : List Token} {k : Token} {unit unit' : Option Nat}
    (h : KeywordStands source unit before k)
    (hunit : ∀ u, (unit' = none ∨ unit' = some u) → unit = none ∨ unit = some u) :
    KeywordStands source unit' before k := by
  refine ⟨h.first, fun hbefore hlast => ?_⟩
  obtain ⟨n, d, hline, hcounts, hstands⟩ := h.line hbefore hlast
  exact ⟨n, d, hline, hcounts, fun u hu => hstands u (hunit u hu)⟩

/-- A keyword that is read now. -/
theorem Laid.keywordStands (h : Laid source front i all) {k : Token}
    (hline : k.span.startLine = 1 + front.count '\n') :
    KeywordStands source i.unit all k := by
  constructor
  · intro hall
    rw [hline, List.count_eq_zero.mpr (h.first hall).1]
  · intro ts last hall hlast
    refine ⟨front.count '\n', i.depth, by omega, h.counts, fun u hu => ?_⟩
    obtain ⟨b, hb⟩ := h.stands
    rw [← hb.current_eq hu]
    exact (h.line hall hlast).exists_stands

/-- One match. -/
theorem Laid.step (h : Laid source front i all) (hsource : source = front ++ text ++ rest)
    (hspan : span.startLine = 1 + front.count '\n') (hlays : Lays i text rest span tokens j)
    (hstands : ∃ b, j.StandsFor b)
    (hcounts : Kind.indent.countIn tokens + i.depth = Kind.dedent.countIn tokens + j.depth)
    (hunit : ∀ u, (j.unit = none ∨ j.unit = some u) → i.unit = none ∨ i.unit = some u) :
    Laid source (front ++ text) j (all ++ tokens) where
  stands := hstands
  counts := by
    have hall := h.counts
    rw [Symbol.countIn_append, Symbol.countIn_append]
    omega
  first := by
    intro hnone
    obtain ⟨rfl, htokens⟩ := List.append_eq_nil_iff.mp hnone
    obtain ⟨hfront, hcurrent⟩ := h.first rfl
    cases hlays with
    | blank htext =>
        refine ⟨fun hmem => (List.mem_append.mp hmem).elim hfront fun htext' => ?_, hcurrent⟩
        exact absurd (htext _ htext') (by decide)
    | deeper _ _ hopen =>
        rw [hcurrent] at hopen
        exact absurd hopen (Nat.lt_irrefl 0)
    | keyword => cases htokens
    | line | other => exact absurd htokens (List.append_ne_nil_of_right_ne_nil _ (by simp))
  line := by
    intro ts last hall hlast
    cases hlays with
    | blank htext =>
        rw [List.append_nil] at hall
        exact (h.line hall hlast).blank htext
    | deeper htext hlevels hopen hdeeper =>
        subst htext
        rw [List.append_nil] at hall
        exact (h.line hall hlast).deeper hopen hsource hlevels hdeeper
    | line htext hlevels hcurrent =>
        subst htext
        rw [hcurrent, ← List.append_assoc]
        rw [← List.append_assoc] at hsource
        exact endsOnLine_start hsource hlevels
    | keyword hk =>
        obtain ⟨-, rfl⟩ := List.append_singleton_inj.mp hall
        rw [Token.StartsLine, hk] at hlast
        exact absurd hlast (by decide)
    | other hnot =>
        rw [← List.append_assoc] at hall
        obtain ⟨-, rfl⟩ := List.append_singleton_inj.mp hall
        exact absurd hlast hnot
  keywords := by
    intro before after k hall hk
    rcases append_eq_append_cons hall with ⟨later, rfl, -⟩ | ⟨first, rfl, htokens⟩
    · exact (h.keywords rfl hk).mono hunit
    · -- a keyword of this match is all of it
      have hmem : k ∈ tokens := htokens ▸ List.mem_append_right first (List.mem_cons_self ..)
      obtain ⟨hsingle, hplace, rfl⟩ := hlays.of_keyword hk hmem
      obtain rfl : first = [] := by
        cases first with
        | nil => rfl
        | cons t ts => simp [hsingle] at htokens
      rw [List.append_nil]
      exact h.keywordStands (by rw [hplace, hspan])

/-- A lexer knows this of all that it has read. -/
theorem gathers_laid (marker : String) (source : List Char) :
    Lexer.Gathers fun all l => Serving marker l ∧ ∃ front, source = front ++ l.ahead ∧
      l.place = Place.start.after front ∧ Laid source front l.indentation all where
  queue _ _ h := ⟨⟨h.1.lexicon, h.1.mode⟩, h.2⟩
  take := by
    rintro all l l' s tokens ⟨hserving, front, hsource, hplace, hlaid⟩ hselect htake
    obtain ⟨x, hscan, hcut, hplace', hperform⟩ :=
      hserving.exists_cut hselect htake hsource hplace
    refine ⟨hserving.take htake, front ++ x.text, hcut, hplace', ?_⟩
    have hcomes := comesTo_of_perform _ hperform
    have hcounts := hcomes.counts (scanner_formed hscan)
    rw [countIn_unplaced, countIn_unplaced] at hcounts
    refine hlaid.step hcut ?_ (lays_of_scanner hscan hperform)
      (hcomes.moves.standsFor hlaid.stands) hcounts fun u hu => hcomes.moves.unit_before hu
    show l.place.line = _
    rw [hplace]
    exact (Place.after_start front).1
  stop := by
    rintro all l ⟨hserving, front, hsource, hplace, hlaid⟩ hahead
    refine ⟨hserving, front, hsource, hplace, ?_⟩
    rw [hahead, List.append_nil] at hsource
    have hlays : Lays l.indentation [] [] l.place.point
        ([] ++ [⟨l.lexicon.endSymbol, "", l.place.point⟩]) l.indentation := by
      rw [hserving.lexicon]
      exact .other (by simp [Token.StartsLine, lexiconFor]) (by simp [lexiconFor])
    have hline : l.place.point.startLine = 1 + front.count '\n' := by
      rw [hplace]
      exact (Place.after_start front).1
    have hcounts : ∀ kind, Kind.stop ≠ kind →
        kind.countIn [⟨l.lexicon.endSymbol, "", l.place.point⟩] = 0 := by
      rw [hserving.lexicon]
      exact fun _ hkind => Symbol.countIn_other hkind
    have hcut : source = front ++ [] ++ [] := by simpa using hsource
    have hstep := hlaid.step hcut hline hlays hlaid.stands ?_ fun _ hu => hu
    · rwa [List.append_nil] at hstep
    · rw [List.nil_append, hcounts Kind.indent (by decide), hcounts Kind.dedent (by decide)]

end

/-- Every keyword of a source stands on a line as wide as the blocks are deep
    around it, if it comes first there. -/
theorem keyword_stands {marker : String} {source : List Char} {tokens : List Token} {l : Lexer}
    (h : Feeds (Lexer.start (lexiconFor marker) source) tokens l) {before after : List Token}
    {k : Token} (htokens : tokens = before ++ k :: after) (hk : k.kind = Kind.keyword) :
    KeywordStands source l.indentation.unit before k := by
  have hstart : Laid source [] (Lexer.start (lexiconFor marker) source).indentation
      ([] ++ (Lexer.start (lexiconFor marker) source).pending) := laid_start source
  obtain ⟨-, front, -, -, hlaid⟩ := (gathers_laid marker source).feeds
    ⟨Serving.start marker source, [], rfl, rfl, hstart⟩ h
  have hall : [] ++ tokens ++ l.pending = before ++ k :: (after ++ l.pending) := by
    rw [htokens, List.nil_append, List.append_assoc, List.cons_append]
  exact hlaid.keywords hall hk

end Language

end Offside

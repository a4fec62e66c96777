import Offside.Proofs.Language.Layout
import Offside.Proofs.Language.Lexemes
import Offside.Proofs.Language.Steps

/-! # Lexing — a layout comes to the tokens of its lines

    A source that lays lines out is handed out as the tokens of these lines,
    as long as no name begins like the keyword.  A name that does is split:
    the keyword comes twice in a row, which no derivation allows.

    * `At` is a lexer before a text with so many blocks open, and the lemmas
      in its namespace are its steps along a layout;
    * `Starts.completes` and `Starts.stumbles` are both outcomes. -/

namespace Offside

namespace Language

open Automaton

/-! ## Levels -/

/-- An indentation with so many blocks open; the unit is not known before the
    first block opens. -/
structure Level (unit depth : Nat) (i : Indentation) : Prop where
  current : i.current = depth * unit
  unit : i.unit = some unit ∨ (i.unit = none ∧ depth = 0)

namespace Level

variable {unit depth : Nat} {i : Indentation}

theorem start (unit : Nat) : Level unit 0 .start := ⟨(Nat.zero_mul unit).symm, .inr ⟨rfl, rfl⟩⟩

theorem depth_eq (h : Level unit depth i) (hunit : 0 < unit) : i.depth = depth := by
  rcases h with ⟨hcurrent, hknown | ⟨hunknown, rfl⟩⟩
  · rw [Indentation.depth, hknown, hcurrent]
    exact Nat.mul_div_cancel depth hunit
  · rw [Indentation.depth, hunknown]

theorem openBlock (h : Level unit depth i) (hunit : 0 < unit) (line : Nat) :
    i.openBlock ((depth + 1) * unit) line = .ok ⟨(depth + 1) * unit, some unit⟩ := by
  obtain ⟨current, known⟩ := i
  obtain ⟨rfl, hknown⟩ := h
  have hwidth : (depth + 1) * unit = depth * unit + unit := Nat.succ_mul depth unit
  have hdeeper : ¬ (depth + 1) * unit ≤ depth * unit := by omega
  simp only [Indentation.openBlock, if_neg hdeeper]
  rcases hknown with rfl | ⟨rfl, rfl⟩
  · have hmod : ¬ (depth + 1) * unit % unit ≠ 0 := not_not.mpr (Nat.mul_mod_left _ _)
    simp only [if_neg hmod, if_neg (not_not.mpr hwidth)]
  · rw [Nat.zero_add, Nat.one_mul]

theorem lineBreak_same (h : Level unit depth i) (line : Nat) :
    i.lineBreak (depth * unit) line = .ok (.same, i) := by
  rw [Indentation.lineBreak, if_pos h.current.symm]

theorem lineBreak_outward (h : Level unit depth i) (hunit : 0 < unit) {next : Nat}
    (hnext : next < depth) (line : Nat) : i.lineBreak (next * unit) line =
      .ok (.outward (depth - next), ⟨next * unit, some unit⟩) := by
  obtain ⟨current, known⟩ := i
  rcases h with ⟨rfl, rfl | ⟨-, hdepth⟩⟩
  · have hlt : next * unit < depth * unit := Nat.mul_lt_mul_of_pos_right hnext hunit
    have hdiff : depth * unit - next * unit = (depth - next) * unit :=
      (Nat.sub_mul depth next unit).symm
    simp only [Indentation.lineBreak, if_neg (Nat.ne_of_lt hlt), if_pos hlt, hdiff,
      Nat.mul_mod_left, Nat.mul_div_cancel _ hunit, if_true]
  · exact absurd (hdepth ▸ hnext) (Nat.not_lt_zero next)

theorem closeAll (h : Level unit depth i) (hunit : 0 < unit) :
    i.closeAll = (depth, ⟨0, i.unit⟩) := by
  rw [Indentation.closeAll, h.depth_eq hunit]

end Level

/-! ## Handing out -/

/-- A lexer hands out tokens with these signs. -/
def Hands (l : Lexer) (signs : List Sign) (l' : Lexer) : Prop :=
  ∃ tokens, Feeds l tokens l' ∧ tokens.map Token.sign = signs

theorem Hands.append {l l' l'' : Lexer} {signs signs' : List Sign} (h : Hands l signs l')
    (h' : Hands l' signs' l'') : Hands l (signs ++ signs') l'' := by
  obtain ⟨tokens, hfeeds, rfl⟩ := h
  obtain ⟨tokens', hfeeds', rfl⟩ := h'
  exact ⟨tokens ++ tokens', hfeeds.append hfeeds', List.map_append⟩

/-- A lexer hands out tokens with these signs, and then no more. -/
def Completes (l : Lexer) (signs : List Sign) : Prop :=
  ∃ l', Hands l signs l' ∧ l'.hasMore = false

/-- A lexer hands out the keyword twice in a row, before the end. -/
def Stumbles (l : Lexer) : Prop :=
  ∃ signs l', Hands l (signs ++ [mark Kind.keyword, mark Kind.keyword]) l' ∧ l'.finished = false

theorem Hands.completes {l l' : Lexer} {signs signs' : List Sign} (h : Hands l signs l')
    (h' : Completes l' signs') : Completes l (signs ++ signs') := by
  obtain ⟨l'', hhands, hmore⟩ := h'
  exact ⟨l'', h.append hhands, hmore⟩

theorem Hands.stumbles {l l' : Lexer} {signs : List Sign} (h : Hands l signs l')
    (h' : Stumbles l') : Stumbles l := by
  obtain ⟨signs', l'', hhands, hrunning⟩ := h'
  refine ⟨signs ++ signs', l'', ?_, hrunning⟩
  rw [List.append_assoc]
  exact h.append hhands

/-! ## Steps along a layout -/

/-- A lexer of the language before a text, with so many blocks open. -/
def At (unit depth : Nat) (l : Lexer) (ahead : List Char) : Prop :=
  ∃ i, Before defaultMarker l ahead i ∧ Level unit depth i

theorem at_start (unit : Nat) (text : List Char) :
    At unit 0 (Lexer.start (lexiconFor defaultMarker) text) text :=
  ⟨.start, before_start defaultMarker text, .start unit⟩

namespace At

variable {unit depth : Nat} {l : Lexer} {c : Char} {rest : List Char}

/-- A text that comes to tokens. -/
theorem emit {action : RuleAction Symbol} {text : List Char} {width next : Nat}
    {signs : List Sign} (h : At unit depth l (text ++ rest))
    (hscan : scanner defaultMarker.toList (text ++ rest) = some ⟨action, text, width⟩)
    (hne : signs ≠ []) (hperform : ∀ i, Level unit depth i → ∀ span, ∃ tokens j,
      Lexer.perform (lexiconFor defaultMarker) i action text span width = .ok ⟨tokens, j⟩ ∧
        tokens.map Token.sign = signs ∧ Level unit next j) :
    ∃ l', Hands l signs l' ∧ At unit next l' rest := by
  obtain ⟨i, hbefore, hlevel⟩ := h
  have htokens : ∀ span, ∃ tokens j, Lexer.perform (lexiconFor defaultMarker) i action text span
      width = .ok ⟨tokens, j⟩ ∧ tokens ≠ [] ∧
        (tokens.map Token.sign = signs ∧ Level unit next j) := by
    intro span
    obtain ⟨tokens, j, hok, rfl, hnext⟩ := hperform i hlevel span
    exact ⟨tokens, j, hok, fun hnil => hne (List.map_eq_nil_iff.mpr hnil), rfl, hnext⟩
  obtain ⟨tokens, j, l', hfeeds, ⟨hsigns, hnext⟩, hbehind⟩ :=
    hbefore.emit (P := fun tokens j => tokens.map Token.sign = signs ∧ Level unit next j) hscan
      htokens
  exact ⟨l', ⟨tokens, hfeeds, hsigns⟩, j, hbehind, hnext⟩

theorem keyword (h : At unit depth l (keyword ++ rest)) :
    ∃ l', Hands l [mark Kind.keyword] l' ∧ At unit depth l' rest :=
  h.emit scanner_keyword (List.cons_ne_nil _ _) fun _ hlevel _ => ⟨_, _, rfl, rfl, hlevel⟩

theorem remark {text : String} (htext : IsRemark text.toList) (hc : isRemarkChar c = false)
    (h : At unit depth l (';' :: text.toList ++ c :: rest)) :
    ∃ l', Hands l [(Kind.comment, text)] l' ∧ At unit depth l' (c :: rest) := by
  refine h.emit (scanner_remark htext hc) (List.cons_ne_nil _ _) ?_
  intro i hlevel span
  refine ⟨[⟨Kind.comment, text, span⟩], i, ?_, rfl, hlevel⟩
  simp only [Lexer.perform, stripped_remark, String.ofList_toList]

/-- A space before a word is passed over: what comes next is what comes behind
    the space. -/
theorem space (hc : isWordChar c = true) (h : At unit depth l ([' '] ++ c :: rest)) :
    ∃ l', At unit depth l' (c :: rest) ∧ l.next = l'.next := by
  obtain ⟨i, hbefore, hlevel⟩ := h
  obtain ⟨l', hbehind, hnext⟩ := hbefore.skip (scanner_space hc)
  exact ⟨l', ⟨i, hbehind, hlevel⟩, hnext⟩

theorem name {name : String} (hname : IsName name.toList) (hc : isWordChar c = false)
    (hdot : c ≠ '.') (h : At unit depth l (name.toList ++ c :: rest)) :
    ∃ l', Hands l [(Kind.name, name)] l' ∧ At unit depth l' (c :: rest) := by
  refine h.emit (scanner_name hname hc hdot) (List.cons_ne_nil _ _) ?_
  intro i hlevel span
  refine ⟨[⟨Kind.name, name, span⟩], i, ?_, rfl, hlevel⟩
  simp only [Lexer.perform, String.ofList_toList]

theorem opening {n : Nat} (hn : 0 < n) (hc : c ≠ ' ')
    (h : At (4 * n) depth l (':' :: '\n' :: indentation ((depth + 1) * n) ++ c :: rest)) :
    ∃ l', Hands l [mark Kind.indent] l' ∧ At (4 * n) (depth + 1) l' (c :: rest) := by
  refine h.emit (scanner_opening hc _) (List.cons_ne_nil _ _) ?_
  intro i hlevel span
  have hunit : 0 < 4 * n := Nat.mul_pos (by decide) hn
  have hwidth : 4 * ((depth + 1) * n) = (depth + 1) * (4 * n) := Nat.mul_left_comm ..
  refine ⟨[⟨Kind.indent, String.ofList (':' :: '\n' :: indentation ((depth + 1) * n)), span⟩],
    ⟨(depth + 1) * (4 * n), some (4 * n)⟩, ?_, rfl, rfl, .inl rfl⟩
  simp only [Lexer.perform, lexiconFor, hwidth, hlevel.openBlock hunit]

/-- Block ends and a token behind them. -/
def closing (span : Span) (levels : Nat) (t : Token) : List Token :=
  Lexer.dedents ⟨Kind.indent, Kind.dedent, Kind.newline⟩ span levels ++ [t]

theorem map_sign_closing (span : Span) (levels : Nat) (t : Token) :
    (closing span levels t).map Token.sign =
      List.replicate levels (mark Kind.dedent) ++ [t.sign] := by
  rw [closing, Lexer.dedents, List.map_append, List.map_replicate]
  rfl

theorem lineBreak {n next : Nat} (hn : 0 < n) (hc : c ≠ ' ') (hmarker : c ≠ '@')
    (hnext : next ≤ depth) (h : At (4 * n) depth l ('\n' :: indentation (next * n) ++ c :: rest)) :
    ∃ l', Hands l (List.replicate (depth - next) (mark Kind.dedent) ++ [mark Kind.newline]) l' ∧
      At (4 * n) next l' (c :: rest) := by
  -- neither a space nor the content begins like the end marker
  have hnot : ¬ defaultMarker.toList <+: indentation (next * n) ++ c :: rest := by
    intro hfront
    cases hm : next * n with
    | zero =>
        rw [hm] at hfront
        exact hmarker (List.cons_prefix_cons.mp hfront).1.symm
    | succ m =>
        rw [hm] at hfront
        exact absurd (List.cons_prefix_cons.mp hfront).1 (by decide)
  have hne : List.replicate (depth - next) (mark Kind.dedent) ++ [mark Kind.newline] ≠ [] :=
    List.append_ne_nil_of_right_ne_nil _ (List.cons_ne_nil _ _)
  refine h.emit (scanner_break hc _ hnot) hne ?_
  intro i hlevel span
  have hunit : 0 < 4 * n := Nat.mul_pos (by decide) hn
  have hwidth : 4 * (next * n) = next * (4 * n) := Nat.mul_left_comm ..
  have hsigns := map_sign_closing span (depth - next) ⟨Kind.newline, "", span⟩
  -- a line at the same depth is a case of its own to the lexer, with the same tokens
  rcases Nat.eq_or_lt_of_le hnext with rfl | hlt
  · refine ⟨closing span (next - next) ⟨Kind.newline, "", span⟩, i, ?_, hsigns, hlevel⟩
    simp only [Lexer.perform, lexiconFor, hwidth, hlevel.lineBreak_same, Nat.sub_self]
    rfl
  · refine ⟨closing span (depth - next) ⟨Kind.newline, "", span⟩,
      ⟨next * (4 * n), some (4 * n)⟩, ?_, hsigns, rfl, .inl rfl⟩
    simp only [Lexer.perform, Lexer.batch_concat, lexiconFor, hwidth,
      hlevel.lineBreak_outward hunit hlt]
    rfl

/-- The end marker closes all blocks. -/
theorem marker (hunit : 0 < unit) (h : At unit depth l ('\n' :: defaultMarker.toList ++ [])) :
    ∃ l', Hands l (List.replicate depth (mark Kind.dedent) ++ [mark Kind.marker]) l' ∧
      At unit 0 l' [] := by
  have hne : List.replicate depth (mark Kind.dedent) ++ [mark Kind.marker] ≠ [] :=
    List.append_ne_nil_of_right_ne_nil _ (List.cons_ne_nil _ _)
  refine h.emit scanner_marker hne ?_
  intro i hlevel span
  let last : Token := ⟨Kind.marker, String.ofList ('\n' :: defaultMarker.toList), span⟩
  have hunknown : i.unit = some unit ∨ (i.unit = none ∧ 0 = 0) :=
    hlevel.unit.imp_right fun h => ⟨h.1, rfl⟩
  refine ⟨closing span depth last, ⟨0, i.unit⟩, ?_, map_sign_closing span depth last,
    (Nat.zero_mul unit).symm, hunknown⟩
  simp only [Lexer.perform, hlevel.closeAll hunit]
  cases depth with
  | zero => rfl
  | succ depth => rfl

/-- At the end of the text the end symbol comes, and nothing else. -/
theorem finish (h : At unit depth l []) : Completes l [mark Kind.stop] := by
  obtain ⟨i, hbefore, -⟩ := h
  have hnext : l.next = (.ok (some ⟨l.lexicon.endSymbol, "", l.place.point⟩),
      { l with finished := true }) :=
    (Lexer.next_eq_iff hbefore.pending).mpr (.stop hbefore.ahead hbefore.running)
  refine ⟨{ l with finished := true }, ⟨_, Feeds.single hnext, ?_⟩, ?_⟩
  · rw [hbefore.lexicon]
    rfl
  · rw [Lexer.hasMore, hbefore.pending]
    rfl

end At

/-! ## Contents -/

/-- A content starts with what is neither a space nor the end marker. -/
theorem Content.exists_head (content : Content) :
    ∃ c cs, content.body = c :: cs ∧ c ≠ ' ' ∧ c ≠ '@' := by
  cases content with
  | declaration name opens => exact ⟨'m', _, rfl, by decide, by decide⟩
  | remark text => exact ⟨';', _, rfl, by decide, by decide⟩

/-- What comes next decides what is handed out. -/
theorem Hands.of_next {l l' l'' : Lexer} {sign : Sign} {signs : List Sign}
    (hnext : l.next = l'.next) (h : Hands l' (sign :: signs) l'') :
    Hands l (sign :: signs) l'' := by
  obtain ⟨tokens, hfeeds, hsigns⟩ := h
  obtain ⟨token, tokens, rfl, -, -⟩ := List.map_eq_cons_iff.mp hsigns
  rcases hfeeds with _ | ⟨hfirst, hothers⟩
  exact ⟨token :: tokens, .cons (hnext.trans hfirst) hothers, hsigns⟩

namespace At

variable {unit depth : Nat} {l : Lexer} {rest : List Char}

theorem head {name : List Char} (hname : IsDotted name)
    (h : At unit depth l (Language.keyword ++ ' ' :: name ++ rest)) :
    ∃ l₁ l₂, Hands l [mark Kind.keyword] l₁ ∧ l₁.next = l₂.next ∧
      At unit depth l₂ (name ++ rest) := by
  obtain ⟨c, cs, rfl, hc⟩ := hname.exists_head
  rw [List.append_assoc] at h
  obtain ⟨l₁, hkeyword, h₁⟩ := h.keyword
  obtain ⟨l₂, h₂, hnext⟩ := h₁.space hc
  exact ⟨l₁, l₂, hkeyword, hnext, h₂⟩

theorem content {content : Content} (hcontent : content.Formed IsName) {c : Char}
    (hc : c = ':' ∨ c = '\n') (h : At unit depth l (content.body ++ c :: rest)) :
    ∃ l', Hands l content.signs l' ∧ At unit depth l' (c :: rest) := by
  have hword : isWordChar c = false := by rcases hc with rfl | rfl <;> decide
  have hdot : c ≠ '.' := by rcases hc with rfl | rfl <;> decide
  have hremark : isRemarkChar c = false := by rcases hc with rfl | rfl <;> decide
  cases content with
  | declaration name opens =>
      obtain ⟨l₁, l₂, hkeyword, hnext, h₂⟩ := h.head hcontent.1
      obtain ⟨l₃, hname, h₃⟩ := h₂.name hcontent hword hdot
      exact ⟨l₃, hkeyword.append (hname.of_next hnext), h₃⟩
  | remark text => exact h.remark hcontent hremark

/-- A name that begins like the keyword is taken for the keyword at first. -/
theorem stumbles {content : Content} (hdotted : content.Formed IsDotted)
    (hnot : ¬ content.Formed IsName) (h : At unit depth l (content.body ++ rest)) :
    Stumbles l := by
  cases content with
  | declaration name opens =>
      obtain ⟨l₁, l₂, hkeyword, hnext, h₂⟩ := h.head hdotted
      have hfront : Language.keyword <+: name.toList :=
        Classical.not_not.mp fun hplain => hnot ⟨hdotted, hplain⟩
      -- the keyword is handed out again, and the rest of the name does not matter
      obtain ⟨more, hmore⟩ := hfront
      rw [← hmore, List.append_assoc] at h₂
      obtain ⟨l₃, hagain, i, hbehind, -⟩ := h₂.keyword
      exact ⟨[], l₃, hkeyword.append (hagain.of_next hnext), hbehind.running⟩
  | remark text => exact absurd hdotted hnot

end At

/-! ## Lines -/

/-- What is written behind the body of a line: its colon, the lines after it,
    and the end marker. -/
def tailText (unit : Nat) : Bool → List Line → List Char
  | opens, [] => colon opens ++ '\n' :: defaultMarker.toList
  | opens, line :: lines =>
      colon opens ++ '\n' :: (List.replicate (line.depth * unit) ' ' ++
        (line.content.body ++ tailText unit line.content.opens lines))

theorem tailText_head (unit : Nat) (opens : Bool) (lines : List Line) :
    ∃ c cs, tailText unit opens lines = c :: cs ∧ (c = ':' ∨ c = '\n') := by
  cases opens with
  | true => cases lines <;> exact ⟨':', _, rfl, .inl rfl⟩
  | false => cases lines <;> exact ⟨'\n', _, rfl, .inr rfl⟩

theorem unlines_tail (unit : Nat) (body : List Char) (opens : Bool) (lines : List Line) :
    Text.unlines ((body ++ colon opens) ::
        (lines.map (Line.written unit) ++ [defaultMarker.toList])) =
      body ++ tailText unit opens lines := by
  induction lines generalizing body opens with
  | nil => exact List.append_assoc ..
  | cons line lines ih =>
      have hlines := ih (List.replicate (line.depth * unit) ' ' ++ line.content.body)
        line.content.opens
      rw [List.map_cons, List.cons_append, Text.unlines, Line.written, hlines, tailText]
      simp only [List.append_assoc]

/-- A source is its first content with what is written behind it. -/
theorem toList_source (unit : Nat) (content : Content) (lines : List Line) :
    (source unit (⟨0, content⟩ :: lines)).toList =
      content.body ++ tailText unit content.opens lines := by
  have hwritten : Line.written unit ⟨0, content⟩ = content.body ++ colon content.opens := by
    rw [Line.written, Nat.zero_mul]
    rfl
  rw [source, String.toList_ofList, List.map_cons, List.cons_append, hwritten]
  exact unlines_tail ..

namespace At

variable {depth n : Nat} {l : Lexer} {content : Content} {lines : List Line}

theorem replicate_eq_indentation (depth n : Nat) :
    List.replicate (depth * (4 * n)) ' ' = indentation (depth * n) := by
  rw [indentation, Nat.mul_left_comm]

theorem outward (hn : 0 < n) {next : Nat} (hnext : next ≤ depth)
    (h : At (4 * n) depth l (tailText (4 * n) false (⟨next, content⟩ :: lines))) :
    ∃ l', Hands l (List.replicate (depth - next) (mark Kind.dedent) ++ [mark Kind.newline]) l' ∧
      At (4 * n) next l' (content.body ++ tailText (4 * n) content.opens lines) := by
  obtain ⟨c, cs, hbody, hspace, hmarker⟩ := content.exists_head
  rw [tailText, replicate_eq_indentation, hbody] at h
  rw [hbody]
  exact h.lineBreak hn hspace hmarker hnext

theorem inward (hn : 0 < n)
    (h : At (4 * n) depth l (tailText (4 * n) true (⟨depth + 1, content⟩ :: lines))) :
    ∃ l', Hands l [mark Kind.indent] l' ∧
      At (4 * n) (depth + 1) l' (content.body ++ tailText (4 * n) content.opens lines) := by
  obtain ⟨c, cs, hbody, hspace, -⟩ := content.exists_head
  rw [tailText, replicate_eq_indentation, hbody] at h
  rw [hbody]
  exact h.opening hn hspace

theorem line {unit : Nat} (hcontent : content.Formed IsName)
    (h : At unit depth l (content.body ++ tailText unit content.opens lines)) :
    ∃ l', Hands l content.signs l' ∧ At unit depth l' (tailText unit content.opens lines) := by
  obtain ⟨c, cs, htail, hc⟩ := tailText_head unit content.opens lines
  rw [htail] at h ⊢
  exact h.content hcontent hc

end At

/-- Lines with plain names come to their tokens. -/
theorem Tail.completes {depth : Nat} {opens : Bool} {lines : List Line} {signs : List Sign}
    (h : Tail depth opens lines signs) {n : Nat} (hn : 0 < n)
    (hlines : ∀ line ∈ lines, line.content.Formed IsName) {l : Lexer}
    (hl : At (4 * n) depth l (tailText (4 * n) opens lines)) : Completes l signs := by
  induction h generalizing l with
  | done depth =>
      have hunit : 0 < 4 * n := Nat.mul_pos (by decide) hn
      obtain ⟨l', hhands, hend⟩ := hl.marker hunit
      have hall := hhands.completes hend.finish
      rwa [List.append_assoc] at hall
  | @outward depth next content lines signs hnext _ ih =>
      obtain ⟨hcontent, hlines⟩ := List.forall_mem_cons.mp hlines
      obtain ⟨l₁, hbreak, h₁⟩ := hl.outward hn hnext
      obtain ⟨l₂, hhands, h₂⟩ := h₁.line hcontent
      have hall := hbreak.completes (hhands.completes (ih hlines h₂))
      rwa [List.append_assoc] at hall
  | @inward depth content lines signs _ ih =>
      obtain ⟨hcontent, hlines⟩ := List.forall_mem_cons.mp hlines
      obtain ⟨l₁, hopening, h₁⟩ := hl.inward hn
      obtain ⟨l₂, hhands, h₂⟩ := h₁.line hcontent
      exact hopening.completes (hhands.completes (ih hlines h₂))

/-- Lines with a name that is not plain come to the keyword twice. -/
theorem Tail.stumbles {depth : Nat} {opens : Bool} {lines : List Line} {signs : List Sign}
    (h : Tail depth opens lines signs) {n : Nat} (hn : 0 < n)
    (hdotted : ∀ line ∈ lines, line.content.Formed IsDotted)
    (hnot : ¬ ∀ line ∈ lines, line.content.Formed IsName) {l : Lexer}
    (hl : At (4 * n) depth l (tailText (4 * n) opens lines)) : Stumbles l := by
  induction h generalizing l with
  | done depth => exact absurd nofun hnot
  | @outward depth next content lines signs hnext _ ih =>
      obtain ⟨hcontent, hdotted⟩ := List.forall_mem_cons.mp hdotted
      obtain ⟨l₁, hbreak, h₁⟩ := hl.outward hn hnext
      -- if this line is plain, a later one is not
      by_cases hplain : content.Formed IsName
      · obtain ⟨l₂, hhands, h₂⟩ := h₁.line hplain
        have hrest := fun hall => hnot (List.forall_mem_cons.mpr ⟨hplain, hall⟩)
        exact hbreak.stumbles (hhands.stumbles (ih hdotted hrest h₂))
      · exact hbreak.stumbles (h₁.stumbles hcontent hplain)
  | @inward depth content lines signs _ ih =>
      obtain ⟨hcontent, hdotted⟩ := List.forall_mem_cons.mp hdotted
      obtain ⟨l₁, hopening, h₁⟩ := hl.inward hn
      by_cases hplain : content.Formed IsName
      · obtain ⟨l₂, hhands, h₂⟩ := h₁.line hplain
        have hrest := fun hall => hnot (List.forall_mem_cons.mpr ⟨hplain, hall⟩)
        exact hopening.stumbles (hhands.stumbles (ih hdotted hrest h₂))
      · exact hopening.stumbles (h₁.stumbles hcontent hplain)

namespace Starts

variable {lines : List Line} {signs : List Sign} {n : Nat}

/-- A source of lines with plain names comes to their tokens. -/
theorem completes (h : Starts 0 lines signs) (hn : 0 < n)
    (hlines : ∀ line ∈ lines, line.content.Formed IsName) :
    Completes (Lexer.start (lexiconFor defaultMarker) (source (4 * n) lines).toList) signs := by
  obtain ⟨htail⟩ := h
  obtain ⟨hcontent, hlines⟩ := List.forall_mem_cons.mp hlines
  rw [toList_source]
  obtain ⟨l', hhands, hl'⟩ := (at_start (4 * n) _).line hcontent
  exact hhands.completes (htail.completes hn hlines hl')

/-- A source of lines with a name that is not plain comes to the keyword
    twice. -/
theorem stumbles (h : Starts 0 lines signs) (hn : 0 < n)
    (hdotted : ∀ line ∈ lines, line.content.Formed IsDotted)
    (hnot : ¬ ∀ line ∈ lines, line.content.Formed IsName) :
    Stumbles (Lexer.start (lexiconFor defaultMarker) (source (4 * n) lines).toList) := by
  obtain @⟨content, lines, signs, htail⟩ := h
  obtain ⟨hcontent, hdotted⟩ := List.forall_mem_cons.mp hdotted
  rw [toList_source]
  by_cases hplain : content.Formed IsName
  · obtain ⟨l', hhands, hl'⟩ := (at_start (4 * n) _).line hplain
    have hrest := fun hall => hnot (List.forall_mem_cons.mpr ⟨hplain, hall⟩)
    exact hhands.stumbles (htail.stumbles hn hdotted hrest hl')
  · exact (at_start (4 * n) _).stumbles hcontent hplain

end Starts

end Language

end Offside

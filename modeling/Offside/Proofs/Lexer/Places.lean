import Offside.Proofs.Lexer.Rounds

/-! # Places of tokens — spans fit their source and come in its order

    Offsets, lines and columns of a span are those of two places of the
    source.  Tokens of one match share the span of that match, and those of
    later matches start where it ends or behind that.

    * `Span.Fits` is said of the source alone, and `fits_of_feeds` of all
      tokens that come out of it;
    * `Token.Follows` orders tokens by their spans, and `follows_of_feeds`
      says that all tokens are in order. -/

namespace Offside

/-! ## Positions -/

/-- An offset with its line and its column in a source: lines count from one,
    and a column counts the bytes behind the last newline. -/
def Text.IsPosition (source : List Char) (offset line column : Nat) : Prop :=
  ∃ front, front <+: source ∧ offset = bytes front ∧ line = 1 + front.count '\n' ∧
    column = bytes (front.rtakeWhile (· ≠ '\n'))

/-- A span inside another one. -/
structure Span.Within (inner outer : Span) : Prop where
  start : outer.startOffset ≤ inner.startOffset
  stop : inner.endOffset ≤ outer.endOffset

/-- A span of a source: it ends where it starts or behind that, and its lines
    and columns are those of its offsets. -/
structure Span.Fits (source : List Char) (span : Span) : Prop where
  start : Text.IsPosition source span.startOffset span.startLine span.startColumn
  stop : Text.IsPosition source span.endOffset span.endLine span.endColumn
  ordered : span.startOffset ≤ span.endOffset
  inside : span.endOffset ≤ Text.bytes source

/-- A text in front of another one that has no more bytes is the whole of it. -/
theorem Text.eq_of_prefix_of_bytes_eq {a b : List Char} (h : a <+: b)
    (hbytes : Text.bytes a = Text.bytes b) : a = b := by
  obtain ⟨c, rfl⟩ := h
  rw [Text.bytes_append] at hbytes
  cases c with
  | nil => exact (List.append_nil a).symm
  | cons c cs =>
      have hpos := Text.bytes_pos (List.cons_ne_nil c cs)
      omega

/-- An offset has one line and one column. -/
theorem Text.IsPosition.unique {source : List Char} {offset line line' column column' : Nat}
    (h : Text.IsPosition source offset line column)
    (h' : Text.IsPosition source offset line' column') : line = line' ∧ column = column' := by
  obtain ⟨front, hfront, rfl, rfl, rfl⟩ := h
  obtain ⟨front', hfront', hbytes, rfl, rfl⟩ := h'
  obtain rfl : front = front' := by
    rcases List.prefix_or_prefix_of_prefix hfront hfront' with hle | hle
    · exact Text.eq_of_prefix_of_bytes_eq hle hbytes
    · exact (Text.eq_of_prefix_of_bytes_eq hle hbytes.symm).symm
  exact ⟨rfl, rfl⟩

namespace Place

/-- The place after a text knows the line and where that starts. -/
theorem after_start (front : List Char) :
    (start.after front).line = 1 + front.count '\n' ∧
      (start.after front).lineStart + Text.bytes (front.rtakeWhile (· ≠ '\n')) =
        (start.after front).offset := by
  induction front using List.reverseRecOn with
  | nil => exact ⟨rfl, rfl⟩
  | append_singleton front c ih =>
      obtain ⟨hline, hstart⟩ := ih
      rw [after_append, after_cons, after_nil, List.count_append, List.rtakeWhile_concat, step]
      by_cases hc : c = '\n'
      · subst hc
        exact ⟨by rw [if_pos rfl, hline]; rfl, rfl⟩
      · have hcount : [c].count '\n' = 0 := List.count_eq_zero.mpr fun hmem =>
          hc (List.mem_singleton.mp hmem).symm
        rw [if_neg hc, if_pos (decide_eq_true hc), hcount, Text.bytes_append]
        refine ⟨hline, ?_⟩
        dsimp only
        rw [← Nat.add_assoc, hstart]
        rfl

/-- The place after a text has the size of the text for its offset. -/
theorem offset_start_after (text : List Char) : (start.after text).offset = Text.bytes text :=
  (offset_after ..).trans (Nat.zero_add _)

theorem isPosition_after {source front : List Char} (h : front <+: source) :
    Text.IsPosition source (start.after front).offset (start.after front).line
      (start.after front).column := by
  obtain ⟨hline, hstart⟩ := after_start front
  refine ⟨front, h, offset_start_after front, hline, ?_⟩
  rw [column]
  omega

theorem offset_le_after (p : Place) (text : List Char) : p.offset ≤ (p.after text).offset := by
  rw [offset_after]
  exact Nat.le_add_right ..

/-- The span of a piece of the source fits. -/
theorem fits_spanTo {source front text : List Char} (h : front ++ text <+: source) :
    ((start.after front).spanTo ((start.after front).after text)).Fits source where
  start := isPosition_after ((List.prefix_append front text).trans h)
  stop := by
    rw [← after_append]
    exact isPosition_after h
  ordered := offset_le_after _ text
  inside := by
    obtain ⟨rest, rfl⟩ := h
    show ((start.after front).after text).offset ≤ _
    rw [← after_append, offset_start_after, Text.bytes_append (front ++ text)]
    exact Nat.le_add_right ..

end Place

namespace Lexer

variable {source : List Char} {lexicon : Lexicon} {l l' : Lexer} {kind : Symbol}

/-! ## Spans -/

/-- A lexer has the source behind it up to its place. -/
def StandsIn (source : List Char) (l : Lexer) : Prop :=
  ∃ front, source = front ++ l.ahead ∧ l.place = Place.start.after front

/-- Passing a match leads to a place of the source. -/
theorem StandsIn.pass (h : StandsIn source l) (length : Nat) :
    StandsIn source (l.pass length).2 ∧ (l.place.spanTo (l.pass length).2.place).Fits source := by
  obtain ⟨front, hsource, hplace⟩ := h
  have hcut := Text.cut_append length l.ahead
  rw [← hcut, ← List.append_assoc] at hsource
  rw [Lexer.pass, hplace]
  exact ⟨⟨_, hsource, (Place.after_append ..).symm⟩,
    Place.fits_spanTo (hsource ▸ List.prefix_append ..)⟩

/-- So does taking a match, whatever comes of it. -/
theorem StandsIn.take (h : StandsIn source l) {s : Selection} {r : Except Fault (List Token)}
    (htake : l.take s = (r, l')) : StandsIn source l' := by
  rw [take_passes htake]
  exact (h.pass s.found.length).1

/-- The tokens of a match share its span. -/
theorem Outcome.span_eq {i : Indentation} {span : Span} {width : Nat}
    {action : RuleAction Symbol} {scanned : Scanned}
    (h : Outcome lexicon i span width action scanned) :
    ∀ token ∈ scanned.tokens, token.span = span := by
  have hends : ∀ (structural : Structural Symbol) (levels : Nat) (last : Token),
      last.span = span → ∀ token ∈ dedents structural span levels ++ [last], token.span = span := by
    intro structural levels last hlast
    refine List.forall_mem_append.mpr ⟨fun token htoken => ?_, List.forall_mem_singleton.mpr hlast⟩
    exact congrArg Token.span (List.eq_of_mem_replicate htoken)
  cases h with
  | single | opening | same => exact List.forall_mem_singleton.mpr rfl
  | closing | outward => exact hends _ _ _ rfl
  | deeper | skip => exact nofun

/-- The tokens of a match share the span between the places before and behind
    it. -/
theorem span_of_take {s : Selection} {tokens : List Token} (h : l.take s = (.ok tokens, l')) :
    ∀ token ∈ tokens, token.span = l.place.spanTo l'.place :=
  (take_ok h).span_eq

theorem standsIn_start (lexicon : Lexicon) (source : List Char) :
    StandsIn source (start lexicon source) := ⟨[], rfl, rfl⟩

/-- All spans fit, whatever the lexicon is. -/
theorem keeps_fits : Keeps (StandsIn source) (fun token => token.span.Fits source)
    fun _ => True where
  queue _ _ h := h
  take h _ htake := by
    refine ⟨h.take htake, fun token htoken => ?_⟩
    rw [span_of_take htake token htoken, take_passes htake]
    exact (h.pass _).2
  fault h _ htake := ⟨h.take htake, trivial⟩
  stop h := by
    obtain ⟨front, hsource, hplace⟩ := h
    have hprefix : front ++ [] <+: source := by
      rw [List.append_nil, hsource]
      exact List.prefix_append ..
    have hfits := Place.fits_spanTo hprefix
    rw [Place.after_nil, ← hplace] at hfits
    exact hfits
  stuck _ _ := trivial

/-- All tokens of a source have spans of that source. -/
theorem fits_of_feeds {tokens : List Token}
    (h : Automaton.Feeds (start lexicon source) tokens l') :
    ∀ token ∈ tokens, token.span.Fits source :=
  (keeps_fits.feeds (standsIn_start lexicon source) nofun h).2.2

end Lexer

/-! ## Joining spans -/

namespace Span

variable {source : List Char} {a b : Span}

theorem within_join_left (a b : Span) : a.Within (join a b) := by
  rw [join, between]
  constructor <;> dsimp only <;> split <;> omega

theorem within_join_right (a b : Span) : b.Within (join a b) := by
  rw [join, between]
  constructor <;> dsimp only <;> split <;> omega

/-- A join starts where its first part does if that is not behind the second. -/
theorem startOffset_join (h : a.startOffset ≤ b.startOffset) :
    (join a b).startOffset = a.startOffset := by
  rw [join, if_pos h]
  rfl

theorem endOffset_join (a b : Span) :
    (join a b).endOffset = a.endOffset ∨ (join a b).endOffset = b.endOffset := by
  rw [join, between]
  dsimp only
  split
  · exact .inl rfl
  · exact .inr rfl

theorem merge_self (a : Option Span) : merge a a = a := by
  cases a with
  | none => rfl
  | some a => rw [merge_some, Span.join, if_pos (Nat.le_refl _), if_pos (Nat.le_refl _)]; rfl

theorem Fits.between (ha : a.Fits source) (hb : b.Fits source)
    (h : a.startOffset ≤ b.endOffset) : (between a b).Fits source :=
  ⟨ha.start, hb.stop, h, hb.inside⟩

/-- A join of spans of a source is one. -/
theorem Fits.join (ha : a.Fits source) (hb : b.Fits source) : (join a b).Fits source := by
  obtain ⟨hstart, hstop⟩ := within_join_left a b
  have hordered := hstart.trans (ha.ordered.trans hstop)
  rw [Span.join] at hordered ⊢
  refine Fits.between ?_ ?_ hordered <;> split <;> assumption

end Span

/-! ## Order -/

/-- Tokens of a kind come alone: the kind does not stand for structure. -/
structure Lexicon.Lone (l : Lexicon) (kind : Symbol) : Prop where
  structural : ∀ structural, l.structural = some structural →
    kind ≠ structural.dedent ∧ kind ≠ structural.newline
  mark : ∀ rule ∈ l.rules, rule.action ≠ .endOfInput kind

/-- A token that comes behind another one: both are of one match, which does
    not go for tokens of a lone kind, or it starts where the other one ends
    or behind that. -/
def Token.Follows (lone : Symbol) (t u : Token) : Prop :=
  (u.span = t.span ∧ u.kind ≠ lone) ∨
    (t.span.endOffset ≤ u.span.startOffset ∧ u.span.startOffset ≤ u.span.endOffset)

namespace Lexer

variable {lexicon : Lexicon} {source : List Char} {l l' : Lexer} {lone : Symbol}

/-- Behind the first token of a match there is none of a lone kind. -/
theorem Outcome.tail_ne {i : Indentation} {span : Span} {width : Nat}
    {action : RuleAction Symbol} {scanned : Scanned}
    (h : Outcome lexicon i span width action scanned) (hlone : lexicon.Lone lone)
    (haction : action ≠ .endOfInput lone) : ∀ token ∈ scanned.tokens.tail, token.kind ≠ lone := by
  have hends : ∀ (structural : Structural Symbol) (levels : Nat) (last : Token),
      lone ≠ structural.dedent ∨ levels = 0 → last.kind ≠ lone →
      ∀ token ∈ (dedents structural span levels ++ [last]).tail, token.kind ≠ lone := by
    intro structural levels last hdedent hlast token htoken
    rcases List.mem_append.mp (List.mem_of_mem_tail htoken) with hend | hend
    · obtain ⟨hlevels, rfl⟩ := List.mem_replicate.mp hend
      exact (hdedent.resolve_right hlevels).symm
    · obtain rfl := List.mem_singleton.mp hend
      exact hlast
  cases h with
  | single | opening | same | deeper | skip => exact nofun
  | closing text hstructural =>
      refine hends _ _ _ (hstructural.imp_left fun h => (hlone.structural _ h).1) ?_
      rintro rfl
      exact haction rfl
  | outward hstructural =>
      obtain ⟨hdedent, hnewline⟩ := hlone.structural _ hstructural
      exact hends _ _ _ (.inl hdedent) hnewline.symm

theorem offset_le_of_take {s : Selection} {r : Except Fault (List Token)}
    (h : l.take s = (r, l')) : l.place.offset ≤ l'.place.offset := by
  rw [take_passes h]
  exact Place.offset_le_after ..

/-- Every match lies behind the tokens before it. -/
theorem keeps_follows (t : Token) : Keeps (fun l => t.span.endOffset ≤ l.place.offset)
    (t.Follows lone) fun _ => True where
  queue _ _ h := h
  take h _ htake := by
    have hle := offset_le_of_take htake
    refine ⟨Nat.le_trans h hle, fun u hu => .inr ?_⟩
    rw [span_of_take htake u hu]
    exact ⟨h, hle⟩
  fault h _ htake := ⟨Nat.le_trans h (offset_le_of_take htake), trivial⟩
  stop h := .inr ⟨h, Nat.le_refl _⟩
  stuck _ _ := trivial

/-- A lexer with a queue in order. -/
structure Queued (lexicon : Lexicon) (lone : Symbol) (l : Lexer) : Prop where
  lexicon : l.lexicon = lexicon
  order : l.pending.Pairwise (Token.Follows lone)
  behind : ∀ token ∈ l.pending, token.span.endOffset ≤ l.place.offset

/-- The queue of a match is in order. -/
theorem queued_of_take (hlone : lexicon.Lone lone) (hlexicon : l.lexicon = lexicon)
    {s : Selection} (hselect : l.lexicon.select l.mode l.ahead = some s) {tokens : List Token}
    (htake : l.take s = (.ok tokens, l')) :
    Queued lexicon lone { l' with pending := tokens } := by
  have hspan := span_of_take htake
  obtain ⟨rule, hrule, haction⟩ := exists_rule_of_select hselect
  have htail : ∀ u ∈ tokens.tail, u.kind ≠ lone :=
    (hlexicon ▸ take_ok htake).tail_ne hlone (haction ▸ hlone.mark rule (hlexicon ▸ hrule))
  refine ⟨(take_lexicon htake).trans hlexicon, ?_, ?_⟩
  · cases tokens with
    | nil => exact .nil
    | cons first later =>
        have hsame : ∀ t ∈ first :: later, ∀ u ∈ later, Token.Follows lone t u := fun t ht u hu =>
          .inl ⟨(hspan u (List.mem_cons_of_mem first hu)).trans (hspan t ht).symm, htail u hu⟩
        exact .cons (hsame first (List.mem_cons_self ..)) (List.pairwise_of_forall_mem_list
          fun t ht => hsame t (List.mem_cons_of_mem first ht))
  · intro u hu
    rw [hspan u hu]
    exact Nat.le_refl _

/-- The first token of a queue is followed by the others. -/
theorem Queued.handOut (h : Queued lexicon lone l) {t : Token} {later : List Token}
    (hpending : l.pending = t :: later) :
    Queued lexicon lone { l with pending := later } ∧ t.span.endOffset ≤ l.place.offset ∧
      ∀ u ∈ later, t.Follows lone u := by
  obtain ⟨hlexicon, horder, hbehind⟩ := h
  rw [hpending] at horder hbehind
  obtain ⟨hfirst, hlater⟩ := List.pairwise_cons.mp horder
  obtain ⟨hplace, hplaces⟩ := List.forall_mem_cons.mp hbehind
  exact ⟨⟨hlexicon, hlater, hplaces⟩, hplace, hfirst⟩

/-- A token that is handed out is followed by those that wait. -/
theorem Queued.next (hlone : lexicon.Lone lone) (h : Queued lexicon lone l) {t : Token}
    (hnext : l.next = (.ok (some t), l')) :
    Queued lexicon lone l' ∧ t.span.endOffset ≤ l'.place.offset ∧
      ∀ u ∈ l'.pending, t.Follows lone u := by
  cases hpending : l.pending with
  | cons first later =>
      rw [next_of_pending hpending] at hnext
      cases hnext
      exact h.handOut hpending
  | nil =>
      obtain ⟨l₁, action, hpasses, hstops⟩ := exists_stops_of_next hpending hnext
      obtain ⟨hlexicon, hempty⟩ := hpasses.unchanged
      rw [h.lexicon] at hlexicon
      rw [hpending] at hempty
      cases hstops with
      | stop =>
          exact ⟨⟨hlexicon, hempty ▸ .nil, hempty ▸ List.forall_mem_nil _⟩, Nat.le_refl _,
            hempty ▸ List.forall_mem_nil _⟩
      | emit _ hselect htake => exact (queued_of_take hlone hlexicon hselect htake).handOut rfl

/-- Tokens come out in order. -/
theorem Queued.feeds (hlone : lexicon.Lone lone) (h : Queued lexicon lone l) {tokens : List Token}
    (hfeeds : Automaton.Feeds l tokens l') : tokens.Pairwise (Token.Follows lone) := by
  induction hfeeds with
  | nil => exact .nil
  | @cons l l₁ l' t tokens hnext hrest ih =>
      obtain ⟨hl₁, hplace, hqueue⟩ := h.next hlone hnext
      refine .cons ?_ (ih hl₁)
      exact ((keeps_follows t).feeds hplace hqueue hrest).2.2

/-- All tokens of a source come out in order. -/
theorem follows_of_feeds (hlone : lexicon.Lone lone) {tokens : List Token}
    (h : Automaton.Feeds (start lexicon source) tokens l') :
    tokens.Pairwise (Token.Follows lone) :=
  Queued.feeds hlone ⟨rfl, .nil, List.forall_mem_nil _⟩ h

end Lexer

end Offside

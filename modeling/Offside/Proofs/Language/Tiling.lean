import Offside.Proofs.Language.Margins
import Offside.Proofs.Language.Marker
import Offside.Proofs.Lexer.Balance

/-! # Tilings — a text is cut into matches, and none of it is lost

    The matches of a lexer lie side by side, and each tells its text in its
    tokens or is white space.  So the tokens of a text give all of it back
    but for white space.

    * `Lossless` says what that means of the tokens and their spans;
    * `Tile` is what one match comes to, and `Tiled` lays tiles side by side;
    * `Tiled.lossless` goes from one to the other, tile by tile;
    * `lossless_of_tokenize` says it of every text that is made into tokens. -/

namespace Offside

open Offside.Language

/-! ## Tokens and the text -/

/-- What a token tells of the text that its span covers: all of it, all but the
    sign of a comment, or nothing. -/
inductive Token.Tells (text : List Char) (t : Token) : Prop
  | whole : t.kind ∈ [Kind.keyword, Kind.name, Kind.word, Kind.marker, Kind.indent] →
      t.text.toList = text → Token.Tells text t
  | comment : t.kind = Kind.comment → ';' :: t.text.toList = text → Token.Tells text t
  | silent : t.kind ∈ [Kind.newline, Kind.dedent, Kind.stop] → t.text = "" → Token.Tells text t

/-- A span covers a text of the source. -/
def Span.Holds (source text : List Char) (span : Span) : Prop :=
  ∃ front back, source = front ++ text ++ back ∧ span.startOffset = Text.bytes front ∧
    span.endOffset = Text.bytes (front ++ text)

/-- The byte at an offset belongs to a span. -/
def Span.HasByte (span : Span) (n : Nat) : Prop := span.startOffset ≤ n ∧ n < span.endOffset

/-- Tokens give all of a source back but for white space. -/
structure Lossless (source : List Char) (tokens : List Token) : Prop where
  inside : ∀ t ∈ tokens, t.span.startOffset ≤ t.span.endOffset ∧
    t.span.endOffset ≤ Text.bytes source
  ordered : tokens.Pairwise fun t u =>
    t.span = u.span ∨ t.span.endOffset ≤ u.span.startOffset
  /-- Bytes outside of all spans are those of white space. -/
  blank : ∀ {front back : List Char} {c : Char} {n : Nat}, source = front ++ c :: back →
    Text.bytes front ≤ n → n < Text.bytes (front ++ [c]) →
    (∀ t ∈ tokens, ¬ t.span.HasByte n) → Unicode.isSpace c = true
  told : ∀ t ∈ tokens, ∃ text, t.span.Holds source text ∧ t.Tells text
  /-- Only block ends share their span with tokens behind them. -/
  shared : tokens.Pairwise fun t u => t.span = u.span →
    t.kind = Kind.dedent ∧ u.kind ∈ [Kind.dedent, Kind.newline, Kind.marker]
  /-- Behind every block end there is a token with which it shares its span. -/
  closed : ∀ {front back : List Token} {t : Token}, tokens = front ++ t :: back →
    t.kind = Kind.dedent → ∃ u later, back = u :: later ∧ t.span = u.span

/-! ## Tiles -/

namespace Language

/-- What a match of a text comes to: nothing for white space, else one token
    that tells the text, with block ends in front of some of these. -/
inductive Tile (text : List Char) (span : Span) : List Token → Prop
  | blank : (∀ c ∈ text, Unicode.isSpace c = true) → Tile text span []
  | batch {levels : Nat} {last : Token} : last.span = span → last.Tells text →
      last.kind ≠ Kind.dedent → (levels ≠ 0 → last.kind ∈ [Kind.newline, Kind.marker]) →
      Tile text span (At.closing span levels last)

/-- One token is a batch without block ends. -/
theorem Tile.single {text : List Char} {span : Span} {t : Token} (hspan : t.span = span)
    (htells : t.Tells text) (hkind : t.kind ≠ Kind.dedent) : Tile text span [t] := by
  show Tile text span (At.closing span 0 t)
  exact .batch hspan htells hkind fun hlevels => absurd rfl hlevels

/-- A text is cut into pieces, each with its tile. -/
inductive Tiled : List Char → List Token → Prop
  | nil : Tiled [] []
  | snoc {front text : List Char} {all tokens : List Token} {span : Span} : Tiled front all →
      text ≠ [] → span.startOffset = Text.bytes front →
      span.endOffset = Text.bytes (front ++ text) → Tile text span tokens →
      Tiled (front ++ text) (all ++ tokens)

section

variable {text : List Char} {span : Span} {tokens : List Token}

theorem mem_closing {levels : Nat} {t last : Token} :
    t ∈ At.closing span levels last ↔
      (levels ≠ 0 ∧ t = ⟨Kind.dedent, "", span⟩) ∨ t = last := by
  rw [At.closing, List.mem_append, List.mem_singleton, Lexer.dedents, List.mem_replicate]

theorem Tile.span_eq (h : Tile text span tokens) : ∀ t ∈ tokens, t.span = span := by
  cases h with
  | blank => exact nofun
  | batch hspan =>
      intro t ht
      rcases mem_closing.mp ht with ⟨-, rfl⟩ | rfl
      · rfl
      · exact hspan

theorem Tile.tells (h : Tile text span tokens) : ∀ t ∈ tokens, t.Tells text := by
  cases h with
  | blank => exact nofun
  | batch _ htells =>
      intro t ht
      rcases mem_closing.mp ht with ⟨-, rfl⟩ | rfl
      · exact .silent (by simp) rfl
      · exact htells

/-- What comes to no token is white space. -/
theorem Tile.isSpace (h : Tile text span []) : ∀ c ∈ text, Unicode.isSpace c = true := by
  generalize htokens : [] = tokens at h
  cases h with
  | blank hspace => exact hspace
  | batch => exact absurd htokens.symm (List.append_ne_nil_of_right_ne_nil _ (List.cons_ne_nil _ _))

/-- In front of the last token of a tile there are block ends only. -/
theorem Tile.shared (h : Tile text span tokens) : tokens.Pairwise fun t u => t.span = u.span →
    t.kind = Kind.dedent ∧ u.kind ∈ [Kind.dedent, Kind.newline, Kind.marker] := by
  cases h with
  | blank => exact .nil
  | @batch levels last hspan _ _ hlast =>
      rw [At.closing, Lexer.dedents]
      refine List.pairwise_append.mpr ⟨?_, List.pairwise_singleton _ _, ?_⟩
      · exact List.pairwise_replicate.mpr (.inr fun _ => ⟨rfl, List.mem_cons_self ..⟩)
      · intro t ht u hu _
        obtain ⟨hlevels, rfl⟩ := List.mem_replicate.mp ht
        obtain rfl := List.mem_singleton.mp hu
        exact ⟨rfl, List.mem_cons_of_mem _ (hlast hlevels)⟩

/-- Behind a block end its tile goes on. -/
theorem Tile.closed (h : Tile text span tokens) {front back : List Token} {t : Token}
    (htokens : tokens = front ++ t :: back) (ht : t.kind = Kind.dedent) :
    ∃ u later, back = u :: later ∧ t.span = u.span := by
  have hspan := h.span_eq
  cases h with
  | blank => exact absurd htokens.symm (List.append_ne_nil_of_right_ne_nil _ (List.cons_ne_nil _ _))
  | batch _ _ hlast =>
      cases back with
      | nil =>
          obtain ⟨-, rfl⟩ := List.append_singleton_inj.mp htokens
          exact absurd ht hlast
      | cons u later =>
          rw [htokens] at hspan
          refine ⟨u, later, rfl, (hspan t ?_).trans (hspan u ?_).symm⟩
          · simp
          · simp

end

end Language

/-! ## Side by side -/

section

variable {source front text : List Char} {span : Span} {all tokens : List Token}

theorem Span.Holds.append (h : span.Holds source text) (more : List Char) :
    span.Holds (source ++ more) text := by
  obtain ⟨front, back, rfl, hstart, hstop⟩ := h
  exact ⟨front, back ++ more, List.append_assoc .., hstart, hstop⟩

namespace Lossless

theorem nil : Lossless [] [] where
  inside := nofun
  ordered := .nil
  blank h := absurd h.symm (List.append_ne_nil_of_right_ne_nil _ (List.cons_ne_nil _ _))
  told := nofun
  shared := .nil
  closed h := absurd h.symm (List.append_ne_nil_of_right_ne_nil _ (List.cons_ne_nil _ _))

/-- A tile behind a text loses nothing, if it has its span for itself. -/
theorem append (h : Lossless front all) (hfresh : ∀ t ∈ all, t.span ≠ span)
    (hstart : span.startOffset = Text.bytes front)
    (hstop : span.endOffset = Text.bytes (front ++ text)) (htile : Tile text span tokens) :
    Lossless (front ++ text) (all ++ tokens) where
  inside := by
    have hle : Text.bytes front ≤ Text.bytes (front ++ text) := by
      rw [Text.bytes_append]
      exact Nat.le_add_right ..
    refine List.forall_mem_append.mpr ⟨fun t ht => ?_, fun t ht => ?_⟩
    · exact ⟨(h.inside t ht).1, Nat.le_trans (h.inside t ht).2 hle⟩
    · rw [htile.span_eq t ht, hstart, hstop]
      exact ⟨hle, Nat.le_refl _⟩
  ordered := by
    refine List.pairwise_append.mpr ⟨h.ordered, ?_, fun t ht u hu => .inr ?_⟩
    · exact List.pairwise_of_forall_mem_list fun t ht u hu =>
        .inl ((htile.span_eq t ht).trans (htile.span_eq u hu).symm)
    · rw [htile.span_eq u hu, hstart]
      exact (h.inside t ht).2
  blank := by
    intro before back c n hsource hle hlt hout
    obtain ⟨hall, htokens⟩ := List.forall_mem_append.mp hout
    rcases append_eq_append_cons hsource with ⟨rest, hfront, -⟩ | ⟨first, rfl, htext⟩
    · exact h.blank hfront hle hlt hall
    · cases tokens with
      | nil => exact htile.isSpace c (by simp [htext])
      | cons t later =>
          -- the span of a tile with tokens covers all of its text
          have hmem : t ∈ t :: later := List.mem_cons_self ..
          have hbyte : t.span.HasByte n := by
            rw [Span.HasByte, htile.span_eq t hmem, hstart, hstop, htext]
            simp only [Text.bytes_append, Text.bytes_cons, Text.bytes_nil] at hle hlt ⊢
            omega
          exact absurd hbyte (htokens t hmem)
  told := by
    refine List.forall_mem_append.mpr ⟨fun t ht => ?_, fun t ht => ?_⟩
    · obtain ⟨told, hholds, htells⟩ := h.told t ht
      exact ⟨told, hholds.append text, htells⟩
    · refine ⟨text, ?_, htile.tells t ht⟩
      rw [htile.span_eq t ht]
      exact ⟨front, [], (List.append_nil _).symm, hstart, hstop⟩
  shared := by
    refine List.pairwise_append.mpr ⟨h.shared, htile.shared, fun t ht u hu hsame => ?_⟩
    exact absurd (hsame.trans (htile.span_eq u hu)) (hfresh t ht)
  closed := by
    intro before back t htokens ht
    rcases append_eq_append_cons htokens with ⟨rest, hall, rfl⟩ | ⟨first, -, hnew⟩
    · obtain ⟨u, later, rfl, hsame⟩ := h.closed hall ht
      exact ⟨u, later ++ tokens, rfl, hsame⟩
    · exact htile.closed hnew ht

end Lossless

/-- Tiles lie side by side, and none of them is empty. -/
theorem Language.Tiled.lossless (h : Tiled front all) :
    Lossless front all ∧ ∀ t ∈ all, t.span.startOffset < t.span.endOffset := by
  induction h with
  | nil => exact ⟨.nil, nofun⟩
  | @snoc front text all tokens span _ hne hstart hstop htile ih =>
      obtain ⟨hlossless, hpositive⟩ := ih
      have hlt : span.startOffset < span.endOffset := by
        rw [hstart, hstop, Text.bytes_append]
        exact Nat.lt_add_of_pos_right (Text.bytes_pos hne)
      have hfresh : ∀ t ∈ all, t.span ≠ span := by
        rintro t ht rfl
        exact absurd (hstart ▸ hlt) (Nat.not_lt.mpr (hlossless.inside t ht).2)
      refine ⟨hlossless.append hfresh hstart hstop htile, ?_⟩
      refine List.forall_mem_append.mpr ⟨hpositive, fun t ht => ?_⟩
      rw [htile.span_eq t ht]
      exact hlt

end

namespace Language

/-! ## The lexer -/

/-- A token that tells all of its text tiles it. -/
theorem Tile.whole {kind : Symbol}
    (hkind : kind ∈ [Kind.keyword, Kind.name, Kind.word, Kind.marker, Kind.indent])
    (text : List Char) (span : Span) : Tile text span [⟨kind, String.ofList text, span⟩] := by
  have hdedent : ∀ k ∈ [Kind.keyword, Kind.name, Kind.word, Kind.marker, Kind.indent],
      k ≠ Kind.dedent := by decide
  exact .single rfl (.whole hkind String.toList_ofList) (hdedent kind hkind)

/-- A match comes to a tile. -/
theorem Lexeme.Formed.tile {x : Lexeme} (hx : x.Formed) {marker : String} {i : Indentation}
    {span : Span} {scanned : Lexer.Scanned}
    (h : Lexer.perform (lexiconFor marker) i x.action x.text span x.width = .ok scanned) :
    Tile x.text span scanned.tokens := by
  have hnewline : (⟨Kind.newline, "", span⟩ : Token).Tells x.text := .silent (by simp) rfl
  cases hx with
  | @remark text =>
      rw [Lexer.perform, stripped_remark] at h
      cases h
      exact .single rfl (.comment rfl (congrArg (';' :: ·) String.toList_ofList)) (by simp)
  | keyword | name | word =>
      cases h
      exact .whole (by simp) _ span
  | marker text =>
      simp only [Lexer.perform, Lexer.batch_concat, lexiconFor, Indentation.closeAll] at h
      split at h
      next =>
        cases h
        exact .whole (by simp) _ span
      next hnone => cases hnone
      next hsome =>
        cases hsome
        cases h
        exact .batch rfl (.whole (by simp) String.toList_ofList) (by simp) fun _ => by simp
  | opening n =>
      simp only [Lexer.perform, lexiconFor] at h
      split at h
      next => cases h
      next =>
        cases h
        exact .whole (by simp) _ span
  | lineBreak n =>
      simp only [Lexer.perform, Lexer.batch_concat, lexiconFor] at h
      split at h
      next => cases h
      next =>
        cases h
        exact .single rfl hnewline (by simp)
      next =>
        cases h
        exact .batch rfl hnewline (by simp) fun _ => List.mem_cons_self ..
      next =>
        -- a deeper line comes to no token, and its indentation is white space
        cases h
        refine .blank (List.forall_mem_cons.mpr ⟨by decide, fun c hc => ?_⟩)
        exact (Bool.and_eq_true_iff.mp (isBlank_of_mem_indentation hc)).1
  | skip hblank =>
      cases h
      exact .blank fun c hc => (Bool.and_eq_true_iff.mp (hblank c hc)).1

/-- A lexer of the language that has laid tiles up to its place. -/
structure Paves (marker : String) (source : List Char) (all : List Token) (l : Lexer) : Prop where
  serving : Serving marker l
  tiled : ∃ front, source = front ++ l.ahead ∧ l.place = Place.start.after front ∧
    Tiled front all

namespace Paves

variable {marker : String} {source : List Char} {all tokens : List Token} {l l' : Lexer}

theorem start (marker : String) (source : List Char) :
    Paves marker source [] (Lexer.start (lexiconFor marker) source) :=
  ⟨Serving.start marker source, [], rfl, rfl, .nil⟩

/-- One match lays one tile. -/
theorem take (h : Paves marker source all l) {s : Selection}
    (hselect : l.lexicon.select l.mode l.ahead = some s) (htake : l.take s = (.ok tokens, l')) :
    Paves marker source (all ++ tokens) l' := by
  obtain ⟨hserving, front, hsource, hplace, htiled⟩ := h
  obtain ⟨x, hscan, hcut, hplace', hperform⟩ :=
    hserving.exists_cut hselect htake hsource hplace
  have htile := (scanner_formed hscan).tile hperform
  refine ⟨hserving.take htake, front ++ x.text, hcut, hplace', ?_⟩
  refine htiled.snoc (text_of_scanner hscan).1 ?_ ?_ htile
  · show l.place.offset = _
    rw [hplace, Place.offset_start_after]
  · show l'.place.offset = _
    rw [hplace', Place.offset_start_after]

/-- At the end of the source the end symbol tells that nothing is left. -/
theorem lossless (h : Paves marker source all l) (hahead : l.ahead = []) :
    Lossless source (all ++ [⟨l.lexicon.endSymbol, "", l.place.point⟩]) := by
  obtain ⟨hserving, front, hsource, hplace, htiled⟩ := h
  obtain ⟨hlossless, hpositive⟩ := htiled.lossless
  rw [hahead] at hsource
  have hstop : l.place.point.startOffset = Text.bytes front := by
    show l.place.offset = _
    rw [hplace, Place.offset_start_after]
  have htile : Tile [] l.place.point [⟨l.lexicon.endSymbol, "", l.place.point⟩] := by
    rw [hserving.lexicon]
    exact .single rfl (.silent (by simp [lexiconFor]) rfl) (by simp [lexiconFor])
  rw [hsource]
  refine hlossless.append (fun t ht hspan => ?_) hstop ?_ htile
  · -- the end symbol stands on no text, unlike the others
    have hlt := hpositive t ht
    rw [hspan] at hlt
    exact absurd hlt (Nat.lt_irrefl _)
  · rw [List.append_nil]
    exact hstop

end Paves

/-- **No text is lost.**  Whatever the end marker is, the tokens of a text give
    all of it back but for white space. -/
theorem lossless_of_tokenize (marker : String) : ∃ l, withMarker marker = .ok l ∧
    ∀ source tokens, l.tokenize source = .ok tokens → Lossless source.toList tokens := by
  refine ⟨_, withMarker_eq marker, fun source tokens htokens => ?_⟩
  obtain ⟨l', hfeeds, hmore⟩ := supplies_of_tokenize htokens
  have hstart : Paves marker source.toList
      ([] ++ (Lexer.start (lexiconFor marker) source.toList).pending) _ :=
    Paves.start marker source.toList
  obtain ⟨matched, l, rfl, hahead, hpaves⟩ := Lexer.exists_end_of_feeds
    (fun _ h => ⟨⟨h.serving.lexicon, h.serving.mode⟩, h.tiled⟩)
    (fun h hselect htake => h.take hselect htake) hstart rfl hfeeds hmore
  exact hpaves.lossless hahead

/-- A comment, two blocks that end together, white space that is not ASCII
    before a line that comes to nothing, and a marker behind an open block. -/
def tiledText : String :=
  ";a\nmodule a.b:\n    c:\n        d\u00a0\n            \ne:\n    f\nΩ"

/-- The tokens of that text. -/
def tiledTokens : List Token := [
  ⟨Kind.comment, "a", ⟨0, 2, 1, 1, 0, 2⟩⟩, ⟨Kind.newline, "", ⟨2, 3, 1, 2, 2, 0⟩⟩,
  ⟨Kind.keyword, "module", ⟨3, 9, 2, 2, 0, 6⟩⟩, ⟨Kind.name, "a.b", ⟨10, 13, 2, 2, 7, 10⟩⟩,
  ⟨Kind.indent, ":\n    ", ⟨13, 19, 2, 3, 10, 4⟩⟩, ⟨Kind.word, "c", ⟨19, 20, 3, 3, 4, 5⟩⟩,
  ⟨Kind.indent, ":\n        ", ⟨20, 30, 3, 4, 5, 8⟩⟩, ⟨Kind.word, "d", ⟨30, 31, 4, 4, 8, 9⟩⟩,
  ⟨Kind.dedent, "", ⟨46, 47, 5, 6, 12, 0⟩⟩, ⟨Kind.dedent, "", ⟨46, 47, 5, 6, 12, 0⟩⟩,
  ⟨Kind.newline, "", ⟨46, 47, 5, 6, 12, 0⟩⟩, ⟨Kind.word, "e", ⟨47, 48, 6, 6, 0, 1⟩⟩,
  ⟨Kind.indent, ":\n    ", ⟨48, 54, 6, 7, 1, 4⟩⟩, ⟨Kind.word, "f", ⟨54, 55, 7, 7, 4, 5⟩⟩,
  ⟨Kind.dedent, "", ⟨55, 58, 7, 8, 5, 2⟩⟩, ⟨Kind.marker, "\nΩ", ⟨55, 58, 7, 8, 5, 2⟩⟩,
  ⟨Kind.stop, "", .point 58 8 2⟩]

theorem lossless_tiledText : ∃ l, withMarker "Ω" = .ok l ∧
    l.tokenize tiledText = .ok tiledTokens ∧ Lossless tiledText.toList tiledTokens := by
  obtain ⟨l, hl, hlossless⟩ := lossless_of_tokenize "Ω"
  have htokens : l.tokenize tiledText = .ok tiledTokens := by
    obtain rfl := Except.ok.inj (hl.symm.trans (withMarker_eq _))
    decide +kernel
  exact ⟨l, hl, htokens, hlossless _ _ htokens⟩

end Language

end Offside

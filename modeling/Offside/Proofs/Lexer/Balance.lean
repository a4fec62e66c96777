import Offside.Proofs.Language.Marker
import Offside.Proofs.Lexer.Rounds

/-! # Balance — block ends against the blocks that are open

    The indentation moves at once when blocks close, while their ends are
    handed out one by one.  The difference waits in the queue, and it does so
    whatever a caller asks of a lexer, also after a fault.

    * `Session` is a lexer in use, with all that it has handed out;
    * `Balanced` weighs what was handed out against the open blocks;
    * `balanced_run` says that this holds all along. -/

namespace Offside

namespace Lexer

/-- What a caller may ask of a lexer. -/
inductive Call where
  | next
  | pushMode (mode : String)
  | popMode
deriving DecidableEq, Repr

/-- The action of the match that ends a look for a token, if the look does
    end with a match; the rounds are those of `scan`. -/
def originWithin : List Char → Lexer → Option (RuleAction Symbol)
  | bound, l =>
    match l.ahead with
    | [] => none
    | _ :: _ =>
        match l.lexicon.select l.mode l.ahead with
        | none => none
        | some s =>
            match l.take s with
            | (.error _, _) => none
            | (.ok (_ :: _), _) => some s.action
            | (.ok [], l) =>
                match bound with
                | [] => none
                | _ :: fewer => originWithin fewer l

/-- The action of the match that the next token comes from, if the queue is
    empty and the token is not the end symbol. -/
def origin (l : Lexer) : Option (RuleAction Symbol) := originWithin l.ahead l

theorem originWithin_eq {l l' : Lexer} {action : Option (RuleAction Symbol)}
    {r : Except Fault (Option Token) × Lexer} (hpasses : Passes l l') (hstops : Stops l' action r)
    {bound : List Char} (hbound : l.ahead.length ≤ bound.length) :
    originWithin bound l = action := by
  induction hpasses generalizing bound with
  | refl l =>
      rw [originWithin]
      cases hstops with
      | ended hahead | stop hahead => rw [hahead]
      | stuck hahead hselect => split <;> simp only [hselect]
      | fault hne hselect htake | emit hne hselect htake =>
          split
          next hnil => exact absurd hnil hne
          next => simp only [hselect, htake]
  | step hne hselect htake _ ih =>
      have hshorter := (take_ahead htake hselect hne).1
      cases bound with
      | nil =>
          have hpos := List.length_pos_iff.mpr hne
          exact absurd (Nat.lt_of_lt_of_le hpos hbound) (Nat.lt_irrefl 0)
      | cons x fewer =>
          rw [originWithin]
          split
          next hnil => exact absurd hnil hne
          next =>
            simp only [hselect, htake]
            exact ih hstops (Nat.le_of_lt_succ (Nat.lt_of_lt_of_le hshorter hbound))

/-- The origin of the next token is the action that a look for it ends with. -/
theorem exists_stops_origin {l : Lexer} (hpending : l.pending = []) :
    ∃ l', Passes l l' ∧ Stops l' l.origin l.next := by
  obtain ⟨l', action, hpasses, hstops⟩ := exists_stops_of_next hpending rfl
  have horigin : l.origin = action := originWithin_eq hpasses hstops (Nat.le_refl _)
  exact ⟨l', hpasses, horigin ▸ hstops⟩

end Lexer

/-! ## Sessions -/

/-- A token that was handed out, with the action of the match it comes from;
    the end symbol comes from none. -/
structure Handed where
  token : Token
  action : Option (RuleAction Symbol)
deriving DecidableEq, Repr

/-- A lexer in use. -/
structure Session where
  lexer : Lexer
  /-- Where the tokens in the queue come from. -/
  action : Option (RuleAction Symbol)
  /-- All tokens so far. -/
  handed : List Handed
deriving DecidableEq, Repr

namespace Session

/-- A lexer that has not been asked for anything. -/
def start (lexicon : Lexicon) (source : List Char) : Session := ⟨.start lexicon source, none, []⟩

/-- A call; one that fails hands out nothing. -/
def call (s : Session) : Lexer.Call → Session
  | .next =>
      match s.lexer.next with
      | (.ok (some token), lexer) =>
          let action := if s.lexer.pending.isEmpty then s.lexer.origin else s.action
          ⟨lexer, action, s.handed ++ [⟨token, action⟩]⟩
      | (.ok none, lexer) => { s with lexer := lexer }
      | (.error _, lexer) => { s with lexer := lexer }
  | .pushMode mode => { s with lexer := s.lexer.pushMode mode }
  | .popMode => { s with lexer := s.lexer.popMode.2 }

/-- Calls, one after the other. -/
def run (s : Session) (calls : List Lexer.Call) : Session := calls.foldl call s

end Session

/-! ## Counting kinds -/

/-- How often tokens are of a kind. -/
def Symbol.countIn (kind : Symbol) (tokens : List Token) : Nat := (tokens.map (·.kind)).count kind

/-- How often tokens that were handed out are of a kind. -/
def Symbol.countOf (kind : Symbol) (handed : List Handed) : Nat :=
  kind.countIn (handed.map (·.token))

namespace Symbol

variable {kind : Symbol}

theorem countIn_nil : kind.countIn [] = 0 := rfl

theorem countIn_cons (kind : Symbol) (token : Token) (tokens : List Token) :
    kind.countIn (token :: tokens) = kind.countIn [token] + kind.countIn tokens := by
  rw [countIn, countIn, countIn, List.map_cons, ← List.singleton_append, List.count_append]
  rfl

theorem countIn_append (ts us : List Token) :
    kind.countIn (ts ++ us) = kind.countIn ts + kind.countIn us := by
  rw [countIn, List.map_append, List.count_append, countIn, countIn]

theorem countIn_self {token : Token} (h : token.kind = kind) : kind.countIn [token] = 1 := by
  rw [countIn, List.map_singleton, h, List.count_singleton_self]

theorem countIn_other {token : Token} (h : token.kind ≠ kind) : kind.countIn [token] = 0 := by
  rw [countIn, List.map_singleton, List.count_eq_zero, List.mem_singleton]
  exact Ne.symm h

theorem countIn_tail {tokens : List Token} (h : kind.countIn tokens = 0) :
    kind.countIn tokens.tail = 0 := by
  cases tokens with
  | nil => rfl
  | cons token tokens =>
      rw [countIn_cons] at h
      exact Nat.eq_zero_of_add_eq_zero_left h

/-- Block ends with a last token behind them. -/
theorem countIn_dedents (structural : Structural Symbol) (span : Span) (levels : Nat)
    {last : Token} (h : last.kind ≠ structural.dedent) :
    structural.dedent.countIn (Lexer.dedents structural span levels ++ [last]) = levels := by
  rw [countIn_append, countIn_other h, countIn, Lexer.dedents, List.map_replicate,
    List.count_replicate_self]
  rfl

theorem countIn_dedents_other {structural : Structural Symbol} (hkind : structural.dedent ≠ kind)
    (span : Span) (levels : Nat) {last : Token} (h : last.kind ≠ kind) :
    kind.countIn (Lexer.dedents structural span levels ++ [last]) = 0 := by
  rw [countIn_append, countIn_other h, countIn, Lexer.dedents, List.map_replicate]
  refine List.count_eq_zero.mpr fun hmem => ?_
  exact hkind (List.eq_of_mem_replicate hmem).symm

theorem countOf_concat (handed : List Handed) (x : Handed) :
    kind.countOf (handed ++ [x]) = kind.countOf handed + kind.countIn [x.token] := by
  rw [countOf, List.map_append, countIn_append]
  rfl

end Symbol

/-! ## What balance rests on -/

/-- The kinds of block starts, block ends and line separators are given and
    stand for nothing else. -/
structure Lexicon.Separates (l : Lexicon) (ids : Structural Symbol) : Prop where
  structural : ∀ structural, l.structural = some structural → structural = ids
  indent_ne_dedent : ids.indent ≠ ids.dedent
  newline : ids.newline ≠ ids.indent ∧ ids.newline ≠ ids.dedent
  endSymbol : l.endSymbol ≠ ids.indent ∧ l.endSymbol ≠ ids.dedent
  kinds : ∀ rule ∈ l.rules, ∀ kind, rule.action.kind? = some kind →
    kind ≠ ids.indent ∧ kind ≠ ids.dedent

/-- Block ends and one more token. -/
def EndsThenLast (ids : Structural Symbol) (tokens : List Token) : Prop :=
  ∃ ends last, tokens = ends ++ [last] ∧ ∀ token ∈ ends, token.kind = ids.dedent

namespace EndsThenLast

variable {ids : Structural Symbol} {token : Token} {tokens : List Token}

/-- What is no block end is the last. -/
theorem eq_nil (h : EndsThenLast ids (token :: tokens)) (htoken : token.kind ≠ ids.dedent) :
    tokens = [] := by
  obtain ⟨ends, last, heq, hends⟩ := h
  cases ends with
  | nil => exact (List.cons.inj heq).2
  | cons first ends =>
      obtain rfl : token = first := (List.cons.inj heq).1
      exact absurd (hends token (List.mem_cons_self ..)) htoken

theorem tail (h : EndsThenLast ids (token :: tokens)) (hne : tokens ≠ []) :
    EndsThenLast ids tokens := by
  obtain ⟨ends, last, heq, hends⟩ := h
  cases ends with
  | nil => exact absurd (List.cons.inj heq).2 hne
  | cons first ends =>
      exact ⟨ends, last, (List.cons.inj heq).2, fun token htoken =>
        hends token (List.mem_cons_of_mem first htoken)⟩

end EndsThenLast

/-- Tokens that are due together, by the blocks that are open before and
    behind their match. -/
structure Batch (ids : Structural Symbol) (action : RuleAction Symbol) (tokens : List Token)
    (before after : Nat) : Prop where
  counts : ids.indent.countIn tokens + before = ids.dedent.countIn tokens + after
  /-- Only the first of them can be a block start. -/
  later : ids.indent.countIn tokens.tail = 0
  /-- The mark of the end of the input comes last, when no block is open. -/
  mark : ∀ kind, action = .endOfInput kind →
    kind ≠ ids.dedent ∧ after = 0 ∧ EndsThenLast ids tokens

/-- The tokens of a match make up for the blocks that it opens and closes. -/
theorem Lexer.Outcome.batch {lexicon : Lexicon} {ids : Structural Symbol} {i : Indentation}
    {span : Span} {width : Nat} {action : RuleAction Symbol} {scanned : Scanned}
    (h : Outcome lexicon i span width action scanned) (hids : lexicon.Separates ids)
    (hkind : ∀ kind, action.kind? = some kind → kind ≠ ids.indent ∧ kind ≠ ids.dedent) :
    Batch ids action scanned.tokens i.depth scanned.indentation.depth := by
  cases h with
  | single text haction hsingle =>
      obtain ⟨hindent, hdedent⟩ := hkind _ haction
      refine ⟨?_, rfl, ?_⟩
      · rw [Symbol.countIn_other hindent, Symbol.countIn_other hdedent]
      · rintro kind rfl
        exact nomatch hsingle
  | @closing structural kind text hstructural =>
      obtain ⟨hindent, hdedent⟩ := hkind _ rfl
      have hclosed : i.closeAll.2.depth = 0 := i.depth_closeAll
      -- without a block to close it does not matter what the ends are
      have hends : dedents structural span i.depth = dedents ids span i.depth := by
        rcases hstructural with hstructural | hdepth
        · rw [hids.structural _ hstructural]
        · rw [hdepth]; rfl
      rw [hends]
      have hstarts : ids.indent.countIn (dedents ids span i.depth ++ [⟨kind, text, span⟩]) = 0 :=
        Symbol.countIn_dedents_other hids.indent_ne_dedent.symm span i.depth hindent
      refine ⟨?_, Symbol.countIn_tail hstarts, ?_⟩
      · dsimp only
        rw [hstarts, Symbol.countIn_dedents ids span i.depth hdedent, hclosed, Nat.zero_add]
        rfl
      · rintro _ ⟨⟩
        exact ⟨hdedent, hclosed, _, _, rfl, fun token htoken =>
          congrArg Token.kind (List.eq_of_mem_replicate htoken)⟩
  | @opening structural _ text hstructural hopen =>
      obtain rfl := hids.structural _ hstructural
      refine ⟨?_, rfl, nofun⟩
      have hstart : structural.indent.countIn [⟨structural.indent, text, span⟩] = 1 :=
        Symbol.countIn_self rfl
      dsimp only
      rw [hstart, Symbol.countIn_other hids.indent_ne_dedent, Indentation.depth_openBlock hopen]
      omega
  | same hstructural =>
      obtain rfl := hids.structural _ hstructural
      refine ⟨?_, rfl, nofun⟩
      rw [Symbol.countIn_other hids.newline.1, Symbol.countIn_other hids.newline.2]
  | @outward structural levels j hstructural hbreak =>
      obtain rfl := hids.structural _ hstructural
      have hdepth : j.depth + levels = i.depth := Indentation.depth_lineBreak hbreak
      have hstarts : structural.indent.countIn
          (dedents structural span levels ++ [⟨structural.newline, "", span⟩]) = 0 :=
        Symbol.countIn_dedents_other hids.indent_ne_dedent.symm span levels hids.newline.1
      refine ⟨?_, Symbol.countIn_tail hstarts, nofun⟩
      dsimp only
      rw [hstarts, Symbol.countIn_dedents structural span levels hids.newline.2]
      omega
  | deeper | skip => exact ⟨rfl, rfl, nofun⟩

/-! ## Sessions in balance -/

/-- Block starts, block ends and the queue of a session agree with the blocks
    that are open. -/
structure Session.Balanced (ids : Structural Symbol) (s : Session) : Prop where
  /-- The starts are the ends and the open blocks, and the ends that wait. -/
  counts : ids.indent.countOf s.handed =
    ids.dedent.countOf s.handed + s.lexer.indentation.depth + ids.dedent.countIn s.lexer.pending
  /-- No block ends before it starts. -/
  fronts : ∀ front, front <+: s.handed → ids.dedent.countOf front ≤ ids.indent.countOf front
  /-- At a mark of the end of the input every block has ended. -/
  marks : ∀ front x kind, front ++ [x] <+: s.handed → x.action = some (.endOfInput kind) →
    x.token.kind = kind → ids.indent.countOf (front ++ [x]) = ids.dedent.countOf (front ++ [x])

namespace Session

variable {ids : Structural Symbol} {lexicon : Lexicon}

/-- A session in balance, with what its queue can hold. -/
structure Sound (ids : Structural Symbol) (lexicon : Lexicon) (s : Session) : Prop where
  /-- Without structural terminals no block is open. -/
  bare : lexicon.structural = none → s.lexer.indentation.depth = 0
  lexicon : s.lexer.lexicon = lexicon
  balanced : s.Balanced ids
  noStart : ids.indent.countIn s.lexer.pending = 0
  mark : ∀ kind, s.action = some (.endOfInput kind) → s.lexer.pending ≠ [] →
    kind ≠ ids.dedent ∧ s.lexer.indentation.depth = 0 ∧ EndsThenLast ids s.lexer.pending

theorem sound_start (source : List Char) : Sound ids lexicon (start lexicon source) where
  bare _ := rfl
  lexicon := rfl
  balanced := {
    counts := rfl
    fronts := by
      intro front hfront
      rw [List.prefix_nil.mp hfront]
      exact Nat.le_refl _
    marks := by
      intro front x kind hfront
      exact absurd (List.prefix_nil.mp hfront) (List.append_ne_nil_of_right_ne_nil _ nofun) }
  noStart := rfl
  mark := nofun

/-- Handing out the first of the tokens that are due keeps the balance. -/
theorem sound_handOut {s : Session} {l : Lexer} {action : Option (RuleAction Symbol)}
    {token : Token} (hs : s.Balanced ids) (hlexicon : l.lexicon = lexicon)
    (hcounts : ids.indent.countOf s.handed + ids.indent.countIn (token :: l.pending) =
      ids.dedent.countOf s.handed + ids.dedent.countIn (token :: l.pending) + l.indentation.depth)
    (hlater : ids.indent.countIn l.pending = 0)
    (hmark : ∀ kind, action = some (.endOfInput kind) →
      kind ≠ ids.dedent ∧ l.indentation.depth = 0 ∧ EndsThenLast ids (token :: l.pending))
    (hbare : lexicon.structural = none → l.indentation.depth = 0) :
    Sound ids lexicon ⟨l, action, s.handed ++ [⟨token, action⟩]⟩ := by
  rw [ids.indent.countIn_cons, ids.dedent.countIn_cons] at hcounts
  have hnow : ids.indent.countOf (s.handed ++ [⟨token, action⟩]) =
      ids.dedent.countOf (s.handed ++ [⟨token, action⟩]) + l.indentation.depth +
        ids.dedent.countIn l.pending := by
    rw [Symbol.countOf_concat, Symbol.countOf_concat]
    dsimp only
    omega
  refine ⟨hbare, hlexicon, ⟨hnow, ?_, ?_⟩, hlater, ?_⟩
  · intro front hfront
    rcases List.prefix_concat_iff.mp hfront with rfl | hfront
    · omega
    · exact hs.fronts front hfront
  · intro front x kind hfront haction hkind
    rcases List.prefix_concat_iff.mp hfront with heq | hfront
    · obtain ⟨rfl, heq'⟩ := List.append_inj' heq rfl
      obtain rfl : x = ⟨token, action⟩ := List.singleton_inj.mp heq'
      obtain ⟨hdedent, hdepth, hdue⟩ := hmark kind haction
      -- the mark comes behind all the ends that were due with it
      have hnil : l.pending = [] := hdue.eq_nil (hkind ▸ hdedent)
      rw [hnow, hdepth, hnil]
      rfl
    · exact hs.marks front x kind hfront haction hkind
  · intro kind haction hne
    obtain ⟨hdedent, hdepth, hdue⟩ := hmark kind haction
    exact ⟨hdedent, hdepth, hdue.tail hne⟩

/-- A lexer that has moved on without a token, as far as balance sees it. -/
theorem Sound.moved {s : Session} (h : s.Sound ids lexicon) {l : Lexer}
    (hlexicon : l.lexicon = lexicon) (hdepth : l.indentation.depth = s.lexer.indentation.depth)
    (hpending : l.pending = s.lexer.pending) : Sound ids lexicon { s with lexer := l } := by
  refine ⟨fun hnone => hdepth.trans (h.bare hnone), hlexicon,
    ⟨?_, h.balanced.fronts, h.balanced.marks⟩, ?_, ?_⟩
  · show _ = _ + l.indentation.depth + ids.dedent.countIn l.pending
    rw [hdepth, hpending]
    exact h.balanced.counts
  · show ids.indent.countIn l.pending = 0
    rw [hpending]
    exact h.noStart
  · intro kind haction hne
    show _ ∧ l.indentation.depth = 0 ∧ EndsThenLast ids l.pending
    rw [hdepth, hpending]
    exact h.mark kind haction (hpending ▸ hne)

theorem batch_of_take (hids : lexicon.Separates ids) {l l' : Lexer} {s : Selection}
    {tokens : List Token} (hlexicon : l.lexicon = lexicon)
    (hselect : l.lexicon.select l.mode l.ahead = some s) (htake : l.take s = (.ok tokens, l')) :
    Batch ids s.action tokens l.indentation.depth l'.indentation.depth ∧
      l'.lexicon = lexicon ∧ l'.pending = l.pending := by
  obtain ⟨rule, hrule, haction⟩ := Lexer.exists_rule_of_select hselect
  refine ⟨(Lexer.take_ok htake).batch (hlexicon ▸ hids) fun kind hkind => ?_,
    (Lexer.take_lexicon htake).trans hlexicon, ?_⟩
  · exact hids.kinds rule (hlexicon ▸ hrule) kind (haction ▸ hkind)
  · rw [Lexer.take_passes htake]
    rfl

/-- Matches that come to no token open no block and close none. -/
theorem depth_of_passes (hids : lexicon.Separates ids) {l l' : Lexer}
    (h : Lexer.Passes l l') (hlexicon : l.lexicon = lexicon) :
    l'.indentation.depth = l.indentation.depth := by
  refine (h.keeps (P := fun l' => l'.lexicon = lexicon ∧
    l'.indentation.depth = l.indentation.depth) ?_ ⟨hlexicon, rfl⟩).2
  intro l₁ l₂ s _ hselect htake hl₁
  obtain ⟨hlexicon₁, hdepth₁⟩ := hl₁
  obtain ⟨hbatch, hlexicon₂, -⟩ := batch_of_take hids hlexicon₁ hselect htake
  have hcounts := hbatch.counts
  rw [Symbol.countIn_nil, Symbol.countIn_nil] at hcounts
  exact ⟨hlexicon₂, by omega⟩

theorem sound_next (hids : lexicon.Separates ids) {s : Session} (h : s.Sound ids lexicon) :
    (s.call .next).Sound ids lexicon := by
  cases hpending : s.lexer.pending with
  | cons token tokens =>
      rw [call, Lexer.next_of_pending hpending]
      have hcounts := h.balanced.counts
      have hstarts := h.noStart
      rw [hpending] at hcounts hstarts
      refine sound_handOut h.balanced h.lexicon ?_ ?_ ?_ h.bare
      · dsimp only
        omega
      · exact Symbol.countIn_tail hstarts
      · rw [hpending]
        intro kind haction
        have hmark := h.mark kind haction (hpending ▸ List.cons_ne_nil token tokens)
        rwa [hpending] at hmark
  | nil =>
      obtain ⟨l', hpasses, hstops⟩ := Lexer.exists_stops_origin hpending
      have hdepth := depth_of_passes hids hpasses h.lexicon
      have hbare : lexicon.structural = none → l'.indentation.depth = 0 := fun hnone =>
        hdepth.trans (h.bare hnone)
      obtain ⟨hlexicon, hqueue⟩ := hpasses.unchanged
      rw [h.lexicon] at hlexicon
      rw [call, hpending]
      have hcounts := h.balanced.counts
      rw [hpending, Symbol.countIn_nil, Nat.add_zero] at hcounts
      generalize s.lexer.origin = action at hstops ⊢
      generalize s.lexer.next = r at hstops ⊢
      cases hstops with
      | ended | stuck => exact h.moved hlexicon hdepth hqueue
      | stop =>
          -- the end symbol is no part of the blocks
          refine sound_handOut h.balanced hlexicon ?_ ?_ nofun hbare
          · rw [hqueue, hpending]
            obtain ⟨hindent, hdedent⟩ := hids.endSymbol
            rw [← hlexicon] at hindent hdedent
            rw [Symbol.countIn_other hindent, Symbol.countIn_other hdedent]
            dsimp only
            omega
          · rw [hqueue, hpending]
            rfl
      | fault _ _ htake =>
          have hmishap := Lexer.take_error htake
          rw [hlexicon] at hmishap
          have hsame := hmishap.indentation_eq hbare
          refine h.moved ((Lexer.take_lexicon htake).trans hlexicon) ?_ ?_
          · exact (congrArg Indentation.depth hsame).trans hdepth
          · rw [Lexer.take_passes htake]
            exact hqueue
      | emit _ hselect htake =>
          obtain ⟨hbatch, hlexicon', hqueue'⟩ := batch_of_take hids hlexicon hselect htake
          have hweights := hbatch.counts
          refine sound_handOut h.balanced hlexicon' ?_ hbatch.later ?_ fun hnone => ?_
          · dsimp only
            omega
          · intro kind haction
            exact hbatch.mark kind (Option.some.inj haction)
          · exact (Lexer.take_ok htake).depth_of_bare (hlexicon ▸ hnone) (hbare hnone)

theorem sound_call (hids : lexicon.Separates ids) {s : Session} (h : s.Sound ids lexicon)
    (call : Lexer.Call) : (s.call call).Sound ids lexicon := by
  cases call with
  | next => exact sound_next hids h
  | pushMode mode => exact h.moved h.lexicon rfl rfl
  | popMode =>
      rw [Session.call, Lexer.popMode]
      split <;> exact h.moved h.lexicon rfl rfl

/-- Whatever is asked of a lexer, its blocks stay in balance. -/
theorem balanced_run (hids : lexicon.Separates ids) (source : List Char)
    (calls : List Lexer.Call) : ((start lexicon source).run calls).Balanced ids := by
  suffices hrun : ∀ s : Session, s.Sound ids lexicon → (s.run calls).Sound ids lexicon from
    (hrun _ (sound_start source)).balanced
  induction calls with
  | nil => exact fun s hs => hs
  | cons call calls ih => exact fun s hs => ih _ (sound_call hids hs call)

end Session

/-! ## The module language -/

namespace Language

/-- The kinds that stand for blocks and lines. -/
def blockKinds : Structural Symbol := ⟨Kind.indent, Kind.dedent, Kind.newline⟩

/-- The rules for every end marker keep these kinds apart from the others. -/
theorem separates_lexiconFor (marker : String) : (lexiconFor marker).Separates blockKinds where
  structural structural h := (Option.some.inj h).symm
  indent_ne_dedent := by decide
  newline := by decide
  endSymbol := by
    show Kind.stop ≠ Kind.indent ∧ Kind.stop ≠ Kind.dedent
    decide
  kinds rule hrule kind hkind := by
    -- the marker is part of a pattern, but of no action
    have hactions : ∀ action ∈ (rules marker).map (·.action), action.kind?.all fun kind =>
        kind ≠ blockKinds.indent ∧ kind ≠ blockKinds.dedent := by
      show ∀ action ∈ (rules "").map (·.action), _
      decide
    have hall := hactions rule.action (List.mem_map_of_mem hrule)
    rw [hkind] at hall
    exact of_decide_eq_true hall

/-- Block ends and open blocks make up for block starts in every session of
    the module language, and of every lexicon that keeps the kinds for
    blocks apart.  (A match that ends inside a character passes all of it; a
    lexicon that is tied has none.) -/
theorem blocks_balanced :
    (∀ marker, ∃ l, withMarker marker = .ok l ∧ ∀ source calls,
      ((Session.start l.lexicon source).run calls).Balanced blockKinds) ∧
    ∀ (lexicon : Lexicon) (ids : Structural Symbol), lexicon.Separates ids → ∀ source calls,
      ((Session.start lexicon source).run calls).Balanced ids := by
  refine ⟨fun marker => ⟨_, withMarker_eq marker, fun source calls => ?_⟩, ?_⟩
  · exact Session.balanced_run (separates_lexiconFor marker) source calls
  · exact fun lexicon ids hids source calls => Session.balanced_run hids source calls

/-- A session that goes on behind a fault, in and out of a mode. -/
def interrupted : Session :=
  (Session.start (lexiconFor defaultMarker) "a.b:\n    c.d:\n    e.f\n@@EOF@@".toList).run
    [.next, .next, .next, .next, .pushMode "OTHER", .next, .popMode, .next, .next, .next, .next,
      .next]

theorem blocks_balanced_interrupted :
    (lexiconFor defaultMarker).Separates blockKinds ∧
      interrupted.handed.map (·.token.kind) =
        [Kind.name, Kind.indent, Kind.name, Kind.name, Kind.dedent, Kind.marker, Kind.stop] ∧
      interrupted.Balanced blockKinds :=
  ⟨separates_lexiconFor _, by decide +kernel,
    blocks_balanced.2 _ _ (separates_lexiconFor _) _ _⟩

end Language

end Offside

import Offside.Proofs.Lexer

/-! # Rounds of a lexer — how a look for a token ends

    Looking for a token takes match after match.  The ways in which a look
    ends are listed here once; what holds of a lexer all along follows from
    these and from what one match comes to.

    * `Passes` are the matches that come to no token, and `Stops` is what
      comes behind them;
    * `Scan.exists_stops` cuts a look for a token into the two;
    * `Keeps` is an invariant of matches, and `Keeps.feeds` says what it
      makes of all tokens;
    * `Gathers` is one of matches and of all tokens before them;
    * `exists_end_of_feeds` tells the tokens of matches from the end symbol. -/

namespace Offside

namespace Lexer

/-! ## Looking for a token -/

/-- A selected action is that of one of the rules. -/
theorem exists_rule_of_select {lexicon : Lexicon} {mode : String} {ahead : List Char}
    {s : Selection} (h : lexicon.select mode ahead = some s) :
    ∃ rule ∈ lexicon.rules, rule.action = s.action := by
  obtain ⟨rule, hrule, hmatch⟩ := List.exists_of_findSome?_eq_some h
  obtain ⟨found, -, rfl⟩ := Option.map_eq_some_iff.mp hmatch
  exact ⟨rule, (List.mem_filter.mp hrule).1, rfl⟩

/-- A lexer passes over matches that come to no token. -/
inductive Passes : Lexer → Lexer → Prop
  | refl (l : Lexer) : Passes l l
  | step {l l' l'' : Lexer} {s : Selection} :
      l.ahead ≠ [] → l.lexicon.select l.mode l.ahead = some s → l.take s = (.ok [], l') →
      Passes l' l'' → Passes l l''

/-- How looking for a token ends where nothing is passed over, with the
    action of the match that comes to tokens, if one does. -/
inductive Stops : Lexer → Option (RuleAction Symbol) → Except Fault (Option Token) × Lexer → Prop
  /-- The end symbol has been handed out. -/
  | ended {l : Lexer} : l.ahead = [] → l.finished = true → Stops l none (.ok none, l)
  /-- The end symbol is handed out. -/
  | stop {l : Lexer} : l.ahead = [] → l.finished = false → Stops l none
      (.ok (some ⟨l.lexicon.endSymbol, "", l.place.point⟩), { l with finished := true })
  /-- No rule matches. -/
  | stuck {l : Lexer} {c : Char} {cs : List Char} :
      l.ahead = c :: cs → l.lexicon.select l.mode l.ahead = none →
      Stops l none (.error (l.unexpectedCharacter c), l)
  /-- A match is at fault. -/
  | fault {l l' : Lexer} {s : Selection} {fault : Fault} :
      l.ahead ≠ [] → l.lexicon.select l.mode l.ahead = some s → l.take s = (.error fault, l') →
      Stops l none (.error fault, l')
  /-- A match comes to tokens. -/
  | emit {l l' : Lexer} {s : Selection} {token : Token} {tokens : List Token} :
      l.ahead ≠ [] → l.lexicon.select l.mode l.ahead = some s →
      l.take s = (.ok (token :: tokens), l') →
      Stops l (some s.action) (.ok (some token), { l' with pending := tokens })

/-- Looking for a token passes over matches, and then it ends. -/
theorem Scan.exists_stops {l : Lexer} {r : Except Fault (Option Token) × Lexer} (h : Scan l r) :
    ∃ l' action, Passes l l' ∧ Stops l' action r := by
  induction h with
  | ended hahead hfinished => exact ⟨_, _, .refl _, .ended hahead hfinished⟩
  | stop hahead hfinished => exact ⟨_, _, .refl _, .stop hahead hfinished⟩
  | stuck hahead hselect => exact ⟨_, _, .refl _, .stuck hahead hselect⟩
  | fault hne hselect htake => exact ⟨_, _, .refl _, .fault hne hselect htake⟩
  | emit hne hselect htake => exact ⟨_, _, .refl _, .emit hne hselect htake⟩
  | pass hne hselect htake _ ih =>
      obtain ⟨l', action, hpasses, hstops⟩ := ih
      exact ⟨l', action, .step hne hselect htake hpasses, hstops⟩

/-- With an empty queue the next token is what a look ends with. -/
theorem exists_stops_of_next {l : Lexer} {r : Except Fault (Option Token) × Lexer}
    (hpending : l.pending = []) (h : l.next = r) :
    ∃ l' action, Passes l l' ∧ Stops l' action r :=
  ((next_eq_iff hpending).mp h).exists_stops

/-- What every match keeps that is passed over is kept by all of them. -/
theorem Passes.keeps {P : Lexer → Prop}
    (hstep : ∀ {l l' : Lexer} {s : Selection}, l.ahead ≠ [] →
      l.lexicon.select l.mode l.ahead = some s → l.take s = (.ok [], l') → P l → P l')
    {l l' : Lexer} (h : Passes l l') (hl : P l) : P l' := by
  induction h with
  | refl => exact hl
  | step hne hselect htake _ ih => exact ih (hstep hne hselect htake hl)

/-- Matches that are passed over leave lexicon and queue as they are. -/
theorem Passes.unchanged {l l' : Lexer} (h : Passes l l') :
    l'.lexicon = l.lexicon ∧ l'.pending = l.pending := by
  refine h.keeps (P := fun l' => l'.lexicon = l.lexicon ∧ l'.pending = l.pending) ?_ ⟨rfl, rfl⟩
  intro l₁ l₂ s hne hselect htake hl₁
  exact ⟨(take_lexicon htake).trans hl₁.1, (take_ahead htake hselect hne).2.1.trans hl₁.2⟩

/-! ## Invariants -/

/-- A property of lexers that every match keeps, with one of the tokens that
    come out and one of the faults. -/
structure Keeps (P : Lexer → Prop) (Q : Token → Prop) (E : Fault → Prop) : Prop where
  /-- What waits, and whether the end symbol has been handed out, does not
      matter. -/
  queue : ∀ {l : Lexer} (tokens : List Token) (finished : Bool), P l →
    P { l with pending := tokens, finished := finished }
  take : ∀ {l l' : Lexer} {s : Selection} {tokens : List Token}, P l →
    l.lexicon.select l.mode l.ahead = some s → l.take s = (.ok tokens, l') →
    P l' ∧ ∀ token ∈ tokens, Q token
  fault : ∀ {l l' : Lexer} {s : Selection} {fault : Fault}, P l →
    l.lexicon.select l.mode l.ahead = some s → l.take s = (.error fault, l') → P l' ∧ E fault
  stop : ∀ {l : Lexer}, P l → Q ⟨l.lexicon.endSymbol, "", l.place.point⟩
  stuck : ∀ {l : Lexer} (c : Char), P l → E (l.unexpectedCharacter c)

namespace Keeps

variable {P : Lexer → Prop} {Q : Token → Prop} {E : Fault → Prop} {l l' : Lexer}

/-- What comes of a call has the properties if the lexer has them and its
    queue does. -/
theorem next (h : Keeps P Q E) (hl : P l) (hqueue : ∀ token ∈ l.pending, Q token)
    {r : Except Fault (Option Token) × Lexer} (hnext : l.next = r) :
    P r.2 ∧ (∀ token ∈ r.2.pending, Q token) ∧ (∀ token, r.1 = .ok (some token) → Q token) ∧
      ∀ fault, r.1 = .error fault → E fault := by
  cases hpending : l.pending with
  | cons first later =>
      rw [next_of_pending hpending] at hnext
      rw [hpending] at hqueue
      obtain ⟨hfirst, hlater⟩ := List.forall_mem_cons.mp hqueue
      subst hnext
      refine ⟨h.queue later l.finished hl, hlater, ?_, nofun⟩
      rintro token ⟨⟩
      exact hfirst
  | nil =>
      obtain ⟨l', action, hpasses, hstops⟩ := exists_stops_of_next hpending hnext
      have hl' : P l' := hpasses.keeps (fun _ hselect htake hl => (h.take hl hselect htake).1) hl
      -- the queue stays empty until a match comes to tokens
      have hpending' : l'.pending = [] := hpasses.unchanged.2.trans hpending
      have hnone : ∀ token ∈ l'.pending, Q token := hpending' ▸ List.forall_mem_nil Q
      cases hstops with
      | ended => exact ⟨hl', hnone, nofun, nofun⟩
      | stop =>
          refine ⟨h.queue l'.pending true hl', hnone, ?_, nofun⟩
          rintro token ⟨⟩
          exact h.stop hl'
      | @stuck c =>
          refine ⟨hl', hnone, nofun, ?_⟩
          rintro fault ⟨⟩
          exact h.stuck c hl'
      | fault hne hselect htake =>
          obtain ⟨hl'', hfault⟩ := h.fault hl' hselect htake
          refine ⟨hl'', ?_, nofun, ?_⟩
          · rw [(take_ahead htake hselect hne).2.1]
            exact hnone
          · rintro fault ⟨⟩
            exact hfault
      | @emit l'' s token tokens hne hselect htake =>
          obtain ⟨hl'', htokens⟩ := h.take hl' hselect htake
          obtain ⟨hfirst, hlater⟩ := List.forall_mem_cons.mp htokens
          refine ⟨h.queue tokens l''.finished hl'', hlater, ?_, nofun⟩
          rintro token ⟨⟩
          exact hfirst

/-- All tokens that are handed out have the property. -/
theorem feeds (h : Keeps P Q E) (hl : P l) (hqueue : ∀ token ∈ l.pending, Q token)
    {tokens : List Token} (hfeeds : Automaton.Feeds l tokens l') :
    P l' ∧ (∀ token ∈ l'.pending, Q token) ∧ ∀ token ∈ tokens, Q token := by
  induction hfeeds with
  | nil => exact ⟨hl, hqueue, nofun⟩
  | @cons l l₁ l' token tokens hnext _ ih =>
      obtain ⟨hl₁, hqueue₁, hfirst, -⟩ := h.next hl hqueue hnext
      obtain ⟨hl', hqueue', hlater⟩ := ih hl₁ hqueue₁
      exact ⟨hl', hqueue', List.forall_mem_cons.mpr ⟨hfirst token rfl, hlater⟩⟩

end Keeps

/-- A property of a lexer and of all the tokens that have come out of its
    matches so far. -/
structure Gathers (P : List Token → Lexer → Prop) : Prop where
  /-- What waits, and whether the end symbol has been handed out, does not
      matter. -/
  queue : ∀ {all : List Token} {l : Lexer} (tokens : List Token) (finished : Bool), P all l →
    P all { l with pending := tokens, finished := finished }
  take : ∀ {all : List Token} {l l' : Lexer} {s : Selection} {tokens : List Token}, P all l →
    l.lexicon.select l.mode l.ahead = some s → l.take s = (.ok tokens, l') →
    P (all ++ tokens) l'
  stop : ∀ {all : List Token} {l : Lexer}, P all l → l.ahead = [] →
    P (all ++ [⟨l.lexicon.endSymbol, "", l.place.point⟩]) l

namespace Gathers

variable {P : List Token → Lexer → Prop} {all : List Token} {l l' : Lexer}

theorem passes (h : Gathers P) (hpasses : Passes l l') (hl : P all l) : P all l' := by
  refine hpasses.keeps (P := P all) ?_ hl
  intro l₁ l₂ s _ hselect htake hl₁
  have hl₂ := h.take hl₁ hselect htake
  rwa [List.append_nil] at hl₂

/-- A token that is handed out leaves the queue. -/
theorem next (h : Gathers P) (hl : P (all ++ l.pending) l) {token : Token}
    (hnext : l.next = (.ok (some token), l')) : P (all ++ [token] ++ l'.pending) l' := by
  cases hpending : l.pending with
  | cons first later =>
      rw [next_of_pending hpending] at hnext
      rw [hpending] at hl
      cases hnext
      rw [List.append_assoc]
      exact h.queue later l.finished hl
  | nil =>
      obtain ⟨l₁, action, hpasses, hstops⟩ := exists_stops_of_next hpending hnext
      rw [hpending, List.append_nil] at hl
      have hl₁ := h.passes hpasses hl
      have hpending₁ : l₁.pending = [] := hpasses.unchanged.2.trans hpending
      cases hstops with
      | stop hahead =>
          rw [hpending₁, List.append_nil]
          exact h.queue [] true (h.stop hl₁ hahead)
      | @emit l₂ s _ tokens _ hselect htake =>
          rw [List.append_assoc]
          exact h.queue tokens l₂.finished (h.take hl₁ hselect htake)

theorem feeds (h : Gathers P) (hl : P (all ++ l.pending) l) {tokens : List Token}
    (hfeeds : Automaton.Feeds l tokens l') : P (all ++ tokens ++ l'.pending) l' := by
  induction hfeeds generalizing all with
  | nil => rwa [List.append_nil]
  | @cons l l₁ l' token tokens hnext _ ih =>
      have hrest := ih (h.next hl hnext)
      rwa [List.append_assoc all] at hrest

end Gathers

/-! ## The end of the tokens -/

/-- Nothing comes behind the end symbol. -/
theorem eq_nil_of_feeds {l l' : Lexer} {tokens : List Token} (h : Automaton.Feeds l tokens l')
    (hahead : l.ahead = []) (hpending : l.pending = []) (hfinished : l.finished = true) :
    tokens = [] := by
  cases h with
  | nil => rfl
  | cons hnext _ =>
      have hnone : l.next = (.ok none, l) :=
        (next_eq_iff hpending).mpr (.ended hahead hfinished)
      exact nomatch hnone.symm.trans hnext

section

variable {P : List Token → Lexer → Prop}

/-- All tokens of a lexer are those of its matches and then the end symbol, and
    what every match keeps still holds before that. -/
theorem exists_end_of_feeds
    (hqueue : ∀ {all : List Token} {l : Lexer} (tokens : List Token), P all l →
      P all { l with pending := tokens })
    (htake : ∀ {all : List Token} {l l' : Lexer} {s : Selection} {tokens : List Token}, P all l →
      l.lexicon.select l.mode l.ahead = some s → l.take s = (.ok tokens, l') →
      P (all ++ tokens) l')
    {all : List Token} {l l' : Lexer} {tokens : List Token} (hl : P (all ++ l.pending) l)
    (hrunning : l.finished = false) (hfeeds : Automaton.Feeds l tokens l')
    (hmore : l'.hasMore = false) :
    ∃ matched m, tokens = matched ++ [⟨m.lexicon.endSymbol, "", m.place.point⟩] ∧
      m.ahead = [] ∧ P (all ++ matched) m := by
  induction hfeeds generalizing all with
  | nil l =>
      rw [hasMore, hrunning, Bool.not_false, Bool.or_true] at hmore
      cases hmore
  | @cons l l₁ l' token tokens hnext hrest ih =>
      have hnext' : l.next = (.ok (some token), l₁) := hnext
      -- a token of a match stands in front of what comes of the others
      have hfront (hl₁ : P (all ++ [token] ++ l₁.pending) l₁) (hrunning₁ : l₁.finished = false) :
          ∃ matched m, token :: tokens =
            matched ++ [⟨m.lexicon.endSymbol, "", m.place.point⟩] ∧
            m.ahead = [] ∧ P (all ++ matched) m := by
        obtain ⟨matched, m, rfl, hahead, hm⟩ := ih hl₁ hrunning₁ hmore
        rw [List.append_assoc] at hm
        exact ⟨token :: matched, m, rfl, hahead, hm⟩
      cases hpending : l.pending with
      | cons first later =>
          rw [next_of_pending hpending] at hnext'
          rw [hpending] at hl
          cases hnext'
          refine hfront ?_ hrunning
          rw [List.append_assoc]
          exact hqueue later hl
      | nil =>
          obtain ⟨l₂, action, hpasses, hstops⟩ := exists_stops_of_next hpending hnext'
          rw [hpending, List.append_nil] at hl
          obtain ⟨hl₂, hrunning₂⟩ : P all l₂ ∧ l₂.finished = false := by
            refine hpasses.keeps (P := fun l => P all l ∧ l.finished = false) ?_ ⟨hl, hrunning⟩
            rintro l₁ l₂ s hne hselect hpass ⟨hl₁, hrunning₁⟩
            have hl₂ := htake hl₁ hselect hpass
            rw [List.append_nil] at hl₂
            exact ⟨hl₂, (take_ahead hpass hselect hne).2.2.trans hrunning₁⟩
          cases hstops with
          | stop hahead =>
              have hempty : l₂.pending = [] := hpasses.unchanged.2.trans hpending
              obtain rfl : tokens = [] := eq_nil_of_feeds hrest hahead hempty rfl
              refine ⟨[], l₂, rfl, hahead, ?_⟩
              rw [List.append_nil]
              exact hl₂
          | @emit l₃ s _ later hne hselect hmatch =>
              refine hfront ?_ ((take_ahead hmatch hselect hne).2.2.trans hrunning₂)
              rw [List.append_assoc]
              exact hqueue later (htake hl₂ hselect hmatch)

end

end Lexer

end Offside

import Offside.Proofs.Lexer.Outcomes
import Offside.Proofs.Automaton.Run

/-! # Lexers as sources — how many tokens come out of a text

    A match hands out at most two tokens more than it closes blocks, counting
    a block that it opens as one of them, and it takes a character.  So each
    token lowers a potential, whatever the rules are.

    * `Outcome.length` counts the tokens of one match;
    * `feeds_length` bounds all tokens of a lexer by its potential. -/

namespace Offside

namespace Lexer

/-! ## Counting -/

/-- The tokens that may still come: those in the queue, one for each open
    block, two for each character ahead, and the end symbol. -/
def potential (l : Lexer) : Nat :=
  l.pending.length + l.indentation.depth + 2 * l.ahead.length + if l.finished then 0 else 1

/-- A match makes at most two tokens more than it closes blocks. -/
theorem Outcome.length {lexicon : Lexicon} {i : Indentation} {span : Span} {width : Nat}
    {action : RuleAction Symbol} {tokens : List Token} {j : Indentation}
    (h : Outcome lexicon i span width action ⟨tokens, j⟩) :
    tokens.length + j.depth ≤ i.depth + 2 := by
  -- a batch has one token more than blocks that it closes
  have hbatch {structural : Structural Symbol} {levels : Nat} {token : Token} :
      (dedents structural span levels ++ [token]).length = levels + 1 := by
    rw [List.length_append, dedents, List.length_replicate, List.length_singleton]
  cases h with
  | single | same =>
      rw [List.length_singleton]
      omega
  | closing =>
      rw [hbatch, Indentation.depth_closeAll]
      omega
  | opening text hstructural hopen =>
      rw [List.length_singleton, Indentation.depth_openBlock hopen]
      omega
  | @outward structural levels _ hstructural hbreak =>
      have hdepth : j.depth + levels = i.depth := Indentation.depth_lineBreak hbreak
      rw [hbatch]
      omega
  | deeper | skip =>
      rw [List.length_nil]
      omega

theorem length_pos_of_select {lexicon : Lexicon} {mode : String} {ahead : List Char}
    {s : Selection} (h : lexicon.select mode ahead = some s) : 0 < s.found.length := by
  obtain ⟨rule, -, hrule⟩ := List.exists_of_findSome?_eq_some h
  obtain ⟨found, hfound, rfl⟩ := Option.map_eq_some_iff.mp hrule
  exact of_decide_eq_true (Option.filter_eq_some_iff.mp hfound).2

/-- Taking a match shortens the text ahead, and it leaves the queue and the
    end as they are. -/
theorem take_ahead {l l' : Lexer} {s : Selection} {result : Except Fault (List Token)}
    (h : l.take s = (result, l')) (hselect : l.lexicon.select l.mode l.ahead = some s)
    (hahead : l.ahead ≠ []) :
    l'.ahead.length < l.ahead.length ∧ l'.pending = l.pending ∧ l'.finished = l.finished := by
  have hcut := Text.length_cut_lt (length_pos_of_select hselect) hahead
  rw [take_passes h]
  exact ⟨hcut, rfl, rfl⟩

theorem take_potential {l l' : Lexer} {s : Selection} {tokens : List Token}
    (h : l.take s = (.ok tokens, l')) (hselect : l.lexicon.select l.mode l.ahead = some s)
    (hahead : l.ahead ≠ []) : tokens.length + l'.potential ≤ l.potential := by
  obtain ⟨hshorter, hpending, hfinished⟩ := take_ahead h hselect hahead
  have hcount : tokens.length + l'.indentation.depth ≤ l.indentation.depth + 2 :=
    (take_ok h).length
  simp only [potential, hpending, hfinished]
  omega

/-! ## Scanning -/

/-- All that looking for a token can come to, match by match. -/
inductive Scan : Lexer → Except Fault (Option Token) × Lexer → Prop
  /-- The end symbol has been handed out. -/
  | ended {l : Lexer} : l.ahead = [] → l.finished = true → Scan l (.ok none, l)
  /-- The end symbol is handed out. -/
  | stop {l : Lexer} : l.ahead = [] → l.finished = false →
      Scan l (.ok (some ⟨l.lexicon.endSymbol, "", l.place.point⟩), { l with finished := true })
  /-- No rule matches. -/
  | stuck {l : Lexer} {c : Char} {cs : List Char} :
      l.ahead = c :: cs → l.lexicon.select l.mode l.ahead = none →
      Scan l (.error (l.unexpectedCharacter c), l)
  /-- A match is at fault. -/
  | fault {l l' : Lexer} {s : Selection} {fault : Fault} :
      l.ahead ≠ [] → l.lexicon.select l.mode l.ahead = some s → l.take s = (.error fault, l') →
      Scan l (.error fault, l')
  /-- A match comes to tokens. -/
  | emit {l l' : Lexer} {s : Selection} {token : Token} {tokens : List Token} :
      l.ahead ≠ [] → l.lexicon.select l.mode l.ahead = some s →
      l.take s = (.ok (token :: tokens), l') →
      Scan l (.ok (some token), { l' with pending := tokens })
  /-- A match is passed over. -/
  | pass {l l' : Lexer} {s : Selection} {r : Except Fault (Option Token) × Lexer} :
      l.ahead ≠ [] → l.lexicon.select l.mode l.ahead = some s → l.take s = (.ok [], l') →
      Scan l' r → Scan l r

/-- Looking for a token comes to one of these; a text as long as the one
    ahead bounds the rounds. -/
theorem scan_spec {l : Lexer} {bound : List Char} (h : l.ahead.length ≤ bound.length) :
    Scan l (scan bound l) := by
  induction hlength : l.ahead.length using Nat.strongRecOn generalizing l bound with
  | ind n ih =>
      rw [scan]
      split
      next hahead =>
        split
        next hfinished => exact .ended hahead hfinished
        next hfinished => exact .stop hahead (Bool.eq_false_iff.mpr hfinished)
      next c cs hahead =>
        have hne : l.ahead ≠ [] := hahead ▸ List.cons_ne_nil c cs
        split
        next hselect => exact .stuck hahead hselect
        next s hselect =>
          split
          next fault l' htake => exact .fault hne hselect htake
          next token tokens l' htake => exact .emit hne hselect htake
          next l' htake =>
            -- the bound shrinks no faster than the text does
            have hshorter := (take_ahead htake hselect hne).1
            cases bound with
            | nil =>
                have hpos := List.length_pos_iff.mpr hne
                exact absurd (Nat.lt_of_lt_of_le hpos h) (Nat.lt_irrefl 0)
            | cons x fewer =>
                refine .pass hne hselect htake (ih _ (hlength ▸ hshorter) ?_ rfl)
                exact Nat.le_of_lt_succ (Nat.lt_of_lt_of_le hshorter h)

/-- Looking for a token comes to what it can come to. -/
theorem Scan.scan_eq {l : Lexer} {r : Except Fault (Option Token) × Lexer} (h : Scan l r)
    {bound : List Char} (hbound : l.ahead.length ≤ bound.length) : scan bound l = r := by
  induction h generalizing bound with
  | ended hahead hfinished =>
      rw [scan]
      split
      next => exact if_pos hfinished
      next c cs hcons => exact nomatch hahead.symm.trans hcons
  | stop hahead hfinished =>
      rw [scan]
      split
      next => exact if_neg (Bool.eq_false_iff.mp hfinished)
      next c cs hcons => exact nomatch hahead.symm.trans hcons
  | stuck hahead hselect =>
      rw [scan]
      split
      next hnil => exact nomatch hahead.symm.trans hnil
      next c' cs' hcons =>
        obtain ⟨rfl, rfl⟩ := List.cons.inj (hahead.symm.trans hcons)
        simp only [hselect]
  | fault hne hselect htake | emit hne hselect htake =>
      rw [scan]
      split
      next hnil => exact absurd hnil hne
      next => simp only [hselect, htake]
  | @pass l l' s r hne hselect htake _ ih =>
      have hshorter := (take_ahead htake hselect hne).1
      cases bound with
      | nil =>
          have hpos := List.length_pos_iff.mpr hne
          exact absurd (Nat.lt_of_lt_of_le hpos hbound) (Nat.lt_irrefl 0)
      | cons x fewer =>
          rw [scan]
          split
          next hnil => exact absurd hnil hne
          next =>
            simp only [hselect, htake]
            exact ih (Nat.le_of_lt_succ (Nat.lt_of_lt_of_le hshorter hbound))

theorem next_of_pending {l : Lexer} {token : Token} {tokens : List Token}
    (h : l.pending = token :: tokens) :
    l.next = (.ok (some token), { l with pending := tokens }) := by
  rw [next, h]

/-- With an empty queue the next token is looked for. -/
theorem next_eq_iff {l : Lexer} (h : l.pending = []) {r : Except Fault (Option Token) × Lexer} :
    l.next = r ↔ Scan l r := by
  rw [next, h]
  constructor
  · rintro rfl
    exact scan_spec (Nat.le_refl _)
  · intro hscan
    exact hscan.scan_eq (Nat.le_refl _)

/-! ## The end -/

theorem Scan.finished {l : Lexer} {r : Except Fault (Option Token) × Lexer} (h : Scan l r)
    (hfinished : l.finished = true) : r.2.finished = true := by
  induction h with
  | ended | stuck => exact hfinished
  | stop => rfl
  | fault hne hselect htake | emit hne hselect htake =>
      exact (take_ahead htake hselect hne).2.2.trans hfinished
  | pass hne hselect htake _ ih => exact ih ((take_ahead htake hselect hne).2.2.trans hfinished)

/-- Tokens that come after the end symbol leave it handed out. -/
theorem finished_of_feeds {l l' : Lexer} {tokens : List Token}
    (h : Automaton.Feeds l tokens l') (hfinished : l.finished = true) : l'.finished = true := by
  induction h with
  | nil => exact hfinished
  | @cons l l₁ l' token tokens hnext _ ih =>
      refine ih ?_
      have hnext' : l.next = (.ok (some token), l₁) := hnext
      cases hpending : l.pending with
      | nil => exact ((next_eq_iff hpending).mp hnext').finished hfinished
      | cons first later =>
          rw [next_of_pending hpending] at hnext'
          cases hnext'
          exact hfinished

/-! ## The number of tokens -/

/-- A token that is looked for lowers the potential. -/
theorem Scan.potential_lt {l : Lexer} {r : Except Fault (Option Token) × Lexer} (h : Scan l r)
    (hpending : l.pending = []) {token : Token} (htoken : r.1 = .ok (some token)) :
    r.2.potential < l.potential := by
  induction h with
  | ended | stuck | fault => exact nomatch htoken
  | @stop l hahead hfinished =>
      show _ + 0 < _ + if l.finished then 0 else 1
      rw [hfinished]
      exact Nat.lt_succ_self _
  | @emit l l' s token' tokens hne hselect htake =>
      have hle := take_potential htake hselect hne
      have hqueue := (take_ahead htake hselect hne).2.1
      simp only [potential, hqueue, hpending, List.length_cons, List.length_nil] at hle ⊢
      omega
  | pass hne hselect htake _ ih =>
      have hle := take_potential htake hselect hne
      have hqueue := (take_ahead htake hselect hne).2.1
      have hlt := ih (hqueue.trans hpending) htoken
      exact Nat.lt_of_lt_of_le hlt (Nat.le_trans (Nat.le_add_left ..) hle)

theorem potential_lt_of_next {l l' : Lexer} {token : Token}
    (h : l.next = (.ok (some token), l')) : l'.potential < l.potential := by
  cases hpending : l.pending with
  | nil => exact ((next_eq_iff hpending).mp h).potential_lt hpending rfl
  | cons first tokens =>
      rw [next_of_pending hpending] at h
      cases h
      simp only [potential, hpending, List.length_cons]
      omega

/-- The potential of a lexer bounds the tokens that it hands out. -/
theorem feeds_length {l l' : Lexer} {tokens : List Token} (h : Automaton.Feeds l tokens l') :
    tokens.length + l'.potential ≤ l.potential := by
  induction h with
  | nil => exact Nat.le_of_eq (Nat.zero_add _)
  | cons hnext _ ih =>
      have hlt := potential_lt_of_next hnext
      rw [List.length_cons]
      omega

theorem potential_start (lexicon : Lexicon) (source : List Char) :
    (start lexicon source).potential = 2 * source.length + 1 := by
  show 0 + 0 + 2 * source.length + 1 = _
  omega

end Lexer

end Offside

import Offside.Proofs.Language.Lexing
import Offside.Proofs.Lexer.Batches

/-! # Volume — how many tokens a text comes to

    Collecting tokens is a loop around a loop: tokens are asked for until none
    is left, and matches are passed over until one comes to a token.  Neither
    loop is cut off by the bounds that stand in the definitions.  What a round
    costs is told by the potential of the lexer, which counts a block that is
    open as a token still to come, so that a line that leaves many blocks
    is paid for by the lines that have opened them.

    * `Proceeds` is one round of either loop, and `Halts` how they end;
    * `Collects` is a whole run of both, and `exists_collects` says that there
      is one from every lexer;
    * `Collects.length_le` bounds its tokens, and `Collects.rounds_le` its
      rounds;
    * `volume_bounded` joins these for a text, next to matches that come to as
      many block ends as one likes, and to nothing. -/

namespace Offside

open Automaton

namespace Lexer

/-! ## Rounds -/

/-- One round after which the loops go on, with the token that it collects. -/
inductive Proceeds : Lexer → List Token → Lexer → Prop
  /-- A token has been waiting. -/
  | queued {l : Lexer} {token : Token} {later : List Token} : l.pending = token :: later →
      Proceeds l [token] { l with pending := later }
  /-- The text has ended. -/
  | stop {l : Lexer} : l.pending = [] → l.ahead = [] → l.finished = false →
      Proceeds l [⟨l.lexicon.endSymbol, "", l.place.point⟩] { l with finished := true }
  /-- A match comes to tokens, and all but the first will wait. -/
  | emit {l l' : Lexer} {s : Selection} {token : Token} {later : List Token} :
      l.pending = [] → l.ahead ≠ [] → l.lexicon.select l.mode l.ahead = some s →
      l.take s = (.ok (token :: later), l') → Proceeds l [token] { l' with pending := later }
  /-- A match is passed over. -/
  | pass {l l' : Lexer} {s : Selection} :
      l.pending = [] → l.ahead ≠ [] → l.lexicon.select l.mode l.ahead = some s →
      l.take s = (.ok [], l') → Proceeds l [] l'

/-- The round with which the loops end. -/
inductive Halts : Lexer → Except Fault Unit → Lexer → Prop
  /-- The end symbol has been collected. -/
  | ended {l : Lexer} : l.pending = [] → l.ahead = [] → l.finished = true → Halts l (.ok ()) l
  /-- No rule matches. -/
  | stuck {l : Lexer} {c : Char} {cs : List Char} : l.pending = [] → l.ahead = c :: cs →
      l.lexicon.select l.mode l.ahead = none → Halts l (.error (l.unexpectedCharacter c)) l
  /-- A match is at fault. -/
  | fault {l l' : Lexer} {s : Selection} {fault : Fault} :
      l.pending = [] → l.ahead ≠ [] → l.lexicon.select l.mode l.ahead = some s →
      l.take s = (.error fault, l') → Halts l (.error fault) l'

/-- The loops go round so often and then end, with these tokens collected. -/
inductive Collects : Nat → Lexer → List Token → Except Fault Unit → Lexer → Prop
  | halts {l l' : Lexer} {result : Except Fault Unit} : Halts l result l' →
      Collects 0 l [] result l'
  | proceeds {n : Nat} {l m l' : Lexer} {first tokens : List Token} {result : Except Fault Unit} :
      Proceeds l first m → Collects n m tokens result l' →
      Collects (n + 1) l (first ++ tokens) result l'

variable {l m l' : Lexer} {first tokens : List Token} {result : Except Fault Unit} {n : Nat}

/-- From every lexer there is a round. -/
theorem proceeds_or_halts (l : Lexer) :
    (∃ first m, Proceeds l first m) ∨ ∃ result l', Halts l result l' := by
  rcases hpending : l.pending with _ | ⟨token, later⟩
  · rcases hahead : l.ahead with _ | ⟨c, cs⟩
    · cases hfinished : l.finished with
      | true => exact .inr ⟨_, _, .ended hpending hahead hfinished⟩
      | false => exact .inl ⟨_, _, .stop hpending hahead hfinished⟩
    · have hne : l.ahead ≠ [] := hahead ▸ List.cons_ne_nil c cs
      cases hselect : l.lexicon.select l.mode l.ahead with
      | none => exact .inr ⟨_, _, .stuck hpending hahead hselect⟩
      | some s =>
          rcases htake : l.take s with ⟨fault | _ | ⟨token, later⟩, l'⟩
          · exact .inr ⟨_, _, .fault hpending hne hselect htake⟩
          · exact .inl ⟨_, _, .pass hpending hne hselect htake⟩
          · exact .inl ⟨_, _, .emit hpending hne hselect htake⟩
  · exact .inl ⟨_, _, .queued hpending⟩

/-! ## What a round costs -/

/-- A token that is collected is paid for. -/
theorem Proceeds.potential_le (h : Proceeds l first m) :
    first.length + m.potential ≤ l.potential := by
  cases h with
  | queued hpending =>
      simp only [potential, hpending, List.length_cons, List.length_nil]
      omega
  | stop hpending hahead hfinished =>
      simp only [potential, hfinished, List.length_singleton, Bool.false_eq_true, if_false, if_true]
      omega
  | emit hpending hne hselect htake =>
      have hle := take_potential htake hselect hne
      have hqueue := (take_ahead htake hselect hne).2.1
      simp only [potential, hqueue, hpending, List.length_cons, List.length_nil] at hle ⊢
      omega
  | pass _ hne hselect htake => exact take_potential htake hselect hne

/-- No round is free: it lowers the potential, or it takes text. -/
theorem Proceeds.measure_lt (h : Proceeds l first m) :
    m.potential + m.ahead.length < l.potential + l.ahead.length := by
  have hle := h.potential_le
  cases h with
  | queued | stop =>
      rw [List.length_singleton] at hle
      exact Nat.add_lt_add_right (by omega) _
  | emit _ hne hselect htake | pass _ hne hselect htake =>
      have hshorter := (take_ahead htake hselect hne).1
      exact Nat.add_lt_add_of_le_of_lt (Nat.le_of_add_left_le hle) hshorter

/-- **The loops end**, wherever they begin. -/
theorem exists_collects (l : Lexer) :
    ∃ n tokens result l', Collects n l tokens result l' := by
  induction hmeasure : l.potential + l.ahead.length using Nat.strongRecOn generalizing l with
  | ind k ih =>
      rcases proceeds_or_halts l with ⟨first, m, hround⟩ | ⟨result, l', hhalts⟩
      · obtain ⟨n, tokens, result, l', hcollects⟩ := ih _ (hmeasure ▸ hround.measure_lt) m rfl
        exact ⟨n + 1, first ++ tokens, result, l', .proceeds hround hcollects⟩
      · exact ⟨0, [], result, l', .halts hhalts⟩

/-- The tokens that are collected are paid for. -/
theorem Collects.length_le (h : Collects n l tokens result l') :
    tokens.length ≤ l.potential := by
  induction h with
  | halts => exact Nat.zero_le _
  | proceeds hround _ ih =>
      have hle := hround.potential_le
      rw [List.length_append]
      omega

/-- The rounds are bounded as well. -/
theorem Collects.rounds_le (h : Collects n l tokens result l') :
    n ≤ l.potential + l.ahead.length := by
  induction h with
  | halts => exact Nat.zero_le _
  | proceeds hround _ ih => exact Nat.lt_of_le_of_lt ih hround.measure_lt

/-! ## The bounds in the definitions -/

/-- A round that collects a token is a call for one. -/
theorem Proceeds.next_eq {token : Token} (h : Proceeds l [token] m) :
    l.next = (.ok (some token), m) := by
  cases h with
  | queued hpending => exact next_of_pending hpending
  | stop hpending hahead hfinished => exact (next_eq_iff hpending).mpr (.stop hahead hfinished)
  | emit hpending hne hselect htake => exact (next_eq_iff hpending).mpr (.emit hne hselect htake)

/-- A round that collects none leaves it to the next one. -/
theorem Proceeds.next_eq_next (h : Proceeds l [] m) : l.next = m.next := by
  cases h with
  | pass hpending hne hselect htake =>
      have hempty : m.pending = [] := (take_ahead htake hselect hne).2.1.trans hpending
      exact (next_eq_iff hpending).mpr
        (.pass hne hselect htake ((next_eq_iff hempty).mp rfl))

/-- A round collects a token or none. -/
theorem Proceeds.eq_nil_or (h : Proceeds l first m) : first = [] ∨ ∃ token, first = [token] := by
  cases h with
  | pass => exact .inl rfl
  | queued | stop | emit => exact .inr ⟨_, rfl⟩

/-- What is collected within a bound above the potential is what the loops
    collect. -/
theorem Collects.collect_eq (h : Collects n l tokens result l') {bound : Nat}
    (hbound : l.potential < bound) : l.collect bound = (tokens, result, l') := by
  induction h generalizing bound with
  | halts hhalts =>
      obtain ⟨bound, rfl⟩ := Nat.exists_eq_add_one_of_ne_zero (Nat.ne_zero_of_lt hbound)
      cases hhalts with
      | ended hpending hahead hfinished =>
          rw [collect, (next_eq_iff hpending).mpr (.ended hahead hfinished)]
      | stuck hpending hahead hselect =>
          rw [collect, (next_eq_iff hpending).mpr (.stuck hahead hselect)]
      | fault hpending hne hselect htake =>
          rw [collect, (next_eq_iff hpending).mpr (.fault hne hselect htake)]
  | @proceeds n l m l' first tokens result hround _ ih =>
      obtain ⟨bound, rfl⟩ := Nat.exists_eq_add_one_of_ne_zero (Nat.ne_zero_of_lt hbound)
      have hle := hround.potential_le
      rcases hround.eq_nil_or with rfl | ⟨token, rfl⟩
      · -- both calls for a token are the same, so the bound is not touched
        have hlater := ih (Nat.lt_of_le_of_lt (Nat.le_of_add_left_le hle) hbound)
        rw [collect] at hlater ⊢
        rwa [hround.next_eq_next]
      · rw [List.length_singleton] at hle
        rw [collect, hround.next_eq]
        simp only [ih (show m.potential < bound by omega)]
        rfl

/-- Tokens that are handed out are those of so many calls. -/
theorem afterCalls_of_feeds {l l' : Lexer} {tokens : List Token} (h : Feeds l tokens l') :
    l.afterCalls (List.replicate tokens.length .next) = l' := by
  induction h with
  | nil => rfl
  | @cons l m l' token tokens hnext _ ih =>
      have hcall : l.call .next = m := congrArg Prod.snd hnext
      rw [List.length_cons, List.replicate_succ, afterCalls, List.foldl_cons, hcall]
      exact ih

end Lexer

/-! ## Matches that come to much, and to nothing -/

namespace Language

open Lexer

/-- A text that opens so many blocks, each in the first line of the last one,
    with a line behind it that stands outside all of them. -/
def stairs : Nat → Nat → List Char
  | _, 0 => ['\n', ';']
  | depth, n + 1 => ':' :: '\n' :: indentation (depth + 1) ++ stairs (depth + 1) n

/-- Up the stairs every call for a token opens a block. -/
theorem exists_calls_of_stairs {n depth : Nat} {l : Lexer} (h : At 4 depth l (stairs depth n)) :
    ∃ calls, At 4 (depth + n) (l.afterCalls calls) ['\n', ';'] := by
  induction n generalizing depth l with
  | zero => exact ⟨[], h⟩
  | succ n ih =>
      obtain ⟨c, rest, hrest, hc⟩ : ∃ c rest, stairs (depth + 1) n = c :: rest ∧ c ≠ ' ' := by
        cases n with
        | zero => exact ⟨'\n', _, rfl, by decide⟩
        | succ n => exact ⟨':', _, rfl, by decide⟩
      rw [stairs, hrest, ← Nat.mul_one (depth + 1)] at h
      obtain ⟨m, ⟨tokens, hfeeds, -⟩, hm⟩ := At.opening (n := 1) (by decide) hc h
      rw [← hrest] at hm
      obtain ⟨calls, hcalls⟩ := ih hm
      have happend : l.afterCalls (List.replicate tokens.length .next ++ calls) =
          (l.afterCalls (List.replicate tokens.length .next)).afterCalls calls :=
        List.foldl_append
      refine ⟨List.replicate tokens.length .next ++ calls, ?_⟩
      rw [happend, afterCalls_of_feeds hfeeds, Nat.add_comm n 1, ← Nat.add_assoc]
      exact hcalls

/-- One line break can come to as many block ends as one likes. -/
theorem exists_long_batch (levels : Nat) : ∃ text calls l s,
    (start (lexiconFor defaultMarker) text).afterCalls calls = l ∧ Meets l l s ∧
      s.action = .lineBreak ∧ (l.take s).1 =
        .ok (List.replicate (levels + 1) ⟨Kind.dedent, "", l.spanOf s⟩ ++
          [⟨Kind.newline, "", l.spanOf s⟩]) := by
  obtain ⟨calls, i, hbefore, hlevel⟩ :=
    exists_calls_of_stairs (at_start 4 (stairs 0 (levels + 1)))
  generalize hl : (start (lexiconFor defaultMarker) (stairs 0 (levels + 1))).afterCalls calls = l
    at hbefore
  have hscan : scanner defaultMarker.toList ['\n', ';'] = some ⟨.lineBreak, ['\n'], 0⟩ :=
    scanner_break (c := ';') (by decide) 0 (by decide)
  have hselect := select_eq_scanner defaultMarker ['\n', ';']
  rw [hscan] at hselect
  obtain ⟨s, hs, haction, -, -, -, hmeasured⟩ := hselect
  have hmeets : Meets l l s := by
    refine ⟨hbefore.pending, .refl l, ?_, ?_⟩
    · rw [hbefore.ahead]
      exact List.cons_ne_nil _ _
    · rw [hbefore.lexicon, hbefore.mode, hbefore.ahead]
      exact hs
  have hzero : s.width = 0 := by
    rw [Selection.width, hmeasured rfl]
    rfl
  have hunit : l.indentation.unit = some 4 := by
    rw [hbefore.indentation]
    exact hlevel.unit.resolve_right fun h => absurd h.2 (by omega)
  have hcurrent : l.indentation.current = (levels + 1) * 4 := by
    rw [hbefore.indentation, hlevel.current, Nat.zero_add]
  have hstructural : l.lexicon.structural = some blockKinds := by
    rw [hbefore.lexicon]
    rfl
  have hwidth : s.width < l.indentation.current := by omega
  have hlevels : l.indentation.current - s.width = (levels + 1) * 4 := by omega
  refine ⟨_, calls, l, s, hl, hmeets, haction, ?_⟩
  rw [take_outward hstructural haction hunit hwidth hlevels]
  rfl

/-- A match can come to nothing. -/
theorem exists_empty_batch : ∃ text l s, start (lexiconFor defaultMarker) text = l ∧ Meets l l s ∧
    (l.take s).1 = .ok [] :=
  ⟨[' '], _, ⟨.skip, 0, 1, []⟩, rfl,
    ⟨rfl, .refl _, List.cons_ne_nil _ _, by decide +kernel⟩, by decide +kernel⟩

/-- **A text comes to a bounded number of tokens.**  Whatever the rules are,
    collecting the tokens of a text ends, and before it ends or fails it has
    collected at most two for each byte of the text and one more.  This is so
    although one line break can come to as many block ends as one likes, and a
    match to nothing.  (A match that ends inside a character passes all of it;
    a lexicon that is tied has none.) -/
theorem volume_bounded (lexicon : Lexicon) (source : List Char) :
    (∃ n tokens result l, Collects n (start lexicon source) tokens result l ∧
      (start lexicon source).rest = (tokens, result, l) ∧
      lexicon.tokenize source = result.map (fun _ => tokens) ∧
      tokens.length ≤ 2 * Text.bytes source + 1 ∧ n ≤ 3 * Text.bytes source + 1) ∧
    (∀ levels, ∃ text calls l s, (start (lexiconFor defaultMarker) text).afterCalls calls = l ∧
      Meets l l s ∧ s.action = .lineBreak ∧ (l.take s).1 =
        .ok (List.replicate (levels + 1) ⟨Kind.dedent, "", l.spanOf s⟩ ++
          [⟨Kind.newline, "", l.spanOf s⟩])) ∧
    ∃ text l s, start (lexiconFor defaultMarker) text = l ∧ Meets l l s ∧
      (l.take s).1 = .ok [] := by
  refine ⟨?_, exists_long_batch, exists_empty_batch⟩
  obtain ⟨n, tokens, result, l, hcollects⟩ := exists_collects (start lexicon source)
  have hrest : (start lexicon source).rest = (tokens, result, l) :=
    hcollects.collect_eq (potential_lt_tokenBound lexicon source)
  have hbytes := Text.length_le_bytes source
  have hlength := hcollects.length_le
  have hrounds := hcollects.rounds_le
  rw [potential_start] at hlength hrounds
  have hahead : (start lexicon source).ahead.length = source.length := rfl
  refine ⟨n, tokens, result, l, hcollects, hrest, ?_, by omega, by omega⟩
  rw [Lexicon.tokenize, hrest]
  cases result <;> rfl

end Language

end Offside

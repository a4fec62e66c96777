import Offside.Proofs.Regex.Search

/-! # Acceptance — the texts that a pattern stands for

    A pattern stands for texts, each between a character before it and a text
    behind it; what is tried first and what is given up is no part of that.  A
    search tries the ways of a machine one after the other, so whatever it
    finds is such a text.

    * `Pattern.Accepts` is the meaning of a pattern;
    * `Machine.Goes` are the ways of a machine, and `exists_goes` says that a
      search takes one of them;
    * `search_takes` says that a match of any machine is a stretch of the
      text;
    * `leads_of_goes` ties the ways of a machine to its pattern, and
      `matchStart_accepts` says that a match at the start of a text is
      accepted by the pattern. -/

namespace Offside.Regex

/-- A pattern accepts a text between the character before it and the text
    behind it. -/
inductive Pattern.Accepts : Pattern → Option Char → List Char → List Char → Prop
  | empty {before : Option Char} {rest : List Char} : Accepts .empty before [] rest
  | set {s : Charset} {c : Char} {before : Option Char} {rest : List Char} :
      s.has c = true → Accepts (.set s) before [c] rest
  | look {l : Look} {before : Option Char} {rest : List Char} :
      l.holds before rest.head? = true → Accepts (.look l) before [] rest
  | group {i : Nat} {p : Pattern} {before : Option Char} {text rest : List Char} :
      Accepts p before text rest → Accepts (.group i p) before text rest
  | seq {p q : Pattern} {before : Option Char} {text text' rest : List Char} :
      Accepts p before text (text' ++ rest) → Accepts q (text.getLast?.or before) text' rest →
      Accepts (.seq p q) before (text ++ text') rest
  | first {p q : Pattern} {before : Option Char} {text rest : List Char} :
      Accepts p before text rest → Accepts (.alt p q) before text rest
  | second {p q : Pattern} {before : Option Char} {text rest : List Char} :
      Accepts q before text rest → Accepts (.alt p q) before text rest
  /-- No round has to come any more. -/
  | done {p : Pattern} {most : Option Nat} {greedy : Bool} {before : Option Char}
      {rest : List Char} : Accepts (.rounds p 0 most greedy) before [] rest
  /-- One round that has to come or may, and then the others. -/
  | round {p : Pattern} {least : Nat} {most : Option Nat} {greedy : Bool}
      {before : Option Char} {text text' rest : List Char} :
      0 < least ∨ most ≠ some 0 → Accepts p before text (text' ++ rest) →
      Accepts (.rounds p (least - 1) (most.map (· - 1)) greedy) (text.getLast?.or before) text'
        rest →
      Accepts (.rounds p least most greedy) before (text ++ text') rest

/-- The ways of a machine from one thread to another. -/
inductive Machine.Goes : Machine → Thread → Thread → Prop
  | empty {t : Thread} : Goes .empty t t
  | set {s : Charset} {t : Thread} {c : Char} {cs : List Char} :
      t.rest = c :: cs → s.has c = true → Goes (.set s) t (t.advance c cs)
  | look {l : Look} {t : Thread} : l.holds t.before t.rest.head? = true → Goes (.look l) t t
  | group {i : Nat} {m : Machine} {t u : Thread} :
      Goes m t u → Goes (.group i m) t (u.close i t.offset)
  | seq {m n : Machine} {t u v : Thread} : Goes m t u → Goes n u v → Goes (.seq m n) t v
  | first {label : Nat} {m n : Machine} {t u : Thread} : Goes m t u → Goes (.alt label m n) t u
  | second {label : Nat} {m n : Machine} {t u : Thread} : Goes n t u → Goes (.alt label m n) t u
  | done {label : Nat} {greedy : Bool} {m : Machine} {t : Thread} :
      Goes (.loop label greedy m) t t
  | round {label : Nat} {greedy : Bool} {m : Machine} {t u v : Thread} :
      Goes m t u → Goes (.loop label greedy m) u v → Goes (.loop label greedy m) t v

/-- A search finds a thread from some trail. -/
def Search.Reaches (f : Search) (u : Thread) : Prop := ∃ trail, f trail = .ok u

/-- A thread that has read a text; what its groups measure does not matter. -/
structure Thread.Reads (t : Thread) (text : List Char) (u : Thread) : Prop where
  rest : t.rest = text ++ u.rest
  before : u.before = text.getLast?.or t.before
  offset : u.offset = t.offset + Text.bytes text

/-- A thread reads a text that a pattern accepts there. -/
def Pattern.Leads (p : Pattern) (t u : Thread) : Prop :=
  ∃ text, t.Reads text u ∧ p.Accepts t.before text u.rest

/-- A thread reads so many texts that a pattern accepts. -/
def Pattern.Times (p : Pattern) : Nat → Thread → Thread → Prop
  | 0, t, u => t.Reads [] u
  | n + 1, t, u => ∃ v, p.Leads t v ∧ p.Times n v u

/-! ## Searches go the ways of a machine -/

section Searches

variable {f g : Search} {u : Thread}

theorem Search.Reaches.of_orElse (h : (f.orElse g).Reaches u) : f.Reaches u ∨ g.Reaches u := by
  obtain ⟨trail, h⟩ := h
  rw [Search.orElse] at h
  split at h
  next v hf =>
    cases h
    exact .inl ⟨trail, hf⟩
  next trail' _ => exact .inr ⟨trail', h⟩

theorem Search.Reaches.of_prefer {first : Bool} (h : (Search.prefer first f g).Reaches u) :
    f.Reaches u ∨ g.Reaches u := by
  rw [Search.prefer] at h
  split at h
  · exact h.of_orElse
  · exact h.of_orElse.symm

theorem Search.Reaches.of_visit {offset label : Nat}
    (h : (Search.visit offset label f).Reaches u) : f.Reaches u := by
  obtain ⟨trail, h⟩ := h
  rw [Search.visit] at h
  split at h
  · cases h
  · exact ⟨_, h⟩

theorem not_reaches_error : ¬ Search.Reaches Except.error u := by
  rintro ⟨trail, h⟩
  cases h

end Searches

namespace Machine

variable {m : Machine} {k : Continuation} {t u : Thread}

/-- The rounds of a loop, and then what comes behind it. -/
theorem exists_goes_rounds {label : Nat} {greedy : Bool}
    (hm : ∀ {k t}, (m.run k t).Reaches u → ∃ v, m.Goes t v ∧ (k v).Reaches u) (bound : List Char)
    (h : (roundsOf label greedy m.run k bound t).Reaches u) :
    ∃ v, (loop label greedy m).Goes t v ∧ (k v).Reaches u := by
  induction bound generalizing t with
  | nil =>
      rcases h.of_visit.of_prefer with hround | hstop
      · obtain ⟨v, -, hv⟩ := hm hround
        exact absurd hv not_reaches_error
      · exact ⟨t, .done, hstop⟩
  | cons x fewer ih =>
      rcases h.of_visit.of_prefer with hround | hstop
      · obtain ⟨v, hgoes, hv⟩ := hm hround
        obtain ⟨w, hmore, hw⟩ := ih hv
        exact ⟨w, .round hgoes hmore, hw⟩
      · exact ⟨t, .done, hstop⟩

/-- A search that finds something goes one of the ways of the machine. -/
theorem exists_goes (h : (m.run k t).Reaches u) : ∃ v, m.Goes t v ∧ (k v).Reaches u := by
  induction m generalizing k t with
  | empty => exact ⟨t, .empty, h⟩
  | set s =>
      obtain ⟨trail, h⟩ := h
      rw [run] at h
      split at h
      next => cases h
      next c cs hrest =>
        split at h
        next hc => exact ⟨_, .set hrest hc, trail, h⟩
        next => cases h
  | look l =>
      obtain ⟨trail, h⟩ := h
      rw [run] at h
      split at h
      next hl => exact ⟨t, .look hl, trail, h⟩
      next => cases h
  | group i m ih =>
      obtain ⟨v, hgoes, hv⟩ := ih h
      exact ⟨v.close i t.offset, .group hgoes, hv⟩
  | seq m n ihm ihn =>
      obtain ⟨v, hfirst, hv⟩ := ihm h
      obtain ⟨w, hsecond, hw⟩ := ihn hv
      exact ⟨w, .seq hfirst hsecond, hw⟩
  | alt label m n ihm ihn =>
      rcases Search.Reaches.of_orElse h.of_visit with hfirst | hsecond
      · obtain ⟨v, hgoes, hv⟩ := ihm hfirst
        exact ⟨v, .first hgoes, hv⟩
      · obtain ⟨v, hgoes, hv⟩ := ihn hsecond
        exact ⟨v, .second hgoes, hv⟩
  | loop label greedy m ih => exact exists_goes_rounds ih t.rest h

end Machine

/-! ## Texts that are read -/

namespace Thread.Reads

variable {t u v : Thread} {text text' : List Char}

theorem refl (t : Thread) : t.Reads [] t := ⟨rfl, rfl, rfl⟩

theorem trans (h : t.Reads text u) (h' : u.Reads text' v) : t.Reads (text ++ text') v where
  rest := by rw [h.rest, h'.rest, List.append_assoc]
  before := by rw [h'.before, h.before, List.getLast?_append, Option.or_assoc]
  offset := by rw [h'.offset, h.offset, Text.bytes_append, Nat.add_assoc]

/-- Closing a group reads nothing. -/
theorem close (h : t.Reads text u) (i opened : Nat) : t.Reads text (u.close i opened) :=
  ⟨h.rest, h.before, h.offset⟩

theorem advance {c : Char} {cs : List Char} (h : t.rest = c :: cs) :
    t.Reads [c] (t.advance c cs) := ⟨h, rfl, rfl⟩

end Thread.Reads

namespace Pattern

variable {p q : Pattern} {t u v : Thread}

theorem Leads.seq (hp : p.Leads t v) (hq : q.Leads v u) : (Pattern.seq p q).Leads t u := by
  obtain ⟨text, hread, haccept⟩ := hp
  obtain ⟨text', hread', haccept'⟩ := hq
  rw [hread'.rest] at haccept
  rw [hread.before] at haccept'
  exact ⟨text ++ text', hread.trans hread', .seq haccept haccept'⟩

theorem Times.trans {m n : Nat} (h : p.Times m t v) (h' : p.Times n v u) :
    p.Times (m + n) t u := by
  induction m generalizing t with
  | zero =>
      rw [Nat.zero_add]
      cases n with
      | zero => exact Thread.Reads.trans h h'
      | succ n =>
          obtain ⟨w, ⟨text, hread, haccept⟩, hmore⟩ := h'
          have hsame : v.before = t.before := h.before
          rw [hsame] at haccept
          exact ⟨w, ⟨text, Thread.Reads.trans h hread, haccept⟩, hmore⟩
  | succ m ih =>
      obtain ⟨w, hfirst, hmore⟩ := h
      rw [Nat.add_right_comm]
      exact ⟨w, hfirst, ih hmore⟩

/-- A number of rounds that a repetition allows. -/
theorem Times.rounds {n least : Nat} {most : Option Nat} (greedy : Bool) (h : p.Times n t u)
    (hleast : least ≤ n) (hmost : ∀ bound, most = some bound → n ≤ max least bound) :
    (Pattern.rounds p least most greedy).Leads t u := by
  induction n generalizing t least most with
  | zero =>
      obtain rfl : least = 0 := Nat.le_zero.mp hleast
      exact ⟨[], h, .done⟩
  | succ n ih =>
      obtain ⟨v, ⟨text, hread, haccept⟩, hmore⟩ := h
      have hfewer : ∀ bound, most.map (· - 1) = some bound → n ≤ max (least - 1) bound := by
        intro bound hbound
        obtain ⟨b, rfl, rfl⟩ := Option.map_eq_some_iff.mp hbound
        have hle := hmost b rfl
        omega
      have hleast' : least - 1 ≤ n := by omega
      obtain ⟨text', hread', haccept'⟩ := ih hmore hleast' hfewer
      have hallowed : 0 < least ∨ most ≠ some 0 := by
        rcases Nat.eq_zero_or_pos least with rfl | hpos
        · refine .inr fun hzero => ?_
          have hle := hmost 0 hzero
          omega
        · exact .inl hpos
      rw [hread'.rest] at haccept
      rw [hread.before] at haccept'
      exact ⟨text ++ text', hread.trans hread', .round hallowed haccept haccept'⟩

end Pattern

/-! ## The ways of a pattern's machine -/

namespace Machine

variable {m n : Machine} {p : Pattern} {t u : Thread}

theorem Goes.of_andThen (h : (andThen m n).Goes t u) : ∃ v, m.Goes t v ∧ n.Goes v u := by
  rw [andThen.eq_def] at h
  split at h
  next => exact ⟨t, .empty, h⟩
  next => exact ⟨u, h, .empty⟩
  next =>
    cases h with
    | seq hm hn => exact ⟨_, hm, hn⟩

theorem Goes.of_option {label : Nat} {greedy : Bool} (h : (option label greedy m).Goes t u) :
    m.Goes t u ∨ t = u := by
  rw [option] at h
  split at h
  · cases h with
    | first hm => exact .inl hm
    | second hempty => cases hempty; exact .inr rfl
  · cases h with
    | first hempty => cases hempty; exact .inr rfl
    | second hm => exact .inl hm

section Rounds

variable (hp : ∀ {label t u}, (build p label).1.Goes t u → p.Leads t u)
include hp

theorem times_of_copies {n label : Nat} (h : (copies (build p) n label).1.Goes t u) :
    p.Times n t u := by
  induction n generalizing t label with
  | zero =>
      cases h
      exact .refl _
  | succ n ih =>
      obtain ⟨v, hfirst, hothers⟩ := Goes.of_andThen h
      exact ⟨v, hp hfirst, ih hothers⟩

theorem times_of_optionals {n label : Nat} {greedy : Bool}
    (h : (optionals (build p) greedy n label).1.Goes t u) : ∃ k ≤ n, p.Times k t u := by
  induction n generalizing t label with
  | zero =>
      cases h
      exact ⟨0, Nat.le_refl 0, .refl _⟩
  | succ n ih =>
      rcases Goes.of_option h with htaken | rfl
      · obtain ⟨v, hfirst, hothers⟩ := Goes.of_andThen htaken
        obtain ⟨k, hk, hmore⟩ := ih hothers
        exact ⟨k + 1, Nat.succ_le_succ hk, v, hp hfirst, hmore⟩
      · exact ⟨0, Nat.zero_le _, .refl t⟩

theorem times_of_loop {label label' : Nat} {greedy : Bool}
    (h : (loop label greedy (build p label').1).Goes t u) : ∃ n, p.Times n t u := by
  generalize hm : loop label greedy (build p label').1 = m at h
  induction h with
  | done => exact ⟨0, .refl _⟩
  | round hfirst _ _ ih =>
      cases hm
      obtain ⟨n, hmore⟩ := ih rfl
      exact ⟨n + 1, _, hp hfirst, hmore⟩
  | _ => cases hm

theorem times_of_loop1 {label label' : Nat} {greedy : Bool}
    (h : (loop1 label greedy (build p label').1).Goes t u) : ∃ n, p.Times (n + 1) t u := by
  cases h with
  | seq hfirst hothers =>
      obtain ⟨n, hmore⟩ := times_of_loop hp hothers
      exact ⟨n, _, hp hfirst, hmore⟩

/-- The ways of a repetition are those of its rounds. -/
theorem leads_rounds {least label : Nat} {most : Option Nat} {greedy : Bool}
    (h : (build (.rounds p least most greedy) label).1.Goes t u) :
    (Pattern.rounds p least most greedy).Leads t u := by
  cases most with
  | some most =>
      rw [build] at h
      obtain ⟨v, hfront, hback⟩ := Goes.of_andThen h
      obtain ⟨k, hk, hmore⟩ := times_of_optionals hp hback
      have htimes := (times_of_copies hp hfront).trans hmore
      refine htimes.rounds greedy (Nat.le_add_right least k) ?_
      rintro bound ⟨⟩
      omega
  | none =>
      have hbound : ∀ {n}, ∀ bound : Nat, (none : Option Nat) = some bound →
          n ≤ max least bound := nofun
      cases least with
      | zero =>
          rw [build] at h
          split at h
          · rcases Goes.of_option h with htaken | rfl
            · obtain ⟨n, htimes⟩ := times_of_loop1 hp htaken
              exact htimes.rounds greedy (Nat.zero_le _) hbound
            · exact Pattern.Times.rounds (n := 0) greedy (.refl t) (Nat.le_refl 0) hbound
          · obtain ⟨n, htimes⟩ := times_of_loop hp h
            exact htimes.rounds greedy (Nat.zero_le _) hbound
      | succ least =>
          rw [build] at h
          obtain ⟨v, hfront, hback⟩ := Goes.of_andThen h
          obtain ⟨n, hmore⟩ := times_of_loop1 hp hback
          have htimes := (times_of_copies hp hfront).trans hmore
          exact htimes.rounds greedy (by omega) hbound

end Rounds

/-- The ways of a pattern's machine read texts that the pattern accepts. -/
theorem leads_of_goes {label : Nat} (h : (build p label).1.Goes t u) : p.Leads t u := by
  induction p generalizing label t u with
  | empty =>
      cases h
      exact ⟨[], .refl _, .empty⟩
  | set s =>
      cases h with
      | set hrest hs => exact ⟨[_], .advance hrest, .set hs⟩
  | look l =>
      cases h with
      | look hl => exact ⟨[], .refl _, .look hl⟩
  | group i p ih =>
      cases h with
      | group hbody =>
          obtain ⟨text, hread, haccept⟩ := ih hbody
          exact ⟨text, hread.close i t.offset, .group haccept⟩
  | seq p q ihp ihq =>
      cases h with
      | seq hfirst hsecond => exact (ihp hfirst).seq (ihq hsecond)
  | alt p q ihp ihq =>
      cases h with
      | first hp =>
          obtain ⟨text, hread, haccept⟩ := ihp hp
          exact ⟨text, hread, .first haccept⟩
      | second hq =>
          obtain ⟨text, hread, haccept⟩ := ihq hq
          exact ⟨text, hread, .second haccept⟩
  | rounds p least most greedy ih => exact leads_rounds ih h

/-! ## Matches -/

/-- Whichever way a machine goes, a text has been read. -/
theorem Goes.reads (h : m.Goes t u) : ∃ text, t.Reads text u := by
  induction h with
  | empty | look | done => exact ⟨[], .refl _⟩
  | set hrest _ => exact ⟨[_], .advance hrest⟩
  | group _ ih =>
      obtain ⟨text, hread⟩ := ih
      exact ⟨text, hread.close ..⟩
  | seq _ _ ihfirst ihsecond | round _ _ ihfirst ihsecond =>
      obtain ⟨text, hread⟩ := ihfirst
      obtain ⟨text', hread'⟩ := ihsecond
      exact ⟨text ++ text', hread.trans hread'⟩
  | first _ ih | second _ ih => exact ih

/-- A match is as long as the text that has been read in between. -/
theorem length_between {text : List Char} (h : t.Reads text u) :
    (Match.between t u).length = Text.bytes text := by
  show u.offset - t.offset = Text.bytes text
  rw [h.offset, Nat.add_sub_cancel_left]

/-- A run that nothing follows ends where a way of the machine leads. -/
theorem goes_of_run {trail : Trail} (h : m.run (fun u _ => .ok u) t trail = .ok u) :
    m.Goes t u := by
  obtain ⟨v, hgoes, trail', hv⟩ := exists_goes ⟨trail, h⟩
  cases hv
  exact hgoes

theorem exists_goes_of_found {trail : Trail} {found : Match}
    (h : (m.run (fun u _ => .ok u) t trail).toOption.map (.between t) = some found) :
    ∃ u, m.Goes t u ∧ found = .between t u := by
  cases hrun : m.run (fun u _ => .ok u) t trail with
  | error trail' =>
      rw [hrun] at h
      cases h
  | ok u =>
      rw [hrun] at h
      exact ⟨u, goes_of_run hrun, (Option.some.inj h).symm⟩

/-- What is found from some place on is a way of the machine behind a text that
    has been passed. -/
theorem searchFrom_goes {rest : List Char} {before : Option Char} {offset : Nat} {trail : Trail}
    {found : Match} (h : m.searchFrom rest before offset trail = some found) :
    ∃ front t u, Thread.Reads ⟨before, rest, offset, []⟩ front t ∧ m.Goes t u ∧
      found = .between t u := by
  induction rest generalizing before offset trail with
  | nil =>
      rw [searchFrom] at h
      obtain ⟨u, hgoes, rfl⟩ := exists_goes_of_found h
      exact ⟨[], _, u, .refl _, hgoes, rfl⟩
  | cons c cs ih =>
      rw [searchFrom] at h
      split at h
      next u hrun =>
        cases h
        exact ⟨[], _, u, .refl _, goes_of_run hrun, rfl⟩
      next =>
        obtain ⟨front, t, u, hfront, hgoes, rfl⟩ := ih h
        have hone : Thread.Reads ⟨before, c :: cs, offset, []⟩ [c]
            ⟨some c, cs, offset + c.utf8Size, []⟩ := .advance rfl
        exact ⟨c :: front, t, u, hone.trans hfront, hgoes, rfl⟩

theorem search_goes {text : List Char} {found : Match} (h : m.search text = some found) :
    ∃ front t u, (Thread.start text).Reads front t ∧ m.Goes t u ∧ found = .between t u := by
  rw [search] at h
  split at h
  · obtain ⟨u, hgoes, rfl⟩ := exists_goes_of_found h
    exact ⟨[], _, u, .refl _, hgoes, rfl⟩
  · exact searchFrom_goes h

/-- **A match is a stretch of the text**, whatever the machine is: it takes
    whole characters behind whole characters. -/
theorem search_takes {text : List Char} {found : Match} (h : m.search text = some found) :
    ∃ front body back, text = front ++ (body ++ back) ∧ found.start = Text.bytes front ∧
      found.length = Text.bytes body := by
  obtain ⟨front, t, u, hfront, hgoes, rfl⟩ := search_goes h
  obtain ⟨body, hbody⟩ := hgoes.reads
  refine ⟨front, body, u.rest, ?_, ?_, length_between hbody⟩
  · rw [← hbody.rest]
    exact hfront.rest
  · exact hfront.offset.trans (Nat.zero_add _)

/-- **A match at the start of a text is accepted by the pattern.** -/
theorem matchStart_accepts {text : List Char} {found : Match}
    (h : (ofPattern p).matchStart text = some found) :
    found.start = 0 ∧ ∃ body back, text = body ++ back ∧ found.length = Text.bytes body ∧
      p.Accepts none body back := by
  obtain ⟨u, hgoes, rfl⟩ := exists_goes_of_found h
  obtain ⟨body, hread, haccept⟩ := leads_of_goes hgoes
  exact ⟨rfl, body, u.rest, hread.rest, length_between hread, haccept⟩

end Machine

end Offside.Regex

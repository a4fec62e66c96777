import Offside.Proofs.Automaton.Record
import Offside.Proofs.Automaton.Verdict

/-! # Sources — runs over two sources of the same tokens

    A run learns of its source what it asks for: the next token, whether
    there is one, and an excerpt for a message.  Two sources that give the
    same answers but for the excerpts are run through alike.  A source that
    is going to fail does so only when it is asked.

    * `Yields` tells all that a source is going to answer;
    * `abreast_runFor` takes runs over two sources side by side;
    * `boundToFail_runFor` says how a run over a source that fails can end. -/

namespace Offside

/-- A fault with the excerpt for the place that it names. -/
def Fault.shownBy (excerpt : Nat → Nat → Option Excerpt) : Fault → Fault
  | .unexpectedToken text line column expected _ =>
      .unexpectedToken text line column expected (excerpt line column)
  | fault => fault

namespace Automaton

variable {ι κ σ α : Type} [TokenSource ι] [TokenSource κ]

/-- A source hands out these tokens, knows all along whether it has more, and
    then it ends or fails; for messages it shows these excerpts. -/
inductive Yields (excerpt : Nat → Nat → Option Excerpt) :
    ι → List Token → Except Fault Unit → Prop
  | done {s : ι} : TokenSource.excerpt s = excerpt → TokenSource.hasMore s = false →
      TokenSource.next s = (.ok none, s) → Yields excerpt s [] (.ok ())
  | failed {s s' : ι} {fault : Fault} : TokenSource.excerpt s = excerpt →
      TokenSource.hasMore s = true → TokenSource.next s = (.error fault, s') →
      Yields excerpt s [] (.error fault)
  | cons {s s' : ι} {token : Token} {tokens : List Token} {ends : Except Fault Unit} :
      TokenSource.excerpt s = excerpt → TokenSource.hasMore s = true →
      TokenSource.next s = (.ok (some token), s') → Yields excerpt s' tokens ends →
      Yields excerpt s (token :: tokens) ends

/-- Whether the last call was a reduction that the semantics gave up. -/
def Record.refused (record : Record σ α) : Bool :=
  match record.calls.getLast? with
  | some (.reduce _ _ (.error _)) => true
  | _ => false

/-- A result with the excerpt for the place that it names.  What the
    semantics gives back as a fault stays as it is. -/
def Record.shownBy {β : Type} (record : Record σ α) (excerpt : Nat → Nat → Option Excerpt)
    (result : Except Fault β) : Except Fault β :=
  if record.refused then result else result.mapError (Fault.shownBy excerpt)

/-- Two runs that have made the same calls and have both come to the same
    state, with the same tokens still to come, or have both ended, with
    results that differ by excerpts at most. -/
inductive Abreast (excerpt excerpt' : Nat → Nat → Option Excerpt) :
    Progress ι (Record σ α) (Made α) → Progress κ (Record σ α) (Made α) → Prop
  | running (c : Configuration ι (Record σ α) (Made α)) (s : κ) {tokens : List Token} :
      c.memory.refused = false → Yields excerpt c.source tokens (.ok ()) →
      Yields excerpt' s tokens (.ok ()) →
      Abreast excerpt excerpt' (.running c) (.running (c.over s))
  | ended (result : Except Fault (Made α)) (s : ι) (s' : κ) (record : Record σ α) :
      Abreast excerpt excerpt' (.ended (record.shownBy excerpt result) s record)
        (.ended (record.shownBy excerpt' result) s' record)

/-- What can become of a run over a source that hands out these tokens and
    then fails.  While it goes on, the source has handed out what was shifted
    and the lookahead.  It never ends well: it fails with the source, or the
    source has not been asked for more than its tokens. -/
def BoundToFail (excerpt : Nat → Nat → Option Excerpt) (start : ι) (tokens : List Token)
    (failure : Fault) : Progress ι (Record σ α) (Made α) → Prop
  | .running c => ∃ later, Feeds start (shifted c.memory.calls ++ c.lookahead.toList) c.source ∧
      Yields excerpt c.source later (.error failure) ∧
      tokens = shifted c.memory.calls ++ c.lookahead.toList ++ later
  | .ended result s record => ∃ fault, result = .error fault ∧
      shifted record.calls <+: tokens ∧
      ((fault = failure ∧ ∃ before, Feeds start tokens before ∧
          TokenSource.next before = (.error failure, s)) ∨
        ∃ asked, asked <+: tokens ∧ Feeds start asked s)

variable {t : Table} {capture : Bool} {sem : Semantics σ α}
  {excerpt excerpt' : Nat → Nat → Option Excerpt}

/-! ## What a source answers -/

namespace Yields

variable {s : ι} {tokens : List Token} {ends : Except Fault Unit}

theorem excerpt_eq (h : Yields excerpt s tokens ends) : TokenSource.excerpt s = excerpt := by
  cases h <;> assumption

/-- A source that has no more has handed out all its tokens. -/
theorem of_hasMore_eq_false (h : Yields excerpt s tokens ends)
    (hmore : TokenSource.hasMore s = false) : tokens = [] ∧ ends = .ok () := by
  cases h with
  | done => exact ⟨rfl, rfl⟩
  | failed _ htrue | cons _ htrue => rw [hmore] at htrue; cases htrue

/-- Sources with the same to come agree on whether there is more. -/
theorem hasMore_eq {s' : κ} (h : Yields excerpt s tokens ends)
    (h' : Yields excerpt' s' tokens ends) : TokenSource.hasMore s = TokenSource.hasMore s' := by
  cases h with
  | done _ hmore => cases h' with | done _ hmore' => rw [hmore, hmore']
  | failed _ hmore => cases h' with | failed _ hmore' => rw [hmore, hmore']
  | cons _ hmore => cases h' with | cons _ hmore' => rw [hmore, hmore']

/-- Sources with the same to come, and no fault among it, answer alike. -/
theorem exists_next {s' : κ} (h : Yields excerpt s tokens (.ok ()))
    (h' : Yields excerpt' s' tokens (.ok ())) : ∃ token? s₁ s₁' later,
      TokenSource.next s = (.ok token?, s₁) ∧ TokenSource.next s' = (.ok token?, s₁') ∧
        Yields excerpt s₁ later (.ok ()) ∧ Yields excerpt' s₁' later (.ok ()) := by
  cases h with
  | done hexcerpt hmore hnext =>
      cases h' with
      | done hexcerpt' hmore' hnext' =>
          exact ⟨none, s, s', [], hnext, hnext', .done hexcerpt hmore hnext,
            .done hexcerpt' hmore' hnext'⟩
  | cons _ _ hnext hrest =>
      cases h' with
      | cons _ _ hnext' hrest' => exact ⟨_, _, _, _, hnext, hnext', hrest, hrest'⟩

/-- A source that yields tokens and no fault supplies them. -/
theorem supplies {s : ι} {tokens : List Token} (h : Yields excerpt s tokens (.ok ())) :
    Supplies s tokens := by
  generalize hends : Except.ok () = ends at h
  induction h with
  | done _ hmore => exact ⟨_, .nil _, hmore⟩
  | failed => cases hends
  | cons _ _ hnext _ ih =>
      obtain ⟨s', hfeeds, hmore⟩ := ih hends
      exact ⟨s', .cons hnext hfeeds, hmore⟩

end Yields

/-- A list yields its tokens and shows no excerpts. -/
theorem yields_tokenList (tokens : List Token) :
    Yields (fun _ _ => none) (TokenList.mk tokens) tokens (.ok ()) := by
  induction tokens with
  | nil => exact .done rfl rfl rfl
  | cons token tokens ih => exact .cons rfl rfl rfl ih

/-! ## Faults and excerpts -/

theorem shownBy_unexpected (s : ι) (state : Nat) (token : Token) :
    unexpected t s state token =
      (unexpected t (TokenList.mk []) state token).shownBy (TokenSource.excerpt s) := by
  simp only [unexpected]
  split <;> rfl

theorem Stack.shownBy_of_pop {st : Stack α} {count : Nat} {fault : Fault}
    (h : st.pop count = .error fault) : fault.shownBy excerpt = fault := by
  obtain ⟨-, rfl⟩ := Stack.pop_eq_error.mp h
  rfl

theorem Undue.shownBy {st : Stack α} {index : Nat} {fault : Fault}
    (h : Undue t st index fault) : fault.shownBy excerpt = fault := by
  cases h with
  | unknown | start => rfl
  | overPop _ hpop => exact Stack.shownBy_of_pop hpop

namespace Record

variable {record : Record σ α}

@[simp] theorem shownBy_ok (v : Made α) :
    record.shownBy excerpt (.ok v) = .ok v := by
  rw [Record.shownBy]
  split <;> rfl

theorem shownBy_error {fault : Fault} (h : fault.shownBy excerpt = fault) :
    record.shownBy excerpt (.error fault : Except Fault (Made α)) = .error fault := by
  rw [Record.shownBy]
  split
  · rfl
  · exact congrArg Except.error h

@[simp] theorem refused_start (memory : σ) : (Record.start α memory).refused = false := rfl

@[simp] theorem refused_shift (memory : σ) (calls : List (Call α)) (token : Token) (value : α) :
    (Record.mk memory (calls ++ [.shift token value])).refused = false := by
  simp [Record.refused]

@[simp] theorem refused_reduce_ok (memory : σ) (calls : List (Call α)) (index : Nat)
    (r : Reduction (Made α)) (value : α) :
    (Record.mk memory (calls ++ [.reduce index r (.ok value)])).refused = false := by
  simp [Record.refused]

@[simp] theorem refused_reduce_error (memory : σ) (calls : List (Call α)) (index : Nat)
    (r : Reduction (Made α)) (fault : Fault) :
    (Record.mk memory (calls ++ [.reduce index r (.error fault)])).refused = true := by
  simp [Record.refused]

end Record

/-! ## Side by side -/

theorem abreast_fetch {s : ι} {s' : κ} {tokens : List Token} (st : Stack (Made α))
    {record : Record σ α} (hrecord : record.refused = false)
    (h : Yields excerpt s tokens (.ok ())) (h' : Yields excerpt' s' tokens (.ok ())) :
    Abreast excerpt excerpt' (fetch st s record) (fetch st s' record) := by
  obtain ⟨token?, s₁, s₁', later, hnext, hnext', hlater, hlater'⟩ := h.exists_next h'
  rw [fetch, fetch, hnext, hnext']
  exact .running ⟨st, token?, s₁, record⟩ s₁' hrecord hlater hlater'

theorem Abreast.of_eq {r r' : Except Fault (Made α)} {s : ι} {s' : κ} {record : Record σ α}
    (result : Except Fault (Made α)) (h : record.shownBy excerpt result = r)
    (h' : record.shownBy excerpt' result = r') :
    Abreast excerpt excerpt' (.ended r s record) (.ended r' s' record) := by
  subst h h'
  exact .ended result s s' record

/-- A token that is not expected is told alike, each time with the excerpt of
    the source. -/
theorem abreast_unexpected {s : ι} {s' : κ} {record : Record σ α}
    (hrecord : record.refused = false) (state : Nat) (token : Token)
    (h : TokenSource.excerpt s = excerpt) (h' : TokenSource.excerpt s' = excerpt') :
    Abreast excerpt excerpt'
      (.ended (.error (unexpected t s state token) : Except Fault (Made α)) s record)
      (.ended (.error (unexpected t s' state token)) s' record) := by
  rw [shownBy_unexpected s, shownBy_unexpected s', h, h']
  refine .of_eq (.error (unexpected t (TokenList.mk []) state token)) ?_ ?_ <;>
    rw [Record.shownBy, hrecord] <;> rfl

/-- A fault without an excerpt is told alike. -/
theorem abreast_error {fault : Fault} (s : ι) (s' : κ) {record : Record σ α}
    (h : ∀ excerpt, fault.shownBy excerpt = fault) :
    Abreast excerpt excerpt' (.ended (.error fault : Except Fault (Made α)) s record)
      (.ended (.error fault) s' record) :=
  .of_eq (.error fault) (Record.shownBy_error (h _)) (Record.shownBy_error (h _))

theorem abreast_step {c : Configuration ι (Record σ α) (Made α)} {s : κ} {tokens : List Token}
    (hrecord : c.memory.refused = false) (h : Yields excerpt c.source tokens (.ok ()))
    (h' : Yields excerpt' s tokens (.ok ())) :
    Abreast excerpt excerpt' (step t capture sem.recorded c)
      (step t capture sem.recorded (c.over s)) := by
  have hmeets {token : Token} {action : Action} (hm : c.Meets t token action) :
      (c.over s).Meets t token action := ⟨hm.lookahead, hm.action⟩
  have hover {index : Nat} {lhs : Symbol} {frames : List (Frame (Made α))}
      {below : Stack (Made α)} (hdue : Due t c index lhs frames below) :
      Due t (c.over s) index lhs frames below :=
    ⟨hdue.meets.imp fun _ => hmeets, hdue.production, hdue.pop⟩
  have hmore : TokenSource.hasMore s = TokenSource.hasMore c.source := h'.hasMore_eq h
  have hstep {p : Progress κ (Record σ α) (Made α)}
      (hp : Turn t capture sem.recorded (c.over s) p) :
      step t capture sem.recorded (c.over s) = p := hp.step_eq
  have hturn := step_turn t capture sem.recorded c
  generalize step t capture sem.recorded c = p at hturn
  cases hturn with
  | exhausted hla =>
      rw [hstep (.exhausted hla)]
      exact abreast_error _ _ fun _ => rfl
  | shift hm hv =>
      rw [hstep (.shift (hmeets hm) hv)]
      obtain ⟨value, memory, rfl, rfl⟩ := Semantics.recorded_shift hv
      exact abreast_fetch _ (Record.refused_shift ..) h h'
  | undue hm hundue =>
      rw [hstep (.undue (hmeets hm) hundue)]
      exact abreast_error _ _ fun _ => hundue.shownBy
  | @refused _ _ _ _ fault _ hdue hv =>
      rw [hstep (.refused (hover hdue) hv)]
      obtain ⟨_ | value, memory, hmade, rfl⟩ := Semantics.recorded_reduce hv
      · cases hmade
        refine .of_eq (.error fault) ?_ ?_ <;>
          rw [Record.shownBy, Record.refused_reduce_error] <;> rfl
      · cases hmade
  | reduce hdue hv hgoto =>
      rw [hstep (.reduce (hover hdue) hv hgoto)]
      obtain ⟨fault | value, memory, hmade, rfl⟩ := Semantics.recorded_reduce hv
      · cases hmade
      · exact .running ⟨_, c.lookahead, c.source, _⟩ s (Record.refused_reduce_ok ..) h h'
  | lost hdue hv hnot =>
      rw [hstep (.lost (hover hdue) hv hnot)]
      exact abreast_error _ _ fun _ => rfl
  | bare hm hpop =>
      rw [hstep (.bare (hmeets hm) hpop)]
      exact abreast_error _ _ fun _ => Stack.shownBy_of_pop hpop
  | accept hm hpop hinitial hnone =>
      rw [hstep (.accept (hmeets hm) hpop hinitial (hmore.trans hnone))]
      exact .of_eq (.ok _) (Record.shownBy_ok _) (Record.shownBy_ok _)
  | excess hm hpop hend hnext =>
      obtain ⟨token?, s₁, s₁', later, hs, hs', hlater, hlater'⟩ := h.exists_next h'
      cases hnext.symm.trans hs
      rw [hstep (.excess (hmeets hm) hpop (hmore ▸ hend) hs')]
      exact abreast_unexpected hrecord _ _ hlater.excerpt_eq hlater'.excerpt_eq
  | broken hm hpop hend hnext =>
      obtain ⟨token?, s₁, s₁', later, hs, -⟩ := h.exists_next h'
      cases hnext.symm.trans hs
  | reject hm hunknown =>
      rw [hstep (.reject (hmeets hm) hunknown)]
      exact abreast_unexpected hrecord _ _ h.excerpt_eq h'.excerpt_eq

theorem abreast_moves {p : Progress ι (Record σ α) (Made α)}
    {p' : Progress κ (Record σ α) (Made α)} (h : Abreast excerpt excerpt' p p') (n : Nat) :
    Abreast excerpt excerpt' (moves t capture sem.recorded n p)
      (moves t capture sem.recorded n p') := by
  induction n generalizing p p' with
  | zero => exact h
  | succ n ih =>
      cases h with
      | ended result s s' record => exact .ended result s s' record
      | running c s hrecord hs hs' =>
          rw [moves, moves]
          exact ih (abreast_step hrecord hs hs')

/-- Runs over two sources that yield the same tokens stay side by side. -/
theorem abreast_runFor (t : Table) (capture : Bool) (sem : Semantics σ α) {s : ι} {s' : κ}
    {tokens : List Token} (h : Yields excerpt s tokens (.ok ()))
    (h' : Yields excerpt' s' tokens (.ok ())) (memory : σ) (limit : Nat) :
    Abreast excerpt excerpt' (runFor t capture sem.recorded limit s (.start α memory))
      (runFor t capture sem.recorded limit s' (.start α memory)) :=
  abreast_moves (abreast_fetch .start (Record.refused_start memory) h h') limit

/-! ## A source that fails -/

variable {start s : ι} {tokens later : List Token} {failure : Fault}

theorem boundToFail_fetch (st : Stack (Made α)) {record : Record σ α}
    (hfeeds : Feeds start (shifted record.calls) s)
    (hyields : Yields excerpt s later (.error failure))
    (htokens : tokens = shifted record.calls ++ later) :
    BoundToFail excerpt start tokens failure (fetch st s record) := by
  subst htokens
  cases hyields with
  | failed _ _ hnext =>
      rw [fetch, hnext, List.append_nil]
      exact ⟨failure, rfl, List.prefix_rfl, .inl ⟨rfl, s, hfeeds, hnext⟩⟩
  | @cons _ _ _ later _ _ _ hnext hlater =>
      rw [fetch, hnext]
      refine ⟨later, hfeeds.append (.single hnext), hlater, ?_⟩
      rw [List.append_assoc]
      rfl

/-- Where a run stops without asking for more, the source has handed out no
    more than its tokens. -/
theorem BoundToFail.stop {c : Configuration ι (Record σ α) (Made α)}
    (h : BoundToFail excerpt start tokens failure (.running c)) (fault : Fault)
    {record : Record σ α} (hshifted : shifted record.calls = shifted c.memory.calls) :
    BoundToFail excerpt start tokens failure (.ended (.error fault) c.source record) := by
  obtain ⟨later, hfeeds, -, rfl⟩ := h
  refine ⟨fault, rfl, ?_, .inr ⟨_, List.prefix_append _ _, hfeeds⟩⟩
  rw [hshifted, List.append_assoc]
  exact List.prefix_append _ _

theorem boundToFail_step (c : Configuration ι (Record σ α) (Made α))
    (h : BoundToFail excerpt start tokens failure (.running c)) :
    BoundToFail excerpt start tokens failure (step t capture sem.recorded c) := by
  have hturn := step_turn t capture sem.recorded c
  generalize step t capture sem.recorded c = p at hturn
  obtain ⟨later, hfeeds, hyields, rfl⟩ := id h
  cases hturn with
  | exhausted | undue | bare | reject => exact h.stop _ rfl
  | shift hm hv =>
      obtain ⟨value, memory, rfl, rfl⟩ := Semantics.recorded_shift hv
      rw [hm.lookahead] at hfeeds ⊢
      refine boundToFail_fetch _ ?_ hyields ?_ <;> rw [shifted_shift]
      · exact hfeeds
      · rfl
  | refused hdue hv | lost hdue hv =>
      obtain ⟨result, memory, -, rfl⟩ := Semantics.recorded_reduce hv
      exact h.stop _ (shifted_reduce ..)
  | reduce hdue hv =>
      obtain ⟨result, memory, -, rfl⟩ := Semantics.recorded_reduce hv
      refine ⟨later, ?_, hyields, ?_⟩ <;> rw [shifted_reduce]
      exact hfeeds
  | accept hm hpop hinitial hmore =>
      exact nomatch (hyields.of_hasMore_eq_false hmore).2
  | excess hm hpop hend hnext =>
      cases hyields with
      | failed _ _ hfail => cases hnext.symm.trans hfail
      | @cons _ _ token later _ _ _ hsome hlater =>
          cases hnext.symm.trans hsome
          refine ⟨_, rfl, ?_, .inr ⟨_, ?_, hfeeds.append (.single hsome)⟩⟩
          · rw [List.append_assoc]
            exact List.prefix_append _ _
          · exact ⟨later, by simp⟩
  | broken hm hpop hend hnext =>
      cases hyields with
      | failed _ _ hfail =>
          cases hnext.symm.trans hfail
          rw [List.append_nil]
          exact ⟨failure, rfl, List.prefix_append _ _, .inl ⟨rfl, c.source, hfeeds, hfail⟩⟩
      | cons _ _ hsome => cases hnext.symm.trans hsome

/-- A run over a source that is going to fail ends with a fault: that of the
    source, or one that was met before the source failed. -/
theorem boundToFail_runFor (t : Table) (capture : Bool) (sem : Semantics σ α)
    (h : Yields excerpt start tokens (.error failure)) (memory : σ) (limit : Nat) :
    BoundToFail excerpt start tokens failure
      (runFor t capture sem.recorded limit start (.start α memory)) :=
  moves_induction boundToFail_step (boundToFail_fetch .start (.nil start) h rfl) limit

end Automaton

end Offside

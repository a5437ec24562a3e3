import GoPages.Parser.SourceFile

/-!
# Runs of parsers

A run of a parser passes cursors, one after the other. `Parser.Run p c trace r` says that from `c`
the parser `p` can pass the cursors `trace` and end with `r`. A run is put together from single
steps: it looks at a cursor, reads one token, or fails. A round of a loop is a run of its own, and
another round follows it only if it has read a token.

A parser is stepwise (`Parser.Steps`) if it has a run from every cursor. The rules follow the way
parsers are put together: `steps_bind`, `steps_ite`, `steps_loop` and `steps_many`. For a loop they
ask that a round that goes on has read a token. `Parser.Progress` says so of a parser, and has rules
of its own.
-/

namespace GoPages

namespace Parser

variable {α β σ : Type}

/-! ### Loops -/

/-- Repeats a step that hands on a state, until it gives a value. A step that hands on a state must
have read a token. -/
def loop (step : σ → Parser (σ ⊕ α)) (s : σ) (c : Cursor) : Except SyntaxError (α × Cursor) :=
  match step s c with
  | .error e => .error e
  | .ok (.inr a, c') => .ok (a, c')
  | .ok (.inl s', c') => if c'.size < c.size then loop step s' c' else fail .stalled c
termination_by c.size

/-- A run of a parser from a cursor, with the cursors that it passes and the result. -/
inductive Run :
    {α : Type} → Parser α → Cursor → List Cursor → Except SyntaxError (α × Cursor) → Prop
  | look {α : Type} (f : Cursor → α) (c : Cursor) : Run (look f) c [c] (.ok (f c, c))
  | fail {α : Type} (e : Cursor → SyntaxError) (c : Cursor) (he : (e c).fault ≠ .stalled) :
    Run (fun c => .error (e c) : Parser α) c [c] (.error (e c))
  | advance (c : Cursor) : Run advance c [c, c.advance] (.ok ((), c.advance))
  | bindError {α β : Type} {p : Parser α} {k : α → Parser β} {c : Cursor} {trace : List Cursor}
    {e : SyntaxError} (h : Run p c trace (.error e)) : Run (p >>= k) c trace (.error e)
  | bind {α β : Type} {p : Parser α} {k : α → Parser β} {c c' : Cursor} {trace more : List Cursor}
    {a : α} {r : Except SyntaxError (β × Cursor)} (h : Run p c trace (.ok (a, c')))
    (h' : Run (k a) c' more r) : Run (p >>= k) c (trace ++ more) r
  | loopError {α σ : Type} {step : σ → Parser (σ ⊕ α)} {s : σ} {c : Cursor} {trace : List Cursor}
    {e : SyntaxError} (h : Run (step s) c trace (.error e)) : Run (loop step s) c trace (.error e)
  | loopDone {α σ : Type} {step : σ → Parser (σ ⊕ α)} {s : σ} {c c' : Cursor}
    {trace : List Cursor} {a : α} (h : Run (step s) c trace (.ok (.inr a, c'))) :
    Run (loop step s) c trace (.ok (a, c'))
  | loopAgain {α σ : Type} {step : σ → Parser (σ ⊕ α)} {s s' : σ} {c c' : Cursor}
    {trace more : List Cursor} {r : Except SyntaxError (α × Cursor)}
    (h : Run (step s) c trace (.ok (.inl s', c'))) (hread : c'.size < c.size)
    (h' : Run (loop step s') c' more r) : Run (loop step s) c (trace ++ more) r

/-- The parser has a run from every cursor. -/
def Steps (p : Parser α) : Prop := ∀ c, ∃ trace, Run p c trace (p c)

/-- A fault in the first parser is one of both. -/
theorem bind_of_error {p : Parser α} {k : α → Parser β} {c : Cursor} {e : SyntaxError}
    (h : p c = .error e) : (p >>= k) c = .error e := by
  simp [bind, StateT.bind, Except.bind, h]

/-- The second parser goes on with what the first one gives. -/
theorem bind_of_ok {p : Parser α} {k : α → Parser β} {c c' : Cursor} {a : α}
    (h : p c = .ok (a, c')) : (p >>= k) c = k a c' := by
  simp [bind, StateT.bind, Except.bind, h]

/-- Parsers in sequence succeed if both do. -/
theorem exists_of_bind {p : Parser α} {k : α → Parser β} {c c'' : Cursor} {b : β}
    (h : (p >>= k) c = .ok (b, c'')) : ∃ a c', p c = .ok (a, c') ∧ k a c' = .ok (b, c'') := by
  cases hp : p c with
  | error e =>
    rw [bind_of_error hp] at h
    cases h
  | ok r =>
    rw [bind_of_ok hp] at h
    exact ⟨r.1, r.2, rfl, h⟩

/-- A run ends with the result of the parser. -/
theorem Run.eq {p : Parser α} {c : Cursor} {trace : List Cursor}
    {r : Except SyntaxError (α × Cursor)} (h : Run p c trace r) : p c = r := by
  induction h with
  | look f c => rfl
  | fail e c he => rfl
  | advance c => rfl
  | bindError _ ih => exact bind_of_error ih
  | bind _ _ ih ih' => rw [bind_of_ok ih, ih']
  | loopError _ ih => rw [loop, ih]
  | loopDone _ ih => rw [loop, ih]
  | loopAgain _ hread _ ih ih' =>
    rw [loop, ih]
    exact (if_pos hread).trans ih'

/-- No run ends because a round of a loop has read nothing. -/
theorem Run.fault_ne_stalled {p : Parser α} {c : Cursor} {trace : List Cursor}
    {r : Except SyntaxError (α × Cursor)} (h : Run p c trace r) :
    ∀ e, r = .error e → e.fault ≠ .stalled := by
  induction h with
  | look f c => exact fun _ h => nomatch h
  | fail e c he =>
    rintro e' h
    cases h
    exact he
  | advance c => exact fun _ h => nomatch h
  | bindError _ ih => exact fun e h => ih e (by cases h; rfl)
  | bind _ _ _ ih' => exact ih'
  | loopError _ ih => exact fun e h => ih e (by cases h; rfl)
  | loopDone _ _ => exact fun _ h => nomatch h
  | loopAgain _ _ _ _ ih' => exact ih'

/-! ### What a run leaves -/

/-- The parser reads tokens from the front. -/
def Reads (p : Parser α) : Prop := ∀ c a c', p c = .ok (a, c') → ∃ read, c.left = read ++ c'.left

theorem left_advance (c : Cursor) : c.advance.left = c.left.tail := by
  rw [Cursor.advance]
  split <;> simp_all

/-- A run leaves the end of its tokens. -/
theorem Run.exists_left_eq_append {p : Parser α} {c : Cursor} {trace : List Cursor}
    {r : Except SyntaxError (α × Cursor)} (h : Run p c trace r) :
    ∀ a c', r = .ok (a, c') → ∃ read, c.left = read ++ c'.left := by
  induction h with
  | look f c =>
    rintro a c' h
    cases h
    exact ⟨[], rfl⟩
  | fail e c he => exact fun _ _ h => nomatch h
  | advance c =>
    rintro a c' h
    cases h
    rw [left_advance]
    exact ⟨c.left.take 1, by cases c.left <;> rfl⟩
  | bindError _ _ => exact fun _ _ h => nomatch h
  | bind _ _ ih ih' =>
    rintro b c'' h
    obtain ⟨read, hread⟩ := ih _ _ rfl
    obtain ⟨more, hmore⟩ := ih' b c'' h
    exact ⟨read ++ more, by rw [hread, hmore, List.append_assoc]⟩
  | loopError _ _ => exact fun _ _ h => nomatch h
  | loopDone _ ih =>
    rintro a c' h
    cases h
    exact ih _ _ rfl
  | loopAgain _ _ _ ih ih' =>
    rintro a c'' h
    obtain ⟨read, hread⟩ := ih _ _ rfl
    obtain ⟨more, hmore⟩ := ih' a c'' h
    exact ⟨read ++ more, by rw [hread, hmore, List.append_assoc]⟩

/-- A stepwise parser leaves a suffix of its tokens. -/
theorem Steps.reads {p : Parser α} (h : p.Steps) : p.Reads := by
  intro c a c' hp
  obtain ⟨trace, hrun⟩ := h c
  exact hrun.exists_left_eq_append a c' hp

/-- No tokens are added. -/
theorem Reads.size_le {p : Parser α} (h : p.Reads) {c c' : Cursor} {a : α}
    (hp : p c = .ok (a, c')) : c'.size ≤ c.size := by
  obtain ⟨read, hread⟩ := h c a c' hp
  rw [Cursor.size, Cursor.size, hread, List.length_append]
  exact Nat.le_add_left _ _

/-! ### Rules for runs -/

theorem steps_look (f : Cursor → α) : (look f).Steps := fun c => ⟨[c], .look f c⟩

theorem steps_pure (a : α) : (pure a : Parser α).Steps := steps_look fun _ => a

theorem steps_tok : tok.Steps := steps_look _

theorem steps_advance : advance.Steps := fun c => ⟨[c, c.advance], .advance c⟩

theorem steps_fail {fault : SyntaxFault} (h : fault ≠ .stalled) : (fail fault : Parser α).Steps :=
  fun c => ⟨[c], .fail (fun c => ⟨fault, c.tok.location⟩) c h⟩

theorem steps_failAt (l : Location) {fault : SyntaxFault} (h : fault ≠ .stalled) :
    (failAt l fault : Parser α).Steps :=
  fun c => ⟨[c], .fail (fun _ => ⟨fault, l⟩) c h⟩

theorem steps_failExpected (what : String) : (failExpected what : Parser α).Steps :=
  fun c => ⟨[c], .fail (fun c => ⟨.expected what c.tok.describe, c.tok.location⟩) c nofun⟩

/-- Parsers in sequence are stepwise if each is. -/
theorem steps_bind {p : Parser α} {k : α → Parser β} (hp : p.Steps) (hk : ∀ a, (k a).Steps) :
    (p >>= k).Steps := by
  intro c
  obtain ⟨trace, hrun⟩ := hp c
  cases hc : p c with
  | error e =>
    rw [hc] at hrun
    exact ⟨trace, by rw [bind_of_error hc]; exact .bindError hrun⟩
  | ok r =>
    obtain ⟨a, c'⟩ := r
    rw [hc] at hrun
    obtain ⟨more, hrun'⟩ := hk a c'
    exact ⟨trace ++ more, by rw [bind_of_ok hc]; exact .bind hrun hrun'⟩

/-- So is a choice between two. -/
theorem steps_ite {b : Prop} [Decidable b] {p q : Parser α} (hp : p.Steps) (hq : q.Steps) :
    (if b then p else q).Steps := by
  split
  · exact hp
  · exact hq

/-- What follows a branch that may be left out. -/
theorem steps_optional {b : Prop} [Decidable b] {p : Parser α} {q : Parser β} (hp : p.Steps)
    (hq : q.Steps) : (if b then p >>= fun _ => q else q).Steps :=
  steps_ite (steps_bind hp fun _ => hq) hq

/-- Two branches that go on in the same way. -/
theorem steps_join {b : Prop} [Decidable b] {p q : Parser β} {k : α → Parser β}
    (hp : (∀ a, (k a).Steps) → p.Steps) (hq : (∀ a, (k a).Steps) → q.Steps)
    (hk : ∀ a, (k a).Steps) : (if b then p else q).Steps :=
  steps_ite (hp hk) (hq hk)

/-! ### Rules for progress -/

/-- The parser is stepwise, and if it gives a value with the property `P` from a cursor with the
property `h`, then it has read a token. -/
structure Progress (P : α → Prop) (h : Cursor → Prop) (p : Parser α) : Prop where
  steps : p.Steps
  size_lt : ∀ c, h c → ∀ a c', p c = .ok (a, c') → P a → c'.size < c.size

/-- The parser gives a value only after it has read a token. -/
abbrev Advances (p : Parser α) : Prop := Progress (fun _ => True) (fun _ => True) p

/-- The step of a repetition goes on only after it has read a token. -/
abbrev IsRound (step : Parser (Option α)) : Prop :=
  Progress (fun r => r.isSome = true) (fun _ => True) step

section Progress

variable {P : β → Prop} {h h' : Cursor → Prop}

/-- A stronger property of the cursor is no harm. -/
theorem Progress.mono {p : Parser β} (hp : Progress P h' p) (hh : ∀ c, h c → h' c) :
    Progress P h p :=
  ⟨hp.steps, fun c hc => hp.size_lt c (hh c hc)⟩

/-- A parser that always reads a token makes progress. -/
theorem Advances.progress {p : Parser β} (hp : p.Advances) : Progress P h p :=
  ⟨hp.steps, fun c _ b c' hok _ => hp.size_lt c trivial b c' hok trivial⟩

/-- Nothing has to be read for a value that does not ask to go on. -/
theorem progress_pure {b : β} (hb : ¬ P b) : Progress P h (pure b) := by
  refine ⟨steps_pure b, fun c _ b' c' hp hP => ?_⟩
  cases hp
  exact absurd hP hb

/-- A fault is no stalled round, as long as it does not say so. -/
theorem progress_fail {fault : SyntaxFault} (hfault : fault ≠ .stalled) :
    Progress P h (fail fault) :=
  ⟨steps_fail hfault, fun _ _ _ _ hp => nomatch hp⟩

theorem progress_failExpected (what : String) : Progress P h (failExpected what) :=
  ⟨steps_failExpected what, fun _ _ _ _ hp => nomatch hp⟩

/-- Only at the end of the file nothing is left. -/
theorem size_advance_lt {c : Cursor} (hc : c.tok.kind ≠ .eof) : c.advance.size < c.size := by
  cases hleft : c.left with
  | nil => simp [Cursor.tok, Cursor.firstOf, Token.endOfFile, hleft] at hc
  | cons t rest => simp [Cursor.size, left_advance, hleft]

/-- A token is read before the end of the file. -/
theorem progress_advance {P : Unit → Prop} (hc : ∀ c, h c → c.tok.kind ≠ .eof) :
    Progress P h advance := by
  refine ⟨steps_advance, fun c hh a c' hp _ => ?_⟩
  cases hp
  exact size_advance_lt (hc c hh)

/-- A choice makes progress if both sides do, each under its condition. -/
theorem progress_ite {b : Prop} [Decidable b] {p q : Parser β} (hp : b → Progress P h p)
    (hq : ¬ b → Progress P h q) : Progress P h (if b then p else q) := by
  split
  · next hb => exact hp hb
  · next hb => exact hq hb

/-- The first parser reads a token. -/
theorem progress_bind_left {p : Parser α} {k : α → Parser β}
    (hp : Progress (fun _ => True) h p) (hk : ∀ a, (k a).Steps) : Progress P h (p >>= k) := by
  refine ⟨steps_bind hp.steps hk, fun c hc b c'' hok hP => ?_⟩
  obtain ⟨a, c', hrun, hok⟩ := exists_of_bind hok
  exact Nat.lt_of_le_of_lt ((hk a).reads.size_le hok) (hp.size_lt c hc a c' hrun trivial)

/-- The second parser reads a token. -/
theorem progress_bind {p : Parser α} {k : α → Parser β} (hp : p.Steps)
    (hk : ∀ a, Progress P (fun _ => True) (k a)) : Progress P h (p >>= k) := by
  refine ⟨steps_bind hp fun a => (hk a).steps, fun c _ b c'' hok hP => ?_⟩
  obtain ⟨a, c', hrun, hok⟩ := exists_of_bind hok
  exact Nat.lt_of_lt_of_le ((hk a).size_lt c' trivial b c'' hok hP) (hp.reads.size_le hrun)

/-- What follows may look at the same cursor again. -/
theorem progress_look {f : Cursor → α} {k : α → Parser β}
    (hk : ∀ a, Progress P (fun c => h c ∧ f c = a) (k a)) : Progress P h (look f >>= k) :=
  ⟨steps_bind (steps_look f) fun a => (hk a).steps,
    fun c hc b c' hok => (hk (f c)).size_lt c ⟨hc, rfl⟩ b c' hok⟩

/-- The token at the cursor may be known from there on. -/
theorem progress_tok {k : Token → Parser β}
    (hk : ∀ t, Progress P (fun c => h c ∧ c.tok = t) (k t)) : Progress P h (tok >>= k) :=
  progress_look hk

/-- The end of the file is no operator. -/
theorem kind_ne_eof_of_isOp {t : Token} {text : String} (ht : t.isOp text = true) :
    t.kind ≠ .eof := by
  simp only [Token.isOp, Bool.and_eq_true, beq_iff_eq] at ht
  simp [ht.1]

/-- The end of the file is no keyword. -/
theorem kind_ne_eof_of_isKeyword {t : Token} {text : String} (ht : t.isKeyword text = true) :
    t.kind ≠ .eof := by
  simp only [Token.isKeyword, Bool.and_eq_true, beq_iff_eq] at ht
  simp [ht.1]

/-- A token that has been seen is read. -/
theorem progress_advance_seen {P : Unit → Prop} {t : Token} (ht : t.kind ≠ .eof) :
    Progress P (fun c => h c ∧ c.tok = t) advance :=
  progress_advance fun c hc => by rw [hc.2]; exact ht

end Progress

/-! ### Loops step by step -/

/-- A loop is stepwise if every round that goes on has read a token. -/
theorem steps_loop {step : σ → Parser (σ ⊕ α)}
    (h : ∀ s, Progress (fun r => r.isLeft = true) (fun _ => True) (step s)) (s : σ) :
    Steps (loop step s) := by
  intro c
  -- a round that reads nothing would stall the loop, which the hypothesis excludes
  fun_induction loop step s c with
  | case1 s c e hstep =>
    obtain ⟨trace, hrun⟩ := (h s).steps c
    rw [hstep] at hrun
    exact ⟨trace, .loopError hrun⟩
  | case2 s c a c' hstep =>
    obtain ⟨trace, hrun⟩ := (h s).steps c
    rw [hstep] at hrun
    exact ⟨trace, .loopDone hrun⟩
  | case3 s c s' c' hstep hsize ih =>
    obtain ⟨trace, hrun⟩ := (h s).steps c
    obtain ⟨more, hrun'⟩ := ih
    rw [hstep] at hrun
    exact ⟨trace ++ more, .loopAgain hrun hsize hrun'⟩
  | case4 s c s' c' hstep hsize => exact absurd ((h s).size_lt c trivial _ _ hstep rfl) hsize

/-- One round of a repeated step, with the values so far in reverse order. -/
def manyStep (step : Parser (Option α)) (as : List α) : Parser (List α ⊕ List α) := do
  match ← step with
  | none => return .inr as.reverse
  | some a => return .inl (a :: as)

section ManyStep

variable {step : Parser (Option α)} (as : List α) {c c' : Cursor}

private theorem manyStep_of_error {e : SyntaxError} (h : step c = .error e) :
    manyStep step as c = .error e :=
  bind_of_error h

private theorem manyStep_of_none (h : step c = .ok (none, c')) :
    manyStep step as c = .ok (.inr as.reverse, c') :=
  bind_of_ok h

private theorem manyStep_of_some {a : α} (h : step c = .ok (some a, c')) :
    manyStep step as c = .ok (.inl (a :: as), c') :=
  bind_of_ok h

end ManyStep

/-- A repeated step is a loop that gathers its values. -/
private theorem loop_manyStep (step : Parser (Option α)) (as : List α) (c : Cursor) :
    loop (manyStep step) as c =
      (manyFrom step c).map fun (more, c') => (as.reverse ++ more, c') := by
  fun_induction manyFrom step c generalizing as with
  | case1 c e hstep =>
    rw [loop, manyStep_of_error as hstep]
    rfl
  | case2 c c' hstep =>
    rw [loop, manyStep_of_none as hstep]
    simp [Except.map]
  | case3 c a c' hstep hsize e hrest ih =>
    rw [loop, manyStep_of_some as hstep]
    simp only [hsize, if_true, ih, hrest]
    rfl
  | case4 c a c' hstep hsize more c'' hrest ih =>
    rw [loop, manyStep_of_some as hstep]
    simp only [hsize, if_true, ih, hrest]
    simp [Except.map]
  | case5 c a c' hstep hsize =>
    rw [loop, manyStep_of_some as hstep]
    simp only [hsize, if_false]
    rfl

theorem many_eq_loop (step : Parser (Option α)) : many step = loop (manyStep step) [] := by
  funext c
  rw [loop_manyStep]
  change manyFrom step c = _
  cases manyFrom step c <;> rfl

private theorem progress_manyStep {step : Parser (Option α)} (h : step.IsRound) (as : List α) :
    Progress (fun r => r.isLeft = true) (fun _ => True) (manyStep step as) := by
  have hsteps : (manyStep step as).Steps := by
    refine steps_bind h.steps ?_
    rintro (_ | a)
    · exact steps_pure _
    · exact steps_pure _
  refine ⟨hsteps, fun c _ r c'' hp hr => ?_⟩
  cases hc : step c with
  | error e =>
    rw [manyStep_of_error as hc] at hp
    cases hp
  | ok r' =>
    obtain ⟨_ | a, c'⟩ := r'
    · rw [manyStep_of_none as hc] at hp
      cases hp
      cases hr
    · rw [manyStep_of_some as hc] at hp
      cases hp
      exact h.size_lt c trivial _ _ hc rfl

/-- A repeated step is stepwise if its rounds are. -/
theorem steps_many {step : Parser (Option α)} (h : step.IsRound) : (many step).Steps := by
  rw [many_eq_loop]
  exact steps_loop (progress_manyStep h) []

end Parser

end GoPages

import GoPages.Proofs.Token.Pieces

/-!
# Implied semicolons

Between two tokens of a text stand white space, comments, and at most one implied semicolon. There
is one exactly if a statement may end with the first token (`Token.EndsStatement`) and if a line
ends before the second one: there is a line feed between them, or the second one is the end of the
file.

The lexemes of a text are laid out with one bit of memory: may a statement end before the next
lexeme? `length_tokensOf_gap` says what this bit does to the pieces before the next token of the
text, and `length_tokensOf_between` sets the bit by the token before. Together they say that the
tokens follow the lines of the text (`tokenize_followsLines`).
-/

namespace GoPages

/-- Can a statement end with the token? It can end with a name, a number or a literal, with one of
four keywords, and with one of five operators and brackets. -/
def Token.EndsStatement (t : Token) : Prop :=
  t.kind ∈ [.ident, .number, .char, .string] ∨
    t.kind = .keyword ∧ t.text ∈ ["break", "continue", "fallthrough", "return"] ∨
    t.kind = .op ∧ t.text ∈ ["++", "--", ")", "]", "\x7d"]

/-- What the scanner asks of a token is whether a statement may end with it. -/
private theorem Token.endsStatement_iff (t : Token) :
    endsStatement t.kind t.text ↔ t.EndsStatement := by
  unfold endsStatement EndsStatement
  cases t.kind <;> simp [List.contains_eq_mem]

instance (t : Token) : Decidable t.EndsStatement := decidable_of_iff _ t.endsStatement_iff

/-- May the piece stand between two tokens of the text? White space, comments and implied semicolons
may. -/
def Piece.IsBetween : Piece → Prop
  | token t => t.isImplied
  | _ => True

/-- The pieces of a text with the end of the file after them. -/
def Lexed.withEnd (lexed : Lexed) (pieces : List Piece) : List Piece :=
  pieces ++ [.token (Token.endOfFile lexed.finish)]

/-- Among the pieces of a text, semicolons are implied by the ends of lines. -/
structure Lexed.FollowsLines (lexed : Lexed) (pieces : List Piece) : Prop where
  /-- No semicolon is implied before the first token of the text. -/
  first : ∀ gap b rest, lexed.withEnd pieces = gap ++ .token b :: rest →
    (∀ x ∈ gap, x.IsBetween) → b.isImplied = false → Piece.tokensOf gap = []
  /-- Between two tokens of the text with no other one between them, one semicolon is implied at the
  end of a line after the end of a statement, and else none. -/
  between : ∀ before a gap b rest,
    lexed.withEnd pieces = before ++ .token a :: (gap ++ .token b :: rest) →
    a.isImplied = false → b.isImplied = false → (∀ x ∈ gap, x.IsBetween) →
    (Piece.tokensOf gap).length =
      if a.EndsStatement ∧ (b.kind = .eof ∨ '\n' ∈ Piece.textOf gap) then 1 else 0

/-! ### Lexemes between tokens -/

/-- A character of white space other than a line feed, or a line comment, has no line feed. -/
theorem Lexeme.HasShape.notMem_newline {x : Lexeme} (h : x.HasShape)
    (hcls : x.cls = .blank ∨ x.cls = .lineComment) : '\n' ∉ x.text := by
  rcases hcls with hcls | hcls
  · have htext : x.text ∈ [[' '], ['\t'], ['\r']] := by simpa [HasShape, hcls] using h
    grind
  · simpa [HasShape, hcls] using h

section Between

variable {p : Placed} {pending : Bool} (hshape : p.lexeme.HasShape)
  (hbetween : ∀ kind, p.lexeme.cls ≠ .token kind)
include hshape hbetween

/-- A lexeme that is no token implies a semicolon if it has a line feed. -/
theorem Placed.tokensOf_pieces :
    Piece.tokensOf (p.pieces pending) =
      impliedAt (pending && p.lexeme.text.contains '\n') p.location := by
  cases hcls : p.lexeme.cls with
  | blank => simp [pieces, hcls, hshape.notMem_newline (.inl hcls), impliedAt]
  | newline =>
    have htext : p.lexeme.text = ['\n'] := by simpa [Lexeme.HasShape, hcls] using hshape
    simp [pieces, hcls, htext]
  | lineComment =>
    simp [pieces, hcls, tokensOf_ending, hshape.notMem_newline (.inr hcls), impliedAt]
  | blockComment => simp [pieces, hcls]
  | token kind => exact absurd hcls (hbetween kind)

/-- No statement ends after a line feed. -/
theorem Placed.pendingAfter_eq :
    p.pendingAfter pending = (pending && !p.lexeme.text.contains '\n') := by
  cases hcls : p.lexeme.cls with
  | blank => simp [pendingAfter, hcls, hshape.notMem_newline (.inl hcls)]
  | newline =>
    have htext : p.lexeme.text = ['\n'] := by simpa [Lexeme.HasShape, hcls] using hshape
    simp [pendingAfter, hcls, htext]
  | lineComment => simp [pendingAfter, hcls, hshape.notMem_newline (.inr hcls)]
  | blockComment => rw [pendingAfter, hcls]
  | token kind => exact absurd hcls (hbetween kind)

end Between

/-- The pieces of a lexeme that is no token may stand between two tokens. -/
theorem Placed.isBetween_of_mem_pieces {p : Placed} {pending : Bool}
    (h : ∀ kind, p.lexeme.cls ≠ .token kind) : ∀ x ∈ p.pieces pending, x.IsBetween := by
  intro x hx
  cases x with
  | blank c => trivial
  | comment c => trivial
  | token t =>
    rcases mem_tokensOf_pieces (Piece.mem_tokensOf.mpr hx) with himplied | ⟨kind, hcls, -⟩
    · exact himplied
    · exact absurd hcls (h kind)

private theorem isBetween_of_mem_impliedPieces {pending : Bool} {l : Location} :
    ∀ x ∈ impliedPieces pending l, x.IsBetween := by
  intro x hx
  cases pending with
  | false => cases hx
  | true =>
    obtain rfl := List.mem_singleton.mp hx
    rfl

/-! ### The next token of the text -/

/-- Pieces that may stand between tokens stand before the next token of the text. -/
theorem exists_append_of_isBetween {xs ys before rest : List Piece} {b : Token}
    (hxs : ∀ x ∈ xs, x.IsBetween) (hb : b.isImplied = false)
    (h : xs ++ ys = before ++ .token b :: rest) :
    ∃ before', before = xs ++ before' ∧ ys = before' ++ .token b :: rest := by
  rcases List.append_eq_append_iff.mp h with ⟨before', hbefore, hys⟩ | ⟨inner, hinner, hrest⟩
  · exact ⟨before', hbefore, hys⟩
  · cases inner with
    | nil => exact ⟨[], by simpa using hinner.symm, by simpa using hrest.symm⟩
    | cons x inner =>
      obtain ⟨rfl, -⟩ := List.cons.inj hrest
      have himplied : b.isImplied := hxs (.token b) (by simp [hinner])
      rw [hb] at himplied
      cases himplied

section Layout

variable {finish : Location} {placed : List Placed}
  (hshape : ∀ p ∈ placed, p.lexeme.HasShape)
include hshape

/-- What the laid out pieces have before the next token: a semicolon if a statement may end before
them and a line ends among them. -/
theorem length_tokensOf_gap {pending : Bool} {gap rest : List Piece} {b : Token}
    (h : layout finish pending placed ++ [.token (Token.endOfFile finish)] =
      gap ++ .token b :: rest)
    (hgap : ∀ x ∈ gap, x.IsBetween) (hb : b.isImplied = false) :
    (Piece.tokensOf gap).length =
      if pending ∧ (b.kind = .eof ∨ '\n' ∈ Piece.textOf gap) then 1 else 0 := by
  induction placed generalizing pending gap with
  | nil =>
    obtain ⟨gap', rfl, hend⟩ := exists_append_of_isBetween isBetween_of_mem_impliedPieces hb h
    obtain ⟨rfl, rfl⟩ : gap' = [] ∧ b = Token.endOfFile finish := by
      cases gap' with
      | nil => exact ⟨rfl, (Piece.token.inj (List.cons.inj hend).1).symm⟩
      | cons x gap' => simp at hend
    cases pending <;> simp [Token.endOfFile, impliedAt]
  | cons p placed ih =>
    obtain ⟨hp, hplaced⟩ := List.forall_mem_cons.mp hshape
    rw [layout, List.append_assoc] at h
    by_cases htoken : ∃ kind, p.lexeme.cls = .token kind
    · -- the lexeme is the next token, and nothing stands before it
      obtain ⟨kind, hcls⟩ := htoken
      have himplied := Placed.isImplied_token hp hcls
      rw [Placed.pieces, hcls] at h
      cases gap with
      | nil =>
        obtain ⟨hb', -⟩ := List.cons.inj h
        cases hb'
        simp [Placed.token, hp.kind_ne_eof hcls]
      | cons x gap =>
        obtain ⟨rfl, -⟩ := List.cons.inj h
        have hx : (p.token kind).isImplied := hgap _ List.mem_cons_self
        rw [himplied] at hx
        cases hx
    · have hbetween := not_exists.mp htoken
      obtain ⟨gap', rfl, hrest⟩ :=
        exists_append_of_isBetween (Placed.isBetween_of_mem_pieces hbetween) hb h
      have hlength := ih hplaced hrest fun x hx => hgap x (List.mem_append_right _ hx)
      rw [Placed.pendingAfter_eq hp hbetween] at hlength
      rw [Piece.tokensOf_append, Placed.tokensOf_pieces hp hbetween, List.length_append, hlength]
      simp only [Piece.textOf_append, Placed.textOf_pieces hp, List.mem_append]
      by_cases hline : '\n' ∈ p.lexeme.text <;> cases pending <;> simp [impliedAt, hline]

/-- Between a token of the text and the next one there is a semicolon if a statement may end with
the first one and a line ends between them. -/
theorem length_tokensOf_between {pending : Bool} {before gap rest : List Piece} {a b : Token}
    (h : layout finish pending placed ++ [.token (Token.endOfFile finish)] =
      before ++ .token a :: (gap ++ .token b :: rest))
    (ha : a.isImplied = false) (hb : b.isImplied = false) (hgap : ∀ x ∈ gap, x.IsBetween) :
    (Piece.tokensOf gap).length =
      if a.EndsStatement ∧ (b.kind = .eof ∨ '\n' ∈ Piece.textOf gap) then 1 else 0 := by
  -- the first token is looked for, lexeme by lexeme; the bit behind it says whether a statement may
  -- end with it
  induction placed generalizing pending before with
  | nil =>
    obtain ⟨before', rfl, hend⟩ := exists_append_of_isBetween isBetween_of_mem_impliedPieces ha h
    have := congrArg List.length hend
    simp only [List.length_append, List.length_cons, List.length_nil] at this
    omega
  | cons p placed ih =>
    obtain ⟨hp, hplaced⟩ := List.forall_mem_cons.mp hshape
    rw [layout, List.append_assoc] at h
    by_cases htoken : ∃ kind, p.lexeme.cls = .token kind
    · obtain ⟨kind, hcls⟩ := htoken
      rw [Placed.pieces, hcls] at h
      cases before with
      | nil =>
        obtain ⟨ha', hrest⟩ := List.cons.inj h
        cases ha'
        have hpending : p.pendingAfter pending ↔ (p.token kind).EndsStatement := by
          rw [Placed.pendingAfter, hcls]
          exact Token.endsStatement_iff (p.token kind)
        rw [length_tokensOf_gap hplaced hrest hgap hb]
        simp only [hpending]
      | cons x before => exact ih hplaced (List.cons.inj h).2
    · obtain ⟨before', rfl, hrest⟩ := exists_append_of_isBetween
        (Placed.isBetween_of_mem_pieces (not_exists.mp htoken)) ha h
      exact ih hplaced hrest

end Layout

/-- **Semicolons are implied by the ends of lines.** A text is made up of pieces of which this can
be seen: an implied semicolon stands before the next token, once, exactly where a line ends after a
token with which a statement can end. -/
theorem tokenize_followsLines {file source : String} {lexed : Lexed}
    (h : tokenize file source = .ok lexed) :
    ∃ pieces, lexed.IsLaidOut (withoutMark source.toList) pieces ∧ lexed.FollowsLines pieces := by
  obtain ⟨placed, finish, hplaced, rfl⟩ := exists_lexemes_of_tokenize h
  have hshape : ∀ p ∈ placed, p.lexeme.HasShape :=
    fun p hp => (hasShape_of_mem_lexemes hplaced p hp).1
  refine ⟨_, isLaidOut_layout hplaced, ?_, ?_⟩
  · intro gap b rest hsplit hgap hb
    have hlength := length_tokensOf_gap hshape hsplit hgap hb
    simpa using hlength
  · intro before a gap b rest hsplit ha hb hgap
    exact length_tokensOf_between hshape hsplit ha hb hgap

/-- In the marked text a comment with a line feed implies a semicolon after a name, and the end of a
line comment implies one after a literal. -/
theorem tokenize_followsLines_markedSource :
    ∃ lexed, tokenize "app.go" markedSource = .ok lexed ∧
      lexed.tokens.map Token.text =
        ["x", "\n", "=", "\"\\é\"", "\n", "y", "(", "`\n`", ")", "\n"] ∧
      ∃ pieces, lexed.IsLaidOut (withoutMark markedSource.toList) pieces ∧
        lexed.FollowsLines pieces := by
  obtain ⟨lexed, h, htexts⟩ := exists_tokenize_markedSource
  exact ⟨lexed, h, htexts, tokenize_followsLines h⟩

end GoPages

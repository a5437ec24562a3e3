import GoPages.Proofs.Token.Shapes

/-!
# Nothing of a source text is lost

A `Piece` of a source text is a character of white space, a token or a comment. An implied semicolon
is a piece too, which takes no text (`Token.span`).

* `Lexed.IsLaidOut` says of pieces that they make up the text, and that their tokens and comments
  are those of the text in the same order.
* `layout` goes over the lexemes of a text like `assemble` and gives such pieces
  (`assemble_eq`, `textOf_layout`).
* `tokenize_lossless` is the result: the tokens and comments of a text make it up together with
  white space, no token of the text is empty, and the end of the file is the last token and no other
  one.
-/

namespace GoPages

/-- A piece of a source text. -/
inductive Piece where
  /-- A character of white space. -/
  | blank (c : Char)
  | token (t : Token)
  | comment (c : Comment)

/-- Is the token a semicolon that does not stand in the text? -/
def Token.isImplied (t : Token) : Bool := t.kind == .semicolon && t.text == "\n"

/-- The text that a token takes in its source. -/
def Token.span (t : Token) : List Char := if t.isImplied then [] else t.text.toList

namespace Piece

/-- The text that a piece takes in its source. -/
def text : Piece → List Char
  | blank c => [c]
  | token t => t.span
  | comment c => c.text.toList

/-- The text that pieces make up. -/
def textOf (pieces : List Piece) : List Char := pieces.flatMap text

/-- The tokens among pieces. -/
def tokensOf (pieces : List Piece) : List Token :=
  pieces.filterMap fun
    | token t => some t
    | _ => none

/-- The comments among pieces. -/
def commentsOf (pieces : List Piece) : List Comment :=
  pieces.filterMap fun
    | comment c => some c
    | _ => none

/-- Is the piece, if it is white space, a space, a tab or a character of the end of a line? -/
def IsSpacing : Piece → Prop
  | blank c => c ∈ [' ', '\t', '\r', '\n']
  | _ => True

end Piece

/-- The pieces make up the text, and their tokens and comments are those of the text. -/
structure Lexed.IsLaidOut (lexed : Lexed) (cs : List Char) (pieces : List Piece) : Prop where
  text : Piece.textOf pieces = cs
  tokens : Piece.tokensOf pieces = lexed.tokens
  comments : Piece.commentsOf pieces = lexed.comments
  spacing : ∀ x ∈ pieces, x.IsSpacing

/-! ### Lists of pieces -/

namespace Piece

@[simp] theorem textOf_nil : textOf [] = [] := rfl

@[simp] theorem textOf_cons (x : Piece) (xs : List Piece) :
    textOf (x :: xs) = x.text ++ textOf xs := rfl

@[simp] theorem textOf_append (xs ys : List Piece) : textOf (xs ++ ys) = textOf xs ++ textOf ys :=
  List.flatMap_append

@[simp] theorem tokensOf_nil : tokensOf [] = [] := rfl

@[simp] theorem tokensOf_append (xs ys : List Piece) :
    tokensOf (xs ++ ys) = tokensOf xs ++ tokensOf ys := List.filterMap_append

@[simp] theorem tokensOf_blank (c : Char) (xs : List Piece) :
    tokensOf (blank c :: xs) = tokensOf xs := rfl

@[simp] theorem tokensOf_token (t : Token) (xs : List Piece) :
    tokensOf (token t :: xs) = t :: tokensOf xs := rfl

@[simp] theorem tokensOf_comment (c : Comment) (xs : List Piece) :
    tokensOf (comment c :: xs) = tokensOf xs := rfl

@[simp] theorem commentsOf_nil : commentsOf [] = [] := rfl

@[simp] theorem commentsOf_append (xs ys : List Piece) :
    commentsOf (xs ++ ys) = commentsOf xs ++ commentsOf ys := List.filterMap_append

@[simp] theorem commentsOf_blank (c : Char) (xs : List Piece) :
    commentsOf (blank c :: xs) = commentsOf xs := rfl

@[simp] theorem commentsOf_token (t : Token) (xs : List Piece) :
    commentsOf (token t :: xs) = commentsOf xs := rfl

@[simp] theorem commentsOf_comment (c : Comment) (xs : List Piece) :
    commentsOf (comment c :: xs) = c :: commentsOf xs := rfl

/-- The tokens of pieces are the tokens among them. -/
theorem mem_tokensOf {t : Token} {xs : List Piece} : t ∈ tokensOf xs ↔ token t ∈ xs := by
  rw [tokensOf, List.mem_filterMap]
  constructor
  · rintro ⟨x, hx, h⟩
    cases x <;> cases h
    exact hx
  · exact fun hx => ⟨_, hx, rfl⟩

/-- The comments of pieces are the comments among them. -/
theorem mem_commentsOf {c : Comment} {xs : List Piece} : c ∈ commentsOf xs ↔ comment c ∈ xs := by
  rw [commentsOf, List.mem_filterMap]
  constructor
  · rintro ⟨x, hx, h⟩
    cases x <;> cases h
    exact hx
  · exact fun hx => ⟨_, hx, rfl⟩

/-- A character of the text of pieces stands in the text of one of them. -/
theorem mem_textOf {c : Char} {xs : List Piece} : c ∈ textOf xs ↔ ∃ x ∈ xs, c ∈ x.text :=
  List.mem_flatMap

end Piece

/-! ### Implied semicolons -/

@[simp] theorem Token.span_impliedSemicolon (l : Location) : (impliedSemicolon l).span = [] := rfl

/-- A token that is not implied takes its own text. -/
theorem Token.span_of_isImplied_eq_false {t : Token} (h : t.isImplied = false) :
    t.span = t.text.toList := by
  rw [span, h]
  rfl

/-- The piece of the semicolon at `l`, if the line structure implies one there. -/
def impliedPieces (pending : Bool) (l : Location) : List Piece :=
  if pending then [.token (Token.impliedSemicolon l)] else []

section Implied

variable (pending : Bool) (l : Location)

@[simp] theorem textOf_impliedPieces : Piece.textOf (impliedPieces pending l) = [] := by
  cases pending <;> rfl

@[simp] theorem tokensOf_impliedPieces :
    Piece.tokensOf (impliedPieces pending l) = impliedAt pending l := by
  cases pending <;> rfl

@[simp] theorem commentsOf_impliedPieces : Piece.commentsOf (impliedPieces pending l) = [] := by
  cases pending <;> rfl

private theorem isSpacing_of_mem_impliedPieces {x : Piece} (h : x ∈ impliedPieces pending l) :
    x.IsSpacing := by
  cases pending with
  | false => cases h
  | true =>
    obtain rfl := List.mem_singleton.mp h
    trivial

private theorem isImplied_of_mem_impliedAt {t : Token} (h : t ∈ impliedAt pending l) :
    t.isImplied := by
  cases pending with
  | false => cases h
  | true =>
    obtain rfl := List.mem_singleton.mp h
    rfl

end Implied

/-! ### The pieces of lexemes -/

namespace Placed

/-- The pieces of a lexeme, after a semicolon that may be implied at it. The carriage return at the
end of a line comment stands apart from the comment. -/
def pieces (p : Placed) (pending : Bool) : List Piece :=
  match p.lexeme.cls with
  | .blank => p.lexeme.text.map .blank
  | .newline => impliedPieces pending p.location ++ p.lexeme.text.map .blank
  | .lineComment =>
    .comment p.comment ::
      if (Text.stripEnd? ['\r'] p.lexeme.text).isSome then [.blank '\r'] else []
  | .blockComment =>
    impliedPieces (pending && p.lexeme.text.contains '\n') p.location ++ [.comment p.comment]
  | .token kind => [.token (p.token kind)]

/-- May a statement end after the lexeme, if it may or may not end before it? -/
def pendingAfter (p : Placed) (pending : Bool) : Bool :=
  match p.lexeme.cls with
  | .blank => pending
  | .newline => false
  | .lineComment => pending
  | .blockComment => pending && !p.lexeme.text.contains '\n'
  | .token kind => endsStatement kind (p.token kind).text

end Placed

/-- The pieces of lexemes that end at `finish`. The second argument says whether the token before
them may end a statement. -/
def layout (finish : Location) : (pending : Bool) → List Placed → List Piece
  | pending, [] => impliedPieces pending finish
  | pending, p :: rest => p.pieces pending ++ layout finish (p.pendingAfter pending) rest

@[simp] theorem tokensOf_map_blank (cs : List Char) : Piece.tokensOf (cs.map .blank) = [] := by
  induction cs with
  | nil => rfl
  | cons c cs ih => exact ih

@[simp] theorem commentsOf_map_blank (cs : List Char) : Piece.commentsOf (cs.map .blank) = [] := by
  induction cs with
  | nil => rfl
  | cons c cs ih => exact ih

@[simp] theorem textOf_map_blank (cs : List Char) : Piece.textOf (cs.map .blank) = cs := by
  induction cs with
  | nil => rfl
  | cons c cs ih => rw [List.map_cons, Piece.textOf_cons, ih, Piece.text, List.singleton_append]

/-- The carriage return that may end a line comment is no token. -/
theorem tokensOf_ending (b : Prop) [Decidable b] :
    Piece.tokensOf (if b then [.blank '\r'] else []) = [] := by
  split <;> rfl

private theorem commentsOf_ending (b : Prop) [Decidable b] :
    Piece.commentsOf (if b then [.blank '\r'] else []) = [] := by
  split <;> rfl

/-- The layout of lexemes has the tokens and comments that are assembled of them. -/
theorem assemble_eq (finish : Location) (pending : Bool) (placed : List Placed) :
    assemble finish pending placed =
      ⟨Piece.tokensOf (layout finish pending placed), finish,
        Piece.commentsOf (layout finish pending placed)⟩ := by
  fun_induction assemble finish pending placed with
  | case1 => simp [layout]
  | case2 pending p rest hcls ih => simp [layout, Placed.pieces, Placed.pendingAfter, hcls, ih]
  | case3 pending p rest hcls lexed ih =>
    simp [layout, Placed.pieces, Placed.pendingAfter, hcls, lexed, ih]
  | case4 pending p rest hcls lexed ih =>
    simp [layout, Placed.pieces, Placed.pendingAfter, hcls, lexed, ih, tokensOf_ending,
      commentsOf_ending]
  | case5 pending p rest hcls breaks lexed ih =>
    simp [layout, Placed.pieces, Placed.pendingAfter, hcls, lexed, ih, breaks]
  | case6 pending p rest kind hcls token lexed ih =>
    simp [layout, Placed.pieces, Placed.pendingAfter, hcls, lexed, ih, token]

/-! ### Tokens that stand in the text -/

namespace Lexeme

variable {x : Lexeme} {kind : TokenKind}

/-- No lexeme of a text is the end of the file. -/
theorem HasShape.kind_ne_eof (h : x.HasShape) (hcls : x.cls = .token kind) : kind ≠ .eof := by
  rintro rfl
  simp [HasShape, hcls] at h

/-- A semicolon that is scanned is written as one. -/
theorem HasShape.text_of_semicolon (h : x.HasShape) (hcls : x.cls = .token .semicolon) :
    x.text = [';'] := by
  simpa [HasShape, hcls] using h

end Lexeme

namespace Placed

variable {p : Placed} {kind : TokenKind}

/-- The token of a lexeme is not an implied one. -/
theorem isImplied_token (h : p.lexeme.HasShape) (hcls : p.lexeme.cls = .token kind) :
    (p.token kind).isImplied = false := by
  by_cases hkind : kind = .semicolon
  · subst hkind
    rw [Token.isImplied, token, h.text_of_semicolon hcls]
    rfl
  · rw [Token.isImplied, token, beq_eq_false_iff_ne.mpr hkind, Bool.false_and]

/-- A line comment with the carriage return after it is the lexeme. -/
theorem textOf_lineComment (hcls : p.lexeme.cls = .lineComment) :
    Piece.textOf (p.pieces false) = p.lexeme.text := by
  simp only [pieces, comment, hcls]
  cases hstrip : Text.stripEnd? ['\r'] p.lexeme.text with
  | none => simp [Piece.text]
  | some body =>
    rw [Text.stripEnd?_eq_some_iff.mp hstrip]
    simp [Piece.text]

/-- The pieces of a lexeme make it up. -/
theorem textOf_pieces (h : p.lexeme.HasShape) (pending : Bool) :
    Piece.textOf (p.pieces pending) = p.lexeme.text := by
  cases hcls : p.lexeme.cls with
  | blank => simp [pieces, hcls]
  | newline => simp [pieces, hcls]
  | lineComment => simpa [pieces, hcls] using textOf_lineComment hcls
  | blockComment => simp [pieces, comment, hcls, Piece.text]
  | token kind =>
    simp only [pieces, hcls, Piece.textOf_cons, Piece.textOf_nil, Piece.text, List.append_nil]
    rw [Token.span_of_isImplied_eq_false (isImplied_token h hcls), token, String.toList_ofList]

private theorem isSpacing_of_mem_pieces (h : p.lexeme.HasShape) {pending : Bool} {x : Piece}
    (hx : x ∈ p.pieces pending) : x.IsSpacing := by
  cases hcls : p.lexeme.cls with
  | blank =>
    simp only [pieces, hcls, List.mem_map] at hx
    obtain ⟨c, hc, rfl⟩ := hx
    simp only [Lexeme.HasShape, hcls] at h
    simp only [Piece.IsSpacing]
    grind
  | newline =>
    simp only [pieces, hcls, List.mem_append, List.mem_map] at hx
    rcases hx with hx | ⟨c, hc, rfl⟩
    · exact isSpacing_of_mem_impliedPieces _ _ hx
    · simp only [Lexeme.HasShape, hcls] at h
      simp only [Piece.IsSpacing]
      grind
  | lineComment =>
    simp only [pieces, hcls, List.mem_cons] at hx
    rcases hx with rfl | hx
    · trivial
    · split at hx
      · obtain rfl := List.mem_singleton.mp hx
        simp [Piece.IsSpacing]
      · cases hx
  | blockComment =>
    simp only [pieces, hcls, List.mem_append, List.mem_singleton] at hx
    rcases hx with hx | rfl
    · exact isSpacing_of_mem_impliedPieces _ _ hx
    · trivial
  | token kind =>
    simp only [pieces, hcls, List.mem_singleton] at hx
    subst hx
    trivial

end Placed

/-! ### Whole texts -/

section Layout

variable {placed : List Placed} (hshape : ∀ p ∈ placed, p.lexeme.HasShape)
include hshape

/-- The layout of lexemes makes up their texts. -/
theorem textOf_layout (finish : Location) (pending : Bool) :
    Piece.textOf (layout finish pending placed) = placed.flatMap fun p => p.lexeme.text := by
  induction placed generalizing pending with
  | nil => simp [layout]
  | cons p rest ih =>
    obtain ⟨hp, hrest⟩ := List.forall_mem_cons.mp hshape
    rw [layout, Piece.textOf_append, Placed.textOf_pieces hp, ih hrest, List.flatMap_cons]

/-- What stands between the tokens and comments of a layout is white space. -/
theorem isSpacing_of_mem_layout (finish : Location) (pending : Bool) :
    ∀ x ∈ layout finish pending placed, x.IsSpacing := by
  induction placed generalizing pending with
  | nil => exact fun x hx => isSpacing_of_mem_impliedPieces _ _ hx
  | cons p rest ih =>
    obtain ⟨hp, hrest⟩ := List.forall_mem_cons.mp hshape
    intro x hx
    rcases List.mem_append.mp hx with hx | hx
    · exact Placed.isSpacing_of_mem_pieces hp hx
    · exact ih hrest _ x hx

end Layout

/-- The tokens among the pieces of a lexeme are implied, or the token that the lexeme is. -/
theorem Placed.mem_tokensOf_pieces {p : Placed} {pending : Bool} {t : Token}
    (h : t ∈ Piece.tokensOf (p.pieces pending)) :
    t.isImplied ∨ ∃ kind, p.lexeme.cls = .token kind ∧ t = p.token kind := by
  cases hcls : p.lexeme.cls with
  | blank => simp [pieces, hcls] at h
  | newline =>
    simp only [pieces, hcls, Piece.tokensOf_append, tokensOf_impliedPieces, tokensOf_map_blank,
      List.append_nil] at h
    exact .inl (isImplied_of_mem_impliedAt _ _ h)
  | lineComment => simp [pieces, hcls, tokensOf_ending] at h
  | blockComment =>
    simp only [pieces, hcls, Piece.tokensOf_append, tokensOf_impliedPieces, Piece.tokensOf_comment,
      Piece.tokensOf_nil, List.append_nil] at h
    exact .inl (isImplied_of_mem_impliedAt _ _ h)
  | token kind =>
    simp only [pieces, hcls, Piece.tokensOf_token, Piece.tokensOf_nil, List.mem_singleton] at h
    exact .inr ⟨kind, rfl, h⟩

/-- A token is implied or stands for a lexeme of its kind. -/
theorem mem_tokensOf_layout {finish : Location} {pending : Bool} {placed : List Placed} {t : Token}
    (h : t ∈ Piece.tokensOf (layout finish pending placed)) :
    t.isImplied ∨ ∃ p ∈ placed, ∃ kind, p.lexeme.cls = .token kind ∧ t = p.token kind := by
  induction placed generalizing pending with
  | nil =>
    rw [layout, tokensOf_impliedPieces] at h
    exact .inl (isImplied_of_mem_impliedAt _ _ h)
  | cons p rest ih =>
    rw [layout, Piece.tokensOf_append, List.mem_append] at h
    rcases h with h | h
    · exact (Placed.mem_tokensOf_pieces h).imp_right fun ⟨kind, hcls, ht⟩ =>
        ⟨p, List.mem_cons_self, kind, hcls, ht⟩
    · exact (ih h).imp_right fun ⟨q, hq, hkind⟩ => ⟨q, List.mem_cons_of_mem _ hq, hkind⟩

/-- Every lexeme that is a token gives one. -/
theorem token_mem_tokensOf_layout {placed : List Placed} {p : Placed} {kind : TokenKind}
    (hp : p ∈ placed) (hcls : p.lexeme.cls = .token kind) (finish : Location) (pending : Bool) :
    p.token kind ∈ Piece.tokensOf (layout finish pending placed) := by
  induction placed generalizing pending with
  | nil => cases hp
  | cons q rest ih =>
    rw [layout, Piece.tokensOf_append, List.mem_append]
    rcases List.mem_cons.mp hp with rfl | hp
    · exact .inl (by simp [Placed.pieces, hcls])
    · exact .inr (ih hp _)

/-- The lexemes of a source text, whose tokens and comments are those of their layout. -/
theorem exists_lexemes_of_tokenize {file source : String} {lexed : Lexed}
    (h : tokenize file source = .ok lexed) :
    ∃ placed finish, lexemes ⟨file, 1, 1⟩ (withoutMark source.toList) = .ok (placed, finish) ∧
      lexed = ⟨Piece.tokensOf (layout finish false placed), finish,
        Piece.commentsOf (layout finish false placed)⟩ := by
  obtain ⟨placed, finish, hplaced, rfl⟩ := exists_assemble_of_tokenize h
  exact ⟨placed, finish, hplaced, assemble_eq finish false placed⟩

/-- The layout of the lexemes of a text is one of the text. -/
theorem isLaidOut_layout {l finish : Location} {cs : List Char} {placed : List Placed}
    (h : lexemes l cs = .ok (placed, finish)) :
    Lexed.IsLaidOut ⟨Piece.tokensOf (layout finish false placed), finish,
      Piece.commentsOf (layout finish false placed)⟩ cs (layout finish false placed) := by
  have hshape : ∀ p ∈ placed, p.lexeme.HasShape := fun p hp => (hasShape_of_mem_lexemes h p hp).1
  refine ⟨?_, rfl, rfl, isSpacing_of_mem_layout hshape finish false⟩
  rw [textOf_layout hshape, flatMap_text_of_lexemes h]

/-- The tokens of a text are implied, or they stand in it: they have a text, and they are not the
end of the file. -/
theorem Lexed.kind_ne_eof_of_mem_tokens {file source : String} {lexed : Lexed}
    (h : tokenize file source = .ok lexed) :
    ∀ t ∈ lexed.tokens, t.kind ≠ .eof ∧ (t.isImplied ∨ t.text ≠ "") := by
  obtain ⟨placed, finish, hplaced, rfl⟩ := exists_lexemes_of_tokenize h
  intro t ht
  rcases mem_tokensOf_layout ht with himplied | ⟨p, hp, kind, hcls, rfl⟩
  · refine ⟨?_, .inl himplied⟩
    intro heof
    simp [Token.isImplied, heof] at himplied
  · obtain ⟨hshape, hne⟩ := hasShape_of_mem_lexemes hplaced p hp
    refine ⟨hshape.kind_ne_eof hcls, .inr ?_⟩
    simpa [Placed.token, String.ofList_eq_empty_iff] using hne

/-- The text of a file, without its byte order mark, is laid out as pieces with its tokens and
comments. -/
theorem Lexed.exists_isLaidOut {file source : String} {lexed : Lexed}
    (h : tokenize file source = .ok lexed) :
    ∃ pieces, lexed.IsLaidOut (withoutMark source.toList) pieces := by
  obtain ⟨placed, finish, hplaced, rfl⟩ := exists_lexemes_of_tokenize h
  exact ⟨_, isLaidOut_layout hplaced⟩

/-- The end of the file is the only token of its kind. -/
theorem Lexed.filter_eof_allTokens {file source : String} {lexed : Lexed}
    (h : tokenize file source = .ok lexed) :
    lexed.allTokens.filter (fun t => t.kind == .eof) = [Token.endOfFile lexed.finish] := by
  have hnone : lexed.tokens.filter (fun t => t.kind == .eof) = [] :=
    List.filter_eq_nil_iff.mpr fun t ht => by simpa using (kind_ne_eof_of_mem_tokens h t ht).1
  rw [allTokens, List.filter_append, hnone]
  rfl

/-- **Nothing of a source text is lost.** A text without its byte order mark is made up, in order,
of its tokens other than implied semicolons, its comments, and white space. Every such token has a
text, and the end of the file is the last token and no other one. -/
theorem tokenize_lossless {file source : String} {lexed : Lexed}
    (h : tokenize file source = .ok lexed) :
    (∃ pieces, lexed.IsLaidOut (withoutMark source.toList) pieces) ∧
      (∀ t ∈ lexed.tokens, t.isImplied ∨ t.text ≠ "") ∧
      lexed.allTokens.getLast? = some (Token.endOfFile lexed.finish) ∧
      lexed.allTokens.filter (fun t => t.kind == .eof) = [Token.endOfFile lexed.finish] := by
  have htokens := Lexed.kind_ne_eof_of_mem_tokens h
  refine ⟨Lexed.exists_isLaidOut h, fun t ht => (htokens t ht).2, ?_, Lexed.filter_eof_allTokens h⟩
  rw [Lexed.allTokens, List.getLast?_concat]

/-- A source text with a byte order mark, comments of both kinds, an escape before a character of
several bytes, and a literal over two lines. -/
def markedSource : String :=
  String.ofList ('\ufeff' :: "x /* a\n */ = \"\\é\" // b\r\ny(`\n`)".toList)

set_option maxRecDepth 100000 in
/-- The tokens of the text are those of the two lines, of the literal with an escape and of the one
with a line feed. -/
theorem exists_tokenize_markedSource :
    ∃ lexed, tokenize "app.go" markedSource = .ok lexed ∧
      lexed.tokens.map Token.text =
        ["x", "\n", "=", "\"\\é\"", "\n", "y", "(", "`\n`", ")", "\n"] := by
  have hall : (tokenize "app.go" markedSource).toOption.any (fun lexed =>
      lexed.tokens.map Token.text ==
        ["x", "\n", "=", "\"\\é\"", "\n", "y", "(", "`\n`", ")", "\n"]) = true := by
    unfold tokenize markedSource
    rewrite [String.toList_ofList]
    decide +kernel
  obtain ⟨lexed, h, htest⟩ := exists_tokenize_of_any hall
  exact ⟨lexed, h, beq_iff_eq.mp htest⟩

theorem tokenize_lossless_markedSource :
    ∃ lexed, tokenize "app.go" markedSource = .ok lexed ∧ lexed.tokens.length = 10 ∧
      (∃ pieces, lexed.IsLaidOut (withoutMark markedSource.toList) pieces) ∧
      (∀ t ∈ lexed.tokens, t.isImplied ∨ t.text ≠ "") ∧
      lexed.allTokens.getLast? = some (Token.endOfFile lexed.finish) ∧
      lexed.allTokens.filter (fun t => t.kind == .eof) = [Token.endOfFile lexed.finish] := by
  obtain ⟨lexed, h, htexts⟩ := exists_tokenize_markedSource
  have hlength := congrArg List.length htexts
  rw [List.length_map] at hlength
  exact ⟨lexed, h, hlength, tokenize_lossless h⟩

end GoPages

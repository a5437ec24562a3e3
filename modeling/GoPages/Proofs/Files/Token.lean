import GoPages.Token.Lexer

/-!
# Tokens under another file name

`mapFile φ` gives locations the file name that `φ` gives theirs, and so everything that has a
location. The name of a file does not matter for how its text is read: the tokens of the text under
another name are the tokens, with this name in their locations (`tokenize_mapFile`).
-/

namespace GoPages

/-! ### Locations -/

namespace Location

variable (φ : String → String)

/-- The location with another file name. -/
def mapFile (l : Location) : Location := { l with file := φ l.file }

@[simp] theorem line_mapFile (l : Location) : (l.mapFile φ).line = l.line := rfl

private theorem next_mapFile (l : Location) (c : Char) :
    (l.mapFile φ).next c = (l.next c).mapFile φ := by
  rw [next, next]
  split <;> rfl

/-- Moving over a text keeps the file. -/
theorem advance_mapFile (l : Location) (cs : List Char) :
    (l.mapFile φ).advance cs = (l.advance cs).mapFile φ :=
  List.foldl_hom (mapFile φ) fun l c => next_mapFile φ l c

/-- Locations stay different if the names of files do. -/
theorem mapFile_injective {φ : String → String} (hφ : Function.Injective φ) :
    Function.Injective (mapFile φ) := by
  rintro ⟨file, line, column⟩ ⟨file', line', column'⟩ h
  simp only [mapFile, mk.injEq] at h
  obtain ⟨hfile, rfl, rfl⟩ := h
  rw [hφ hfile]

end Location

/-! ### What has a location -/

/-- The token in another file. -/
def Token.mapFile (φ : String → String) (t : Token) : Token :=
  { t with location := t.location.mapFile φ }

section Tokens

variable (φ : String → String) (t : Token)

@[simp] theorem Token.kind_mapFile : (t.mapFile φ).kind = t.kind := rfl

@[simp] theorem Token.text_mapFile : (t.mapFile φ).text = t.text := rfl

@[simp] theorem Token.location_mapFile : (t.mapFile φ).location = t.location.mapFile φ := rfl

@[simp] theorem Token.isOp_mapFile (op : String) : (t.mapFile φ).isOp op = t.isOp op := rfl

end Tokens

/-- The comment in another file. -/
def Comment.mapFile (φ : String → String) (c : Comment) : Comment :=
  { c with location := c.location.mapFile φ }

section Comments

variable (φ : String → String) (c : Comment)

@[simp] theorem Comment.location_mapFile :
    (c.mapFile φ).location = c.location.mapFile φ := rfl

@[simp] theorem Comment.endLine_mapFile : (c.mapFile φ).endLine = c.endLine := rfl

end Comments

/-- The lexeme in another file. -/
def Placed.mapFile (φ : String → String) (p : Placed) : Placed :=
  { p with location := p.location.mapFile φ }

/-- The fault in another file. -/
def LexError.mapFile (φ : String → String) (e : LexError) : LexError :=
  { e with location := e.location.mapFile φ }

/-- The tokens and comments in another file. -/
def Lexed.mapFile (φ : String → String) (lexed : Lexed) : Lexed where
  tokens := lexed.tokens.map (Token.mapFile φ)
  finish := lexed.finish.mapFile φ
  comments := lexed.comments.map (Comment.mapFile φ)

/-! ### Failures -/

/-- A success has no error to map. -/
theorem mapError_ok {ε ε' α : Type} (f : ε → ε') (a : α) :
    (Except.ok a : Except ε α).mapError f = .ok a := rfl

/-! ### Reading lexemes -/

section Lexemes

variable (φ : String → String)

/-- The location after a lexeme is in the same file. -/
theorem Lexeme.after_mapFile (x : Lexeme) (l : Location) :
    x.after (l.mapFile φ) = (x.after l).mapFile φ := by
  rw [after, after]
  split
  · rfl
  · exact Location.advance_mapFile φ l x.text

/-- A text is cut into the same lexemes, and faults come up at the same places. -/
private theorem lexemes_mapFile (l : Location) (cs : List Char) :
    lexemes (l.mapFile φ) cs =
      ((lexemes l cs).mapError (LexError.mapFile φ)).map fun r =>
        (r.1.map (Placed.mapFile φ), r.2.mapFile φ) := by
  fun_induction lexemes l cs with
  | case1 l =>
    rw [lexemes]
    rfl
  | case2 l c cs fault hscan =>
    rw [lexemes_cons_of_error hscan]
    rfl
  | case3 l c cs x rest hscan _ e hrest ih =>
    rw [lexemes_cons_of_ok hscan, Lexeme.after_mapFile, ih, hrest]
    rfl
  | case4 l c cs x rest hscan _ placed finish hrest ih =>
    rw [lexemes_cons_of_ok hscan, Lexeme.after_mapFile, ih, hrest]
    rfl

/-! ### Tokens and comments -/

private theorem impliedAt_mapFile (pending : Bool) (l : Location) :
    impliedAt pending (l.mapFile φ) = (impliedAt pending l).map (Token.mapFile φ) := by
  cases pending <;> rfl

private theorem Placed.comment_mapFile (p : Placed) :
    (p.mapFile φ).comment = p.comment.mapFile φ := by
  have hafter : p.lexeme.after (p.location.mapFile φ) = (p.lexeme.after p.location).mapFile φ :=
    p.lexeme.after_mapFile φ p.location
  rw [comment, comment]
  simp only [mapFile, hafter]
  split <;> rfl

/-- The same semicolons are implied. -/
private theorem assemble_mapFile (finish : Location) (pending : Bool) (placed : List Placed) :
    assemble (finish.mapFile φ) pending (placed.map (Placed.mapFile φ)) =
      (assemble finish pending placed).mapFile φ := by
  induction placed generalizing pending with
  | nil => simp [assemble, Lexed.mapFile, impliedAt_mapFile]
  | cons p rest ih =>
    rw [List.map_cons, assemble, assemble]
    have hlexeme : (p.mapFile φ).lexeme = p.lexeme := rfl
    rw [hlexeme]
    cases p.lexeme.cls with
    | blank => exact ih pending
    | newline =>
      have himplied := impliedAt_mapFile φ pending p.location
      simp [ih, Lexed.mapFile, Placed.mapFile, himplied]
    | lineComment => simp [ih, Lexed.mapFile, p.comment_mapFile]
    | blockComment =>
      have himplied := impliedAt_mapFile φ (pending && p.lexeme.text.contains '\n') p.location
      simp only [ih, Lexed.mapFile, p.comment_mapFile, List.map_append, List.map_cons, ← himplied]
      rfl
    | token kind =>
      simp only [ih, Lexed.mapFile, List.map_cons]
      rfl

end Lexemes

/-- The tokens of a text under another file name. -/
theorem tokenize_mapFile (φ : String → String) (file source : String) :
    tokenize (φ file) source =
      ((tokenize file source).mapError (LexError.mapFile φ)).map (Lexed.mapFile φ) := by
  have hstart : (⟨φ file, 1, 1⟩ : Location) = Location.mapFile φ ⟨file, 1, 1⟩ := rfl
  rw [tokenize, tokenize, hstart, lexemes_mapFile]
  cases lexemes ⟨file, 1, 1⟩ (withoutMark source.toList) with
  | error e => rfl
  | ok r => exact congrArg Except.ok (assemble_mapFile φ r.2 false r.1)

end GoPages

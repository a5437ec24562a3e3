import GoPages.Proofs.Files.Token
import GoPages.Proofs.Token.Pieces
import GoPages.Proofs.Token.Rescan

/-!
# Texts that spell tokens

The *spelling* of a token is its kind and its text, without its place. `Spells pending cs ss` says
that the text `cs`, wherever it stands, is read as tokens with the spellings `ss` and has no
comment; `pending` says whether a statement may end before it. There is one rule for each way in
which such a text can start: `Spells.blank`, `Spells.newline` and `Spells.token`.

The tokens of a text are terminated (`Token.AreTerminated`): a semicolon is implied only after the
end of a statement, and before the end of the file always. Hence they are the tokens of their own
texts with a space between every two of them (`tokenize_spacedText`).
-/

namespace GoPages

/-- The kind and the text of a token. -/
abbrev Spelling := TokenKind × String

/-- The kind and the text of the token. -/
def Token.spelling (t : Token) : Spelling := (t.kind, t.text)

/-- The text is read as tokens of these spellings, without a comment, wherever it stands. -/
def Spells (pending : Bool) (cs : List Char) (ss : List Spelling) : Prop :=
  ∀ l, ∃ placed finish, lexemes l cs = .ok (placed, finish) ∧
    (assemble finish pending placed).tokens.map Token.spelling = ss ∧
    (assemble finish pending placed).comments = []

/-! ### Rules -/

/-- The spelling of the semicolon that is implied after the end of a statement. -/
def impliedSpelling (pending : Bool) : List Spelling :=
  if pending then [(.semicolon, "\n")] else []

private theorem map_spelling_impliedAt (pending : Bool) (l : Location) :
    (impliedAt pending l).map Token.spelling = impliedSpelling pending := by
  cases pending <;> rfl

private theorem scan_newline (cs : List Char) :
    Lexeme.scan '\n' cs = .ok (⟨.newline, ['\n']⟩, cs) := rfl

private theorem scan_space (cs : List Char) : Lexeme.scan ' ' cs = .ok (⟨.blank, [' ']⟩, cs) := rfl

namespace Spells

variable {pending : Bool} {cs rest : List Char} {ss : List Spelling}

/-- At the end of the text a semicolon is implied, if a statement may end there. -/
theorem nil (pending : Bool) : Spells pending [] (impliedSpelling pending) := by
  intro l
  refine ⟨[], l, by rw [lexemes], ?_, rfl⟩
  rw [assemble, map_spelling_impliedAt]

/-- A blank spells nothing. -/
theorem blank (h : Spells pending cs ss) : Spells pending (' ' :: cs) ss := by
  intro l
  obtain ⟨placed, finish, hplaced, htokens, hcomments⟩ :=
    h (Lexeme.after ⟨.blank, [' ']⟩ l)
  refine ⟨⟨l, ⟨.blank, [' ']⟩⟩ :: placed, finish, ?_, htokens, hcomments⟩
  rw [lexemes_cons_of_ok (scan_space cs), hplaced]
  rfl

/-- A line feed spells a semicolon if a statement may end before it. -/
theorem newline (h : Spells false cs ss) :
    Spells pending ('\n' :: cs) (impliedSpelling pending ++ ss) := by
  intro l
  obtain ⟨placed, finish, hplaced, htokens, hcomments⟩ :=
    h (Lexeme.after ⟨.newline, ['\n']⟩ l)
  refine ⟨⟨l, ⟨.newline, ['\n']⟩⟩ :: placed, finish, ?_, ?_, hcomments⟩
  · rw [lexemes_cons_of_ok (scan_newline cs), hplaced]
    rfl
  · rw [assemble, List.map_append, map_spelling_impliedAt, htokens]

/-- A token is read before what is read after it. -/
theorem token {c : Char} {text : List Char} {kind : TokenKind}
    (hscan : Lexeme.scan c cs = .ok (⟨.token kind, text⟩, rest))
    (h : Spells (endsStatement kind (String.ofList text)) rest ss) :
    Spells pending (c :: cs) ((kind, String.ofList text) :: ss) := by
  intro l
  obtain ⟨placed, finish, hplaced, htokens, hcomments⟩ :=
    h (Lexeme.after ⟨.token kind, text⟩ l)
  refine ⟨⟨l, ⟨.token kind, text⟩⟩ :: placed, finish, ?_, ?_, hcomments⟩
  · rw [lexemes_cons_of_ok hscan, hplaced]
    rfl
  · rw [assemble]
    exact congrArg (_ :: ·) htokens

end Spells

set_option maxRecDepth 10000 in
/-- A text that can be read starts with no byte order mark. -/
theorem withoutMark_of_scan {c : Char} {cs rest : List Char} {x : Lexeme}
    (h : Lexeme.scan c cs = .ok (x, rest)) : withoutMark (c :: cs) = c :: cs := by
  have hne : c ≠ '\ufeff' := by
    rintro rfl
    have hident : Lexeme.startsIdent '\ufeff' = false := by decide
    have hscan : Lexeme.scan '\ufeff' cs = .error (.invalidCharacter '\ufeff') := by
      simp only [Lexeme.scan, hident]
      rfl
    rw [hscan] at h
    cases h
  rw [withoutMark]
  exact fun _ hc => hne (List.cons.inj hc).1

/-- A text that spells tokens starts with no byte order mark. -/
theorem Spells.withoutMark_eq {pending : Bool} {cs : List Char} {ss : List Spelling}
    (h : Spells pending cs ss) : withoutMark cs = cs := by
  cases cs with
  | nil => rfl
  | cons c cs =>
    obtain ⟨placed, finish, hplaced, -⟩ := h ⟨"", 1, 1⟩
    cases hscan : Lexeme.scan c cs with
    | error e => rw [lexemes_cons_of_error hscan] at hplaced; cases hplaced
    | ok scanned => exact withoutMark_of_scan hscan

/-- A text that spells tokens is read as these tokens and the end of the file. -/
theorem Spells.tokenize {source : String} {ss : List Spelling}
    (h : Spells false source.toList ss) (file : String) :
    ∃ lexed, GoPages.tokenize file source = .ok lexed ∧
      lexed.allTokens.map Token.spelling = ss ++ [(.eof, "")] ∧ lexed.comments = [] := by
  obtain ⟨placed, finish, hplaced, htokens, hcomments⟩ := h ⟨file, 1, 1⟩
  refine ⟨assemble finish false placed, ?_, ?_, hcomments⟩
  · rw [GoPages.tokenize, h.withoutMark_eq, hplaced]
  · rw [Lexed.allTokens, List.map_append, htokens]
    rfl

/-! ### Terminated tokens -/

/-- Is the text of the token read as the token? -/
def Token.IsWhole (t : Token) : Prop := Lexeme.IsWhole ⟨.token t.kind, t.text.toList⟩

/-- The tokens have their implied semicolons: none but after the end of a statement, and one after
it before the end of the file. `pending` says whether a statement may end before the tokens. -/
inductive Token.AreTerminated : (pending : Bool) → List Token → Prop
  | done : AreTerminated false []
  | implied (l : Location) {ts : List Token} (h : AreTerminated false ts) :
      AreTerminated true (impliedSemicolon l :: ts)
  | token (pending : Bool) {t : Token} {ts : List Token} (ht : t.IsWhole)
      (h : AreTerminated (endsStatement t.kind t.text) ts) : AreTerminated pending (t :: ts)

namespace Token.AreTerminated

/-- An implied semicolon may stand before terminated tokens if a statement may end there. -/
private theorem impliedAt_append {pending : Bool} {l : Location} {ts : List Token}
    (h : AreTerminated false ts) : AreTerminated pending (impliedAt pending l ++ ts) := by
  cases pending with
  | false => exact h
  | true => exact .implied l h

/-- A comment with a line feed in it ends a statement, and one without does not. -/
theorem comment {pending : Bool} (breaks : Bool) {l : Location} {ts : List Token}
    (h : AreTerminated (pending && !breaks) ts) :
    AreTerminated pending (impliedAt (pending && breaks) l ++ ts) := by
  cases breaks with
  | false =>
    rw [Bool.not_false, Bool.and_true] at h
    rwa [Bool.and_false]
  | true =>
    rw [Bool.not_true, Bool.and_false] at h
    rw [Bool.and_true]
    exact impliedAt_append h

/-- The tokens of a text are terminated. -/
theorem assemble {finish : Location} {pending : Bool} {placed : List Placed}
    (h : ∀ p ∈ placed, ∃ c ds rest, Lexeme.scan c ds = .ok (p.lexeme, rest)) :
    AreTerminated pending (GoPages.assemble finish pending placed).tokens := by
  fun_induction GoPages.assemble finish pending placed with
  | case1 pending =>
    rw [← List.append_nil (impliedAt pending finish)]
    exact impliedAt_append .done
  | case2 pending p rest hcls ih => exact ih (List.forall_mem_cons.mp h).2
  | case3 pending p rest hcls lexed ih => exact impliedAt_append (ih (List.forall_mem_cons.mp h).2)
  | case4 pending p rest hcls lexed ih => exact ih (List.forall_mem_cons.mp h).2
  | case5 pending p rest hcls breaks lexed ih =>
    exact comment breaks (ih (List.forall_mem_cons.mp h).2)
  | case6 pending p rest kind hcls t lexed ih =>
    obtain ⟨⟨c, ds, rest', hscan⟩, hrest⟩ := List.forall_mem_cons.mp h
    have hlexeme : p.lexeme = ⟨.token kind, p.lexeme.text⟩ := by rw [← hcls]
    have htext : t.text.toList = p.lexeme.text := String.toList_ofList
    rw [hlexeme] at hscan
    -- the token was scanned, and so it is read from its own text alone
    have ht : t.IsWhole := by
      rw [IsWhole, htext]
      exact Lexeme.isWhole_of_scan hscan
    exact .token pending ht (ih hrest)

/-- The tokens of a text are terminated. -/
theorem of_tokenize {file source : String} {lexed : Lexed} (h : tokenize file source = .ok lexed) :
    AreTerminated false lexed.tokens := by
  obtain ⟨placed, finish, hplaced, rfl⟩ := exists_assemble_of_tokenize h
  exact .assemble (exists_scan_of_mem_lexemes hplaced)

/-- All but the implied semicolons are read from their texts. -/
theorem isWhole_of_kind_ne {pending : Bool} {ts : List Token} (h : AreTerminated pending ts) :
    ∀ t ∈ ts, t.kind ≠ .semicolon → t.IsWhole := by
  induction h with
  | done => exact List.forall_mem_nil _
  | implied l _ ih => exact List.forall_mem_cons.mpr ⟨fun hkind => absurd rfl hkind, ih⟩
  | token _ ht _ ih => exact List.forall_mem_cons.mpr ⟨fun _ => ht, ih⟩

/-- Terminated tokens are read from their texts, each with a space after it. -/
theorem spells {pending : Bool} {ts : List Token} (h : AreTerminated pending ts) :
    Spells pending (ts.flatMap fun t => t.text.toList ++ [' ']) (ts.map spelling) := by
  induction h with
  | done => exact .nil false
  | implied l _ ih =>
    have htext : (impliedSemicolon l).text.toList = ['\n'] := String.toList_ofList (l := ['\n'])
    rw [List.flatMap_cons, htext]
    exact @Spells.newline true _ _ (.blank ih)
  | @token pending t ts ht _ ih =>
    obtain ⟨c, cs, htext, hscan⟩ := ht
    have hspaced := Lexeme.scan_append_delimiter hscan (d := ' ') (by decide)
      (ts.flatMap fun t => t.text.toList ++ [' '])
    rw [← String.ofList_toList (s := t.text)] at ih
    have hspells := @Spells.token pending _ _ _ _ _ _ hspaced (.blank ih)
    dsimp only at htext
    rw [String.ofList_toList] at hspells
    rw [List.flatMap_cons, htext, List.append_assoc]
    exact hspells

end Token.AreTerminated

/-! ### Texts of tokens with spaces between them -/

/-- The texts of all tokens with a space between every two of them. An implied semicolon is written
as a line feed, and the end of the file as nothing. -/
def Lexed.spacedText (lexed : Lexed) : String :=
  String.intercalate " " (lexed.allTokens.map Token.text)

private theorem Lexed.toList_spacedText (lexed : Lexed) :
    lexed.spacedText.toList = lexed.tokens.flatMap fun t => t.text.toList ++ [' '] := by
  rw [spacedText, allTokens, String.toList_intercalate, List.map_map, List.map_append]
  induction lexed.tokens with
  | nil => rfl
  | cons t ts ih =>
    rw [List.flatMap_cons, ← ih, List.append_assoc, List.map_cons, List.cons_append]
    cases ts with
    | nil => rfl
    | cons t' ts => rfl

/-- **A text is read as its tokens are read from their own texts.** The texts of the tokens, with
spaces between them, are read as tokens of the same kinds and texts, and there is no comment. -/
theorem tokenize_spacedText {file source : String} {lexed : Lexed}
    (h : tokenize file source = .ok lexed) (file' : String) :
    ∃ again, tokenize file' lexed.spacedText = .ok again ∧
      again.allTokens.map Token.spelling = lexed.allTokens.map Token.spelling ∧
      again.comments = [] := by
  have hspells := (Token.AreTerminated.of_tokenize h).spells
  rw [← lexed.toList_spacedText] at hspells
  obtain ⟨again, hagain, htokens, hcomments⟩ := hspells.tokenize file'
  refine ⟨again, hagain, ?_, hcomments⟩
  rw [htokens, Lexed.allTokens, List.map_append]
  rfl

/-- The hypothesis of `tokenize_spacedText` holds of a text with a byte order mark, comments of both
kinds, a string literal over two lines and implied semicolons. -/
theorem tokenize_spacedText_markedSource :
    ∃ lexed, tokenize "app.go" markedSource = .ok lexed ∧ lexed.tokens.length = 10 ∧
      ∃ again, tokenize "spaced.go" lexed.spacedText = .ok again ∧
        again.allTokens.map Token.spelling = lexed.allTokens.map Token.spelling ∧
        again.comments = [] := by
  obtain ⟨lexed, h, htexts⟩ := exists_tokenize_markedSource
  have hlength := congrArg List.length htexts
  rw [List.length_map] at hlength
  exact ⟨lexed, h, hlength, tokenize_spacedText h "spaced.go"⟩

end GoPages

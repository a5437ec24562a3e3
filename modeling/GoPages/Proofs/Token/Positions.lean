import GoPages.Proofs.Token.Pieces

/-!
# The places of tokens and comments

`Location.afterText` is the place after a text by its definition: the line is counted by the line
feeds before it, and the column by the bytes after the last one. `Piece.InPlace` says of the pieces
of a text that every token and every comment has the place after the pieces before it.

Moving over a text counts lines and columns as the definition does (`Location.advance_afterText`).
But the scanner does not begin a new line inside a quoted literal, where a backslash takes a line
feed along. So the places of a text are exact if and only if no quoted literal holds a line feed
(`tokenize_isExact_iff`), and there are texts whose places are not (`not_forall_isExact`).
-/

namespace GoPages

/-! ### Places after a text -/

namespace Location

/-- What stands after the last line feed of a text. -/
def lastLine (cs : List Char) : List Char := (cs.reverse.takeWhile (· != '\n')).reverse

/-- The place in a file after the text `before`. -/
def afterText (file : String) (before : List Char) : Location :=
  ⟨file, 1 + before.count '\n', 1 + byteCount (lastLine before)⟩

/-- A character more in the text moves the place by this character. -/
private theorem next_afterText (file : String) (before : List Char) (c : Char) :
    (afterText file before).next c = afterText file (before ++ [c]) := by
  by_cases hc : c = '\n'
  · subst hc
    simp [next, afterText, lastLine, byteCount, Nat.add_assoc]
  · have hline : lastLine (before ++ [c]) = lastLine before ++ [c] := by simp [lastLine, hc]
    simp [next, afterText, hline, byteCount_append, byteCount, hc, Nat.add_assoc]

/-- Moving over a text counts its lines and columns. -/
theorem advance_afterText (file : String) (before cs : List Char) :
    (afterText file before).advance cs = afterText file (before ++ cs) := by
  induction cs generalizing before with
  | nil => rw [advance_nil, List.append_nil]
  | cons c cs ih => rw [advance_cons, next_afterText, ih, List.append_assoc, List.singleton_append]

/-- Moving over a text adds its line feeds to the line. -/
theorem line_advance (l : Location) (cs : List Char) :
    (l.advance cs).line = l.line + cs.count '\n' := by
  induction cs generalizing l with
  | nil => rfl
  | cons c cs ih =>
    rw [advance_cons, ih, next]
    split
    · next hc =>
      rw [hc, List.count_cons_self, Nat.add_assoc, Nat.add_comm 1]
    · next hc => rw [List.count_cons_of_ne hc]

/-- Without line feeds it makes no difference whether lines are counted. -/
theorem skip_eq_advance (l : Location) {cs : List Char} (h : '\n' ∉ cs) :
    l.skip cs = l.advance cs := by
  induction cs generalizing l with
  | nil => rfl
  | cons c cs ih =>
    rw [List.mem_cons, not_or] at h
    rw [advance_cons, ← ih _ h.2, next, if_neg (Ne.symm h.1)]
    simp [skip, byteCount, Nat.add_assoc]

end Location

/-! ### Pieces in their places -/

namespace Piece

/-- Is the piece a semicolon that does not stand in the text? -/
def IsImplied : Piece → Prop
  | token t => t.isImplied
  | _ => False

/-- The pieces start with the end of a line: with a line feed, with a comment that holds one, or
there are none of them. -/
def BreaksLine : List Piece → Prop
  | [] => True
  | blank c :: _ => c = '\n'
  | comment c :: _ => '\n' ∈ c.text.toList
  | token _ :: _ => False

/-- A token or a comment has the place after the text `before`, and a comment ends on the line of
its last character. -/
def IsAt (file : String) (before : List Char) : Piece → Prop
  | blank _ => True
  | token t => t.location = Location.afterText file before
  | comment c =>
    c.location = Location.afterText file before ∧
      c.endLine = 1 + (before ++ c.text.toList.dropLast).count '\n'

/-- The pieces after the text `before` have their places, and implied semicolons stand at the ends
of lines. -/
def InPlace (file : String) : (before : List Char) → List Piece → Prop
  | _, [] => True
  | before, x :: rest =>
    x.IsAt file before ∧ (x.IsImplied → BreaksLine rest) ∧ InPlace file (before ++ x.text) rest

end Piece

/-- The tokens and comments of a text, and its end, have their places in the text. -/
structure Lexed.IsExact (lexed : Lexed) (file : String) (cs : List Char) : Prop where
  pieces : ∃ pieces, lexed.IsLaidOut cs pieces ∧ Piece.InPlace file [] pieces
  finish : lexed.finish = Location.afterText file cs

/-- Is the token a literal between quotes, which ends on the line where it starts? -/
def Token.isQuoted (t : Token) : Bool :=
  match t.kind with
  | .char => true
  | .string => t.text.toList.head? != some '\x60'
  | _ => false

/-! ### Lexemes -/

namespace Lexeme

/-- A lexeme that stays on its line has no line feed. -/
def IsFlat (x : Lexeme) : Prop := x.staysOnLine → '\n' ∉ x.text

/-- The line feeds of a lexeme that are not counted. -/
def uncounted (x : Lexeme) : Nat := if x.staysOnLine then x.text.count '\n' else 0

/-- A lexeme without line feeds in quotes moves the place as its text does. -/
private theorem after_afterText {x : Lexeme} (h : x.IsFlat) (file : String) (before : List Char) :
    x.after (Location.afterText file before) = Location.afterText file (before ++ x.text) := by
  rw [after]
  split
  · next hstays => rw [Location.skip_eq_advance _ (h hstays), Location.advance_afterText]
  · exact Location.advance_afterText _ _ _

/-- The line feeds of a lexeme are counted as lines, or they are the uncounted ones. -/
private theorem line_after (x : Lexeme) (l : Location) :
    (x.after l).line + x.uncounted = l.line + x.text.count '\n' := by
  rw [after, uncounted]
  split
  · rfl
  · exact l.line_advance x.text

/-- A lexeme whose line feeds are all counted has none in quotes. -/
private theorem isFlat_of_uncounted {x : Lexeme} (h : x.uncounted = 0) : x.IsFlat := by
  intro hstays
  rw [uncounted, if_pos hstays] at h
  exact List.count_eq_zero.mp h

end Lexeme

namespace Placed

variable {p : Placed}

private theorem isQuoted_token {kind : TokenKind} (hcls : p.lexeme.cls = .token kind) :
    (p.token kind).isQuoted = p.lexeme.staysOnLine := by
  rw [Token.isQuoted, Lexeme.staysOnLine, hcls, token, String.toList_ofList]
  cases kind <;> rfl

private theorem exists_token_of_staysOnLine (h : p.lexeme.staysOnLine) :
    ∃ kind, p.lexeme.cls = .token kind := by
  rw [Lexeme.staysOnLine] at h
  split at h
  · exact ⟨_, ‹_›⟩
  · exact ⟨_, ‹_›⟩
  · cases h

/-- The text of a line comment has no line feed. -/
theorem notMem_comment (h : p.lexeme.HasShape) (hcls : p.lexeme.cls = .lineComment) :
    '\n' ∉ p.comment.text.toList := by
  have hline : '\n' ∉ p.lexeme.text := by simpa [Lexeme.HasShape, hcls] using h
  rw [comment, hcls, String.toList_ofList]
  cases hstrip : Text.stripEnd? ['\r'] p.lexeme.text with
  | none => exact hline
  | some body =>
    rw [Text.stripEnd?_eq_some_iff.mp hstrip] at hline
    exact fun hmem => hline (List.mem_append_left _ hmem)

/-- What stands before the last character of a block comment has all of its line feeds. -/
theorem count_dropLast (h : p.lexeme.HasShape) (hcls : p.lexeme.cls = .blockComment) :
    p.lexeme.text.dropLast.count '\n' = p.lexeme.text.count '\n' := by
  have hlast : p.lexeme.text.getLast? = some '/' := by simpa [Lexeme.HasShape, hcls] using h
  obtain ⟨body, hbody⟩ := List.getLast?_eq_some_iff.mp hlast
  rw [hbody, List.dropLast_concat, List.count_append]
  rfl

/-- An implied semicolon takes no text, so that what follows it has the same place. -/
theorem inPlace_impliedPieces {file : String} {before : List Char} {rest : List Piece}
    {pending : Bool} {l : Location} (hplace : l = Location.afterText file before)
    (hbreak : pending → Piece.BreaksLine rest) (hrest : Piece.InPlace file before rest) :
    Piece.InPlace file before (impliedPieces pending l ++ rest) := by
  cases pending with
  | false => exact hrest
  | true =>
    refine ⟨hplace, fun _ => hbreak rfl, ?_⟩
    rwa [Piece.text, Token.span_impliedSemicolon, List.append_nil]

section Pieces

variable {file : String} {before : List Char} {rest : List Piece} {pending : Bool}

/-- A line comment has its place, and so has the carriage return that may follow it. -/
private theorem inPlace_lineComment (hshape : p.lexeme.HasShape)
    (hcls : p.lexeme.cls = .lineComment) (hplace : p.location = Location.afterText file before)
    (hrest : Piece.InPlace file (before ++ p.lexeme.text) rest) :
    Piece.InPlace file before (p.pieces pending ++ rest) := by
  have hnone := notMem_comment hshape hcls
  have hline : p.comment.endLine = p.location.line := by rw [comment, hcls]
  have hcount : p.comment.text.toList.dropLast.count '\n' = 0 :=
    List.count_eq_zero.mpr fun hmem => hnone (List.dropLast_subset _ hmem)
  -- the carriage return before the line feed is not in the comment, but a blank after it
  have htext : p.comment.text.toList ++
      Piece.textOf (if (Text.stripEnd? ['\r'] p.lexeme.text).isSome then [.blank '\r'] else []) =
        p.lexeme.text := by
    have := textOf_lineComment hcls
    rwa [pieces, hcls, Piece.textOf_cons] at this
  simp only [pieces, hcls, List.cons_append]
  refine ⟨⟨hplace ▸ by rw [comment, hcls], ?_⟩, False.elim, ?_⟩
  · rw [hline, hplace, Location.afterText, List.count_append, hcount]
    rfl
  · rw [← htext, ← List.append_assoc] at hrest
    split
    · next hr =>
      rw [if_pos hr] at hrest
      exact ⟨trivial, False.elim, hrest⟩
    · next hr =>
      rw [if_neg hr, Piece.textOf_nil, List.append_nil] at hrest
      exact hrest

/-- A block comment has its place, and so has the semicolon that may be implied before it. -/
private theorem inPlace_blockComment (hshape : p.lexeme.HasShape)
    (hcls : p.lexeme.cls = .blockComment) (hplace : p.location = Location.afterText file before)
    (hrest : Piece.InPlace file (before ++ p.lexeme.text) rest) :
    Piece.InPlace file before (p.pieces pending ++ rest) := by
  have htext : p.comment.text.toList = p.lexeme.text := by
    rw [comment, hcls, String.toList_ofList]
  have hflat : p.lexeme.IsFlat := by
    intro hstays
    rw [Lexeme.staysOnLine, hcls] at hstays
    cases hstays
  have hline : p.comment.endLine = (p.lexeme.after p.location).line := by rw [comment, hcls]
  simp only [pieces, hcls, List.append_assoc]
  -- a semicolon is implied only before a comment that ends a line, which is what it stands for
  refine inPlace_impliedPieces hplace (fun hbreaks => ?_) ⟨⟨hplace ▸ ?_, ?_⟩, False.elim, ?_⟩
  · rw [Bool.and_eq_true, List.contains_iff_mem] at hbreaks
    rw [List.singleton_append, Piece.BreaksLine, htext]
    exact hbreaks.2
  · rw [comment, hcls]
  · rw [hline, hplace, Lexeme.after_afterText hflat, Location.afterText, htext,
      List.count_append, List.count_append, count_dropLast hshape hcls]
  · rwa [Piece.text, htext]

/-- The pieces of a lexeme have their places if the lexeme has its place. -/
theorem inPlace_pieces (hshape : p.lexeme.HasShape)
    (hplace : p.location = Location.afterText file before)
    (hrest : Piece.InPlace file (before ++ p.lexeme.text) rest) :
    Piece.InPlace file before (p.pieces pending ++ rest) := by
  cases hcls : p.lexeme.cls with
  | blank =>
    obtain ⟨c, hc⟩ : ∃ c, p.lexeme.text = [c] := by
      simp only [Lexeme.HasShape, hcls] at hshape
      grind
    rw [hc] at hrest
    simp only [pieces, hcls, hc]
    exact ⟨trivial, False.elim, hrest⟩
  | newline =>
    have htext : p.lexeme.text = ['\n'] := by simpa [Lexeme.HasShape, hcls] using hshape
    rw [htext] at hrest
    simp only [pieces, hcls, htext, List.append_assoc]
    exact inPlace_impliedPieces hplace (fun _ => rfl) ⟨trivial, False.elim, hrest⟩
  | lineComment => exact inPlace_lineComment hshape hcls hplace hrest
  | blockComment => exact inPlace_blockComment hshape hcls hplace hrest
  | token kind =>
    have himplied := isImplied_token hshape hcls
    simp only [pieces, hcls]
    refine ⟨hplace, fun h => ?_, ?_⟩
    · rw [Piece.IsImplied, himplied] at h
      cases h
    · rwa [Piece.text, Token.span_of_isImplied_eq_false himplied, token, String.toList_ofList]

end Pieces

end Placed

/-! ### Whole texts -/

/-- If every lexeme that stays on its line is flat, then everything has its place. -/
theorem inPlace_layout {file : String} {before cs : List Char} {finish : Location}
    {placed : List Placed} (h : lexemes (Location.afterText file before) cs = .ok (placed, finish))
    (hflat : ∀ p ∈ placed, p.lexeme.IsFlat) (pending : Bool) :
    Piece.InPlace file before (layout finish pending placed) ∧
      finish = Location.afterText file (before ++ cs) := by
  generalize hl : Location.afterText file before = l at h
  rw [lexemes_eq_ok_iff] at h
  induction h generalizing before pending with
  | done l =>
    rw [List.append_nil]
    refine ⟨?_, hl.symm⟩
    have hend : Piece.InPlace file before (impliedPieces pending l ++ []) :=
      Placed.inPlace_impliedPieces hl.symm (fun _ => trivial) trivial
    rwa [List.append_nil] at hend
  | @step l _ c cs rest x placed hscan _ ih =>
    obtain ⟨hx, hflat⟩ := List.forall_mem_cons.mp hflat
    -- being flat, the lexeme moves the place as its text does, which is what the rest starts from
    have hnext := Lexeme.after_afterText hx file before
    rw [hl] at hnext
    obtain ⟨hpieces, hfinish⟩ := ih hflat
      (Placed.pendingAfter ⟨l, x⟩ pending) hnext.symm
    refine ⟨Placed.inPlace_pieces (Lexeme.hasShape_of_scan hscan) hl.symm hpieces, ?_⟩
    rw [hfinish, List.append_assoc, (Lexeme.scan_append hscan).1]

/-- The number of line feeds in lexemes that do not count. -/
def uncountedIn : List Placed → Nat
  | [] => 0
  | p :: placed => p.lexeme.uncounted + uncountedIn placed

private theorem uncounted_of_mem {placed : List Placed} (h : uncountedIn placed = 0) {p : Placed}
    (hp : p ∈ placed) : p.lexeme.uncounted = 0 := by
  induction placed with
  | nil => exact absurd hp List.not_mem_nil
  | cons q placed ih =>
    obtain ⟨hq, hplaced⟩ : q.lexeme.uncounted = 0 ∧ uncountedIn placed = 0 :=
      Nat.add_eq_zero_iff.mp h
    rcases List.mem_cons.mp hp with rfl | hp
    · exact hq
    · exact ih hplaced hp

/-- The lines of a text, without those of line feeds that are not counted. -/
theorem line_lexemes {l finish : Location} {cs : List Char} {placed : List Placed}
    (h : lexemes l cs = .ok (placed, finish)) :
    finish.line + uncountedIn placed = l.line + cs.count '\n' := by
  rw [lexemes_eq_ok_iff] at h
  induction h with
  | done => rfl
  | @step l _ c cs rest x placed hscan _ hfinish =>
    have hline := x.line_after l
    rw [← (Lexeme.scan_append hscan).1, List.count_append, uncountedIn]
    dsimp only
    omega

/-- **The places of a text are exact if and only if no quoted literal holds a line feed.** Then
every token and every comment has the place after what stands before it, an implied semicolon stands
at the end of its line, and a comment ends on the line of its last character. -/
theorem tokenize_isExact_iff {file source : String} {lexed : Lexed}
    (h : tokenize file source = .ok lexed) :
    lexed.IsExact file (withoutMark source.toList) ↔
      ∀ t ∈ lexed.tokens, t.isQuoted → '\n' ∉ t.text.toList := by
  obtain ⟨placed, finish, hplaced, rfl⟩ := exists_lexemes_of_tokenize h
  constructor
  · -- the line of the end alone tells whether line feeds have not been counted
    rintro ⟨-, hfinish⟩ t ht hquoted
    have hline := line_lexemes hplaced
    have hsum : uncountedIn placed = 0 := by
      have : finish.line = 1 + (withoutMark source.toList).count '\n' :=
        congrArg Location.line hfinish
      simp only at hline
      omega
    rcases mem_tokensOf_layout ht with himplied | ⟨p, hp, kind, hcls, rfl⟩
    · simp only [Token.isImplied, Bool.and_eq_true, beq_iff_eq] at himplied
      rw [Token.isQuoted, himplied.1] at hquoted
      cases hquoted
    · rw [Placed.isQuoted_token hcls] at hquoted
      have hzero := uncounted_of_mem hsum hp
      rw [Placed.token, String.toList_ofList]
      exact Lexeme.isFlat_of_uncounted hzero hquoted
  · intro hquoted
    have hflat : ∀ p ∈ placed, p.lexeme.IsFlat := by
      intro p hp hstays
      obtain ⟨kind, hcls⟩ := Placed.exists_token_of_staysOnLine hstays
      have := hquoted _ (token_mem_tokensOf_layout hp hcls finish false)
        ((Placed.isQuoted_token hcls).trans hstays)
      rwa [Placed.token, String.toList_ofList] at this
    have hstart : lexemes (Location.afterText file []) (withoutMark source.toList) =
        .ok (placed, finish) := hplaced
    obtain ⟨hpieces, hfinish⟩ := inPlace_layout hstart hflat false
    exact ⟨⟨_, isLaidOut_layout hplaced, hpieces⟩, hfinish⟩

set_option maxRecDepth 100000 in
/-- The places of the marked text are exact, although one of its raw literals holds a line feed. -/
theorem tokenize_isExact_iff_markedSource :
    ∃ lexed, tokenize "app.go" markedSource = .ok lexed ∧
      (lexed.IsExact "app.go" (withoutMark markedSource.toList) ↔
        ∀ t ∈ lexed.tokens, t.isQuoted → '\n' ∉ t.text.toList) ∧
      lexed.IsExact "app.go" (withoutMark markedSource.toList) := by
  have hall : (tokenize "app.go" markedSource).toOption.any (fun lexed =>
      lexed.tokens.all fun t => !(t.isQuoted && t.text.toList.contains '\n')) = true := by
    unfold tokenize markedSource
    rewrite [String.toList_ofList]
    decide +kernel
  obtain ⟨lexed, h, -⟩ := exists_tokenize_markedSource
  have hiff := tokenize_isExact_iff h
  refine ⟨lexed, h, hiff, hiff.mpr fun t ht hquoted hmem => ?_⟩
  rw [h, Except.toOption, Option.any_some, List.all_eq_true] at hall
  have := hall t ht
  simp [hquoted, hmem] at this

/-! ### A line feed after a backslash -/

/-- A text with a name after a string literal, in which a backslash stands before a line feed. -/
def escapedBreak : String := String.ofList "\"a\\\n\" x".toList

set_option maxRecDepth 100000 in
/-- The name after the literal is taken to stand on the first line. -/
theorem exists_tokenize_escapedBreak :
    ∃ lexed, tokenize "app.go" escapedBreak = .ok lexed ∧
      lexed.tokens.map Token.location =
        [⟨"app.go", 1, 1⟩, ⟨"app.go", 1, 7⟩, ⟨"app.go", 1, 8⟩] ∧
      lexed.finish = ⟨"app.go", 1, 8⟩ := by
  have hall : (tokenize "app.go" escapedBreak).toOption.any (fun lexed =>
      lexed.tokens.map Token.location ==
        [⟨"app.go", 1, 1⟩, ⟨"app.go", 1, 7⟩, ⟨"app.go", 1, 8⟩] &&
      lexed.finish == ⟨"app.go", 1, 8⟩) = true := by
    unfold tokenize escapedBreak
    rewrite [String.toList_ofList]
    decide +kernel
  obtain ⟨lexed, h, htest⟩ := exists_tokenize_of_any hall
  rw [Bool.and_eq_true, beq_iff_eq, beq_iff_eq] at htest
  exact ⟨lexed, h, htest⟩

/-- The places of a text need not be exact. -/
theorem not_forall_isExact :
    ¬ ∀ (file source : String) (lexed : Lexed), tokenize file source = .ok lexed →
      lexed.IsExact file (withoutMark source.toList) := by
  intro hall
  obtain ⟨lexed, h, -, hfinish⟩ := exists_tokenize_escapedBreak
  have hline : lexed.finish.line = _ := congrArg Location.line (hall _ _ lexed h).finish
  rw [hfinish] at hline
  unfold escapedBreak at hline
  rewrite [String.toList_ofList] at hline
  exact absurd hline (by decide)

end GoPages

import GoPages.Proofs.Parser.Declarations
import GoPages.Proofs.Token.Pieces

/-!
# Reading a file is safe

The tokens of a file are a list that is not empty and ends with the end of the file. Every cursor
that a run of the parser passes stands before one of them (`Cursor.IsIn`), so what the parser looks
at from there are tokens with indices in the list, and what it cuts out are slices of the list
(`Cursor.InRange`). The places of the cursors never decrease, and no round of a loop goes on without
having read a token (`SourceFile.parse_isSafe`).
-/

namespace GoPages

/-! ### Places in the tokens -/

/-- The index of the token that the cursor stands before. -/
def Lexed.position (lexed : Lexed) (c : Cursor) : Nat := lexed.tokens.length - c.size

/-- The line of the last of the tokens, zero if there is none. -/
def lastLine (ts : List Token) : Nat := (ts.getLast?.map fun t => t.location.line).getD 0

/-- The cursor stands in the tokens of the file. -/
structure Cursor.IsIn (lexed : Lexed) (c : Cursor) : Prop where
  left : c.left = lexed.tokens.drop (lexed.position c)
  finish : c.finish = lexed.finish
  prevLine : c.prevLine = lastLine (lexed.tokens.take (lexed.position c))

namespace Cursor.IsIn

variable {lexed : Lexed} {c : Cursor}

/-- The first cursor stands in the tokens. -/
theorem start (lexed : Lexed) : (Cursor.start lexed).IsIn lexed := by
  have hposition : lexed.position (Cursor.start lexed) = 0 := Nat.sub_self _
  refine ⟨?_, rfl, ?_⟩
  · rw [hposition]
    rfl
  · rw [hposition]
    rfl

/-- No more tokens are left than there are. -/
theorem size_le (h : c.IsIn lexed) : c.size ≤ lexed.tokens.length := by
  rw [Cursor.size, h.left, List.length_drop]
  exact Nat.sub_le _ _

/-- Reading a token leads to the next place, and at the end of the file nowhere. -/
theorem advance (h : c.IsIn lexed) : c.advance.IsIn lexed := by
  cases hleft : c.left with
  | nil =>
    have hstays : c.advance = c := by rw [Cursor.advance, hleft]
    rwa [hstays]
  | cons t rest =>
    have hadvance : c.advance = ⟨t.location.line, rest, c.finish⟩ := by rw [Cursor.advance, hleft]
    have hsize : c.size = rest.length + 1 := by rw [Cursor.size, hleft, List.length_cons]
    have hposition : lexed.position c.advance = lexed.position c + 1 := by
      have hle := h.size_le
      have hsize' : c.advance.size = rest.length := by rw [hadvance, Cursor.size]
      rw [Lexed.position, Lexed.position, hsize', hsize]
      omega
    have hdrop : lexed.tokens.drop (lexed.position c) = t :: rest := h.left.symm.trans hleft
    have htake : lexed.tokens.take (lexed.position c + 1) =
        lexed.tokens.take (lexed.position c) ++ [t] := by
      rw [List.take_add, hdrop, List.take_succ_cons, List.take_zero]
    refine ⟨?_, ?_, ?_⟩
    · rw [hposition, ← List.tail_drop, hdrop, hadvance, List.tail_cons]
    · rw [hadvance]
      exact h.finish
    · rw [hposition, htake, hadvance, lastLine, List.getLast?_concat]
      rfl

end Cursor.IsIn

/-- What the parser sees from the cursor are tokens at valid indices, and what it cuts out there are
slices of the tokens. -/
structure Cursor.InRange (lexed : Lexed) (c : Cursor) : Prop where
  lt : lexed.position c < lexed.allTokens.length
  tok : lexed.allTokens[lexed.position c]? = some c.tok
  /-- Beyond the end the last token is seen. -/
  peek : ∀ n, lexed.allTokens[min (lexed.position c + n) (lexed.allTokens.length - 1)]? =
    some (c.peek n)
  prevLine : c.prevLine = lastLine (lexed.allTokens.take (lexed.position c))
  /-- The bracket that closes the one `n` places after the next token, what stands between them, and
  the token after. -/
  closing : ∀ n inner close rest, closing? 0 (c.left.drop (n + 1)) = some (inner, close, rest) →
    ∃ j, lexed.position c + n < j ∧ j + 1 < lexed.allTokens.length ∧
      lexed.allTokens.extract (lexed.position c + n + 1) j = inner ∧
      lexed.allTokens[j]? = some close ∧ lexed.allTokens[j + 1]? = some (c.firstOf rest)

private theorem Lexed.length_allTokens (lexed : Lexed) :
    lexed.allTokens.length = lexed.tokens.length + 1 := List.length_append

/-- Where nothing is left, the end of the file is seen. -/
theorem Lexed.getElem?_allTokens {lexed : Lexed} {c : Cursor} (h : c.finish = lexed.finish)
    (k : Nat) : lexed.allTokens[min k (lexed.allTokens.length - 1)]? =
      some (c.firstOf (lexed.tokens.drop k)) := by
  rw [length_allTokens, Nat.add_sub_cancel, allTokens]
  rcases Nat.lt_or_ge k lexed.tokens.length with hk | hk
  · rw [Nat.min_eq_left hk.le, List.getElem?_append_left hk, List.drop_eq_getElem_cons hk,
      List.getElem?_eq_getElem hk, Cursor.firstOf]
  · rw [Nat.min_eq_right hk, List.getElem?_concat_length, List.drop_eq_nil_of_le hk,
      Cursor.firstOf, h]

/-- A cursor in the tokens looks at tokens only. -/
theorem Cursor.IsIn.inRange {lexed : Lexed} {c : Cursor} (h : c.IsIn lexed) : c.InRange lexed := by
  have hlength := lexed.length_allTokens
  have hle : lexed.position c ≤ lexed.tokens.length := Nat.sub_le _ _
  have hsees := Lexed.getElem?_allTokens h.finish
  refine ⟨by omega, ?_, fun n => ?_, ?_, ?_⟩
  · have htok := hsees (lexed.position c)
    rwa [Nat.min_eq_left (by omega), ← h.left] at htok
  · rw [hsees, ← List.drop_drop, ← h.left]
    rfl
  · rw [h.prevLine, Lexed.allTokens, List.take_append_of_le_length hle]
  · -- a bracket that closes is found in what is left, so its place is that in all tokens, shifted
    intro n inner close rest hclosing
    have happ : inner ++ close :: rest = lexed.tokens.drop (lexed.position c + n + 1) := by
      rw [closing?_append hclosing, h.left, List.drop_drop]
      rfl
    have hsize := congrArg List.length happ
    simp only [List.length_append, List.length_cons, List.length_drop] at hsize
    have hall : lexed.allTokens.drop (lexed.position c + n + 1) =
        inner ++ close :: (rest ++ [Token.endOfFile lexed.finish]) := by
      rw [Lexed.allTokens, List.drop_append_of_le_length (by omega), ← happ, List.append_assoc,
        List.cons_append]
    refine ⟨lexed.position c + n + 1 + inner.length, by omega, by omega, ?_, ?_, ?_⟩
    · rw [List.extract_eq_take_drop, hall, Nat.add_sub_cancel_left, List.take_left]
    · rw [← List.getElem?_drop, hall, List.getElem?_append_right le_rfl, Nat.sub_self]
      rfl
    · rw [Nat.add_assoc _ inner.length, ← List.getElem?_drop, hall,
        List.getElem?_append_right (Nat.le_add_right _ 1), Nat.add_sub_cancel_left]
      cases rest with
      | nil => exact congrArg (fun l => some (Token.endOfFile l)) h.finish.symm
      | cons t rest => rfl

/-! ### Runs stay in the tokens -/

namespace Parser

/-- From `c` on, each of the cursors leaves at most what the one before leaves. -/
def Descends (c : Cursor) (trace : List Cursor) : Prop :=
  (c :: trace).Pairwise fun d d' => d'.size ≤ d.size

/-- A run that descends does so from a cursor with at least as many tokens. -/
theorem Descends.cons {c d : Cursor} {trace : List Cursor} (h : Descends d trace)
    (hd : d.size ≤ c.size) : Descends c (d :: trace) := by
  refine List.pairwise_cons.mpr ⟨List.forall_mem_cons.mpr ⟨hd, fun e he => ?_⟩, h⟩
  exact ((List.pairwise_cons.mp h).1 e he).trans hd

private theorem descends_nil (c : Cursor) : Descends c [] := List.pairwise_singleton _ _

/-- Runs that descend one after the other descend. -/
theorem Descends.append {c c' : Cursor} {trace more : List Cursor}
    (h : Descends c (trace ++ [c'])) (h' : Descends c' more) : Descends c (trace ++ more) := by
  have hsplit : (c :: trace ++ [c']).Pairwise fun d d' => d'.size ≤ d.size := h
  obtain ⟨hbefore, -, hend⟩ := List.pairwise_append.mp hsplit
  obtain ⟨hle, hmore⟩ := List.pairwise_cons.mp h'
  have htrans (d : Cursor) (hd : d ∈ c :: trace) (d' : Cursor) (hd' : d' ∈ more) :
      d'.size ≤ d.size :=
    (hle d' hd').trans (hend d hd c' (List.mem_singleton_self c'))
  exact List.pairwise_append.mpr ⟨hbefore, hmore, htrans⟩

private theorem size_advance_le (c : Cursor) : c.advance.size ≤ c.size := by
  rw [Cursor.size, Cursor.size, left_advance, List.length_tail]
  exact Nat.sub_le _ _

namespace Run

variable {α : Type} {p : Parser α} {c : Cursor} {trace : List Cursor}
  {r : Except SyntaxError (α × Cursor)}

/-- From a place in the tokens a run passes places in the tokens, and ends at one. -/
theorem isIn {lexed : Lexed} (h : Run p c trace r) (hc : c.IsIn lexed) :
    (∀ d ∈ trace, d.IsIn lexed) ∧ ∀ a c', r = .ok (a, c') → c'.IsIn lexed := by
  -- only an advance moves the cursor, and it stays in the tokens
  induction h with
  | look f c =>
    refine ⟨List.forall_mem_singleton.mpr hc, fun a c' h => ?_⟩
    cases h
    exact hc
  | fail e c he => exact ⟨List.forall_mem_singleton.mpr hc, fun _ _ h => nomatch h⟩
  | advance c =>
    refine ⟨List.forall_mem_cons.mpr ⟨hc, List.forall_mem_singleton.mpr hc.advance⟩,
      fun a c' h => ?_⟩
    cases h
    exact hc.advance
  | bindError _ ih => exact ⟨(ih hc).1, fun _ _ h => nomatch h⟩
  | bind _ _ ih ih' =>
    obtain ⟨htrace, hend⟩ := ih hc
    obtain ⟨hmore, hend'⟩ := ih' (hend _ _ rfl)
    exact ⟨List.forall_mem_append.mpr ⟨htrace, hmore⟩, hend'⟩
  | loopError _ ih => exact ⟨(ih hc).1, fun _ _ h => nomatch h⟩
  | loopDone _ ih =>
    refine ⟨(ih hc).1, fun a c' h => ?_⟩
    cases h
    exact (ih hc).2 _ _ rfl
  | loopAgain _ _ _ ih ih' =>
    obtain ⟨htrace, hend⟩ := ih hc
    obtain ⟨hmore, hend'⟩ := ih' (hend _ _ rfl)
    exact ⟨List.forall_mem_append.mpr ⟨htrace, hmore⟩, hend'⟩

/-- A run never goes back. -/
theorem descends (h : Run p c trace r) :
    Descends c trace ∧ ∀ a c', r = .ok (a, c') → Descends c (trace ++ [c']) := by
  -- each part of a run starts where the one before it has ended
  induction h with
  | look f c =>
    refine ⟨(descends_nil c).cons le_rfl, fun a c' h => ?_⟩
    cases h
    exact ((descends_nil c).cons le_rfl).cons le_rfl
  | fail e c he => exact ⟨(descends_nil c).cons le_rfl, fun _ _ h => nomatch h⟩
  | advance c =>
    have hend := descends_nil c.advance
    refine ⟨(hend.cons (size_advance_le c)).cons le_rfl, fun a c' h => ?_⟩
    cases h
    exact ((hend.cons le_rfl).cons (size_advance_le c)).cons le_rfl
  | bindError _ ih => exact ⟨ih.1, fun _ _ h => nomatch h⟩
  | bind _ _ ih ih' =>
    exact ⟨(ih.2 _ _ rfl).append ih'.1, fun b c'' h => by
      rw [List.append_assoc]
      exact (ih.2 _ _ rfl).append (ih'.2 b c'' h)⟩
  | loopError _ ih => exact ⟨ih.1, fun _ _ h => nomatch h⟩
  | loopDone _ ih =>
    refine ⟨ih.1, fun a c' h => ?_⟩
    cases h
    exact ih.2 _ _ rfl
  | loopAgain _ _ _ ih ih' =>
    exact ⟨(ih.2 _ _ rfl).append ih'.1, fun b c'' h => by
      rw [List.append_assoc]
      exact (ih.2 _ _ rfl).append (ih'.2 b c'' h)⟩

end Run

end Parser

/-! ### Files -/

/-- The cursors stand before tokens of the file, and their places never decrease. -/
structure Lexed.Follows (lexed : Lexed) (trace : List Cursor) : Prop where
  inRange : ∀ c ∈ trace, c.InRange lexed
  positions : (trace.map lexed.position).Pairwise (· ≤ ·)

/-- Every cursor of a run from the start stands in the tokens, in descending order. -/
private theorem Parser.Run.follows {α : Type} {p : Parser α} {lexed : Lexed} {trace : List Cursor}
    {r : Except SyntaxError (α × Cursor)} (h : Run p (Cursor.start lexed) trace r) :
    lexed.Follows trace := by
  refine ⟨fun c hc => ((h.isIn (.start lexed)).1 c hc).inRange, ?_⟩
  rw [List.pairwise_map]
  exact (List.pairwise_cons.mp h.descends.1).2.imp fun hsize => Nat.sub_le_sub_left hsize _

/-- No round of a loop of the parser goes on without having read a token. -/
structure Parser.LoopsAdvance : Prop where
  imports : nextImport.IsRound
  importDecls : nextImportDecl.IsRound
  types : ∀ comments groupDoc, (nextType comments groupDoc).IsRound
  values : nextValue.IsRound
  decls : ∀ comments, (nextDecl comments).IsRound
  typeArgs : ∀ n, (nextTypeArg (typeExpr n)).IsRound
  params : ∀ n, (nextParam (typeExpr n)).IsRound
  fields : ∀ n, (nextField (typeExpr n)).IsRound
  names : nextName.IsRound
  semicolons : skipSemicolons = loop nextSemicolon () ∧
    Progress (fun r => r.isLeft = true) (fun _ => True) (nextSemicolon ())
  brackets : balanced = (tok >>= fun start => advance >>= fun _ =>
      loop (nextInner start.location) (0, [])) ∧ ∀ start s, (nextInner start s).Advances
  lengths : arrayLen = loop nextLength (0, []) ∧ ∀ s, (nextLength s).Advances

/-- No loop of the grammar stalls. -/
private theorem Parser.loopsAdvance : LoopsAdvance where
  imports := isRound_nextImport
  importDecls := isRound_nextImportDecl
  types := isRound_nextType
  values := isRound_nextValue
  decls := isRound_nextDecl
  typeArgs n := isRound_nextTypeArg (advances_typeExpr n).steps
  params n := isRound_nextParam (advances_typeExpr n)
  fields n := isRound_nextField (advances_typeExpr n)
  names := isRound_nextName
  semicolons := ⟨skipSemicolons_eq_loop, progress_nextSemicolon⟩
  brackets := ⟨balanced_eq_loop, advances_nextInner⟩
  lengths := ⟨arrayLen_eq_loop, advances_nextLength⟩

/-- **Reading a file is safe.** Loops of the parser advance. A text that has no tokens is refused.
The tokens of any other text are parts of it, and the last one, the end of the file, is the only one
of its kind. The parser has a run over them that ends with a file or with a fault of the text, and
never because a loop has stalled. Every run passes cursors that stand before tokens of the file, at
places that never decrease, and sees and cuts out tokens within the list. -/
theorem SourceFile.parse_isSafe (name source : String) :
    Parser.LoopsAdvance ∧
    match tokenize name source with
    | .error e => SourceFile.parse name source = .error ⟨.lexical e.fault, e.location⟩
    | .ok lexed =>
      (∃ pieces, lexed.IsLaidOut (withoutMark source.toList) pieces) ∧
        lexed.allTokens.getLast? = some (Token.endOfFile lexed.finish) ∧
        lexed.allTokens.filter (fun t => t.kind == .eof) = [Token.endOfFile lexed.finish] ∧
        ∃ r, (∃ trace, (Parser.sourceFile name lexed.comments).Run (.start lexed) trace r) ∧
          SourceFile.parse name source = r.map Prod.fst ∧
          (∀ e, r = .error e → e.fault ≠ .stalled) ∧
          ∀ trace r', (Parser.sourceFile name lexed.comments).Run (.start lexed) trace r' →
            r' = r ∧ lexed.Follows trace := by
  refine ⟨Parser.loopsAdvance, ?_⟩
  split
  · next e htokens => rw [parse, htokens]
  · next lexed htokens =>
    obtain ⟨trace, hrun⟩ := Parser.steps_sourceFile name lexed.comments (.start lexed)
    refine ⟨Lexed.exists_isLaidOut htokens, List.getLast?_concat,
      Lexed.filter_eof_allTokens htokens, _, ⟨trace, hrun⟩, ?_, hrun.fault_ne_stalled, ?_⟩
    · rw [parse, htokens]
      dsimp only
      cases Parser.sourceFile name lexed.comments (.start lexed) <;> rfl
    · intro trace' r' hrun'
      exact ⟨hrun'.eq.symm, hrun'.follows⟩

end GoPages

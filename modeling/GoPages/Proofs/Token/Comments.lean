import GoPages.Proofs.Token.Pieces
import GoPages.Proofs.Token.Places
import Mathlib.Data.List.Infix

/-!
# Comments and tokens in the order of the text

Comments and tokens stand in two lists, and what they have in common are their places. Both lists
are in the order of the text:

* `Lexed.pairwise_comments`: a comment starts on no line before the one where the comment before it
  ends, and it ends on no line before its own first one.
* `Lexed.pairwise_allTokens`: no token stands before the place of an earlier token, and the end of
  the file stands after all of them. Implied semicolons are tokens too.
-/

namespace GoPages

namespace Location

variable {l m n : Location}

/-- One place is not after another, and that one not after a third: neither is the first. -/
theorem AtMost.trans (h : l.AtMost m) (h' : m.AtMost n) : l.AtMost n := by
  rcases h with rfl | h
  · exact h'
  · exact .inr (h.trans_atMost h')

/-- What is not after a place is on no later line. -/
theorem AtMost.line_le (h : l.AtMost m) : l.line ≤ m.line := by
  rcases h with rfl | ⟨-, h⟩
  · exact Nat.le_refl _
  · omega

end Location

namespace Placed

/-- The location after a lexeme. -/
def finish (p : Placed) : Location := p.lexeme.after p.location

/-- Is the lexeme a comment? -/
def isComment (p : Placed) : Bool :=
  match p.lexeme.cls with
  | .lineComment | .blockComment => true
  | _ => false

variable {p : Placed}

private theorem atMost_finish (p : Placed) : p.location.AtMost p.finish := by
  by_cases h : p.lexeme.text = []
  · rw [finish, Lexeme.after, h]
    split <;> exact .inl rfl
  · exact .inr (p.lexeme.precedes_after p.location h)

@[simp] theorem location_comment (p : Placed) : p.comment.location = p.location := by
  rw [comment]
  split <;> rfl

/-- A comment ends on a line between its first one and that of the location after it. -/
theorem line_le_endLine_comment (p : Placed) :
    p.location.line ≤ p.comment.endLine ∧ p.comment.endLine ≤ p.finish.line := by
  have hle := p.atMost_finish.line_le
  rw [comment]
  split
  · exact ⟨Nat.le_refl _, hle⟩
  · exact ⟨hle, Nat.le_refl _⟩

end Placed

/-- Lexemes follow each other, up to the end of the text. -/
theorem pairwise_finish_lexemes {l finish : Location} {cs : List Char} {placed : List Placed}
    (h : lexemes l cs = .ok (placed, finish)) :
    (placed.Pairwise fun p q => p.finish.AtMost q.location) ∧ l.AtMost finish ∧
      ∀ p ∈ placed, p.finish.AtMost finish := by
  rw [lexemes_eq_ok_iff] at h
  induction h with
  | done => exact ⟨.nil, .inl rfl, List.forall_mem_nil _⟩
  | @step l _ c cs rest x placed hscan hrest ih =>
    obtain ⟨hpairwise, hfinish, hall⟩ := ih
    have hstep : l.AtMost (Placed.finish ⟨l, x⟩) := Placed.atMost_finish ⟨l, x⟩
    have hafter := (pairwise_precedes_lexemes (lexemes_eq_ok_iff.mpr hrest)).1
    refine ⟨List.pairwise_cons.mpr ⟨hafter, hpairwise⟩,
      hstep.trans hfinish, List.forall_mem_cons.mpr ⟨hfinish, hall⟩⟩

/-! ### Comments -/

private theorem comments_assemble (finish : Location) (pending : Bool) (placed : List Placed) :
    (assemble finish pending placed).comments =
      (placed.filter Placed.isComment).map Placed.comment := by
  fun_induction assemble finish pending placed with
  | case1 => rfl
  | case2 pending p rest hcls ih => simpa [Placed.isComment, hcls] using ih
  | case3 pending p rest hcls lexed ih => simpa [Placed.isComment, hcls] using ih
  | case4 pending p rest hcls lexed ih => simpa [Placed.isComment, hcls] using ih
  | case5 pending p rest hcls breaks lexed ih => simpa [Placed.isComment, hcls] using ih
  | case6 pending p rest kind hcls token lexed ih => simpa [Placed.isComment, hcls] using ih

/-- **Comments in the order of the text.** -/
theorem Lexed.pairwise_comments {file source : String} {lexed : Lexed}
    (h : tokenize file source = .ok lexed) :
    (lexed.comments.Pairwise fun c d => c.endLine ≤ d.location.line) ∧
      ∀ c ∈ lexed.comments, c.location.line ≤ c.endLine := by
  obtain ⟨placed, finish, hplaced, rfl⟩ := exists_assemble_of_tokenize h
  have hpairwise := (pairwise_finish_lexemes hplaced).1
  rw [comments_assemble, List.pairwise_map]
  refine ⟨(hpairwise.filter _).imp fun {p q} hpq => ?_, List.forall_mem_map.mpr fun p _ => ?_⟩
  · rw [Placed.location_comment]
    exact Nat.le_trans p.line_le_endLine_comment.2 hpq.line_le
  · rw [Placed.location_comment]
    exact p.line_le_endLine_comment.1

/-! ### Tokens -/

/-- A lexeme has one token at its place or none, and one more semicolon may be implied at the
end. -/
theorem sublist_location_assemble (finish : Location) (pending : Bool) (placed : List Placed) :
    ((assemble finish pending placed).tokens.map Token.location).Sublist
      (placed.map Placed.location ++ [finish]) := by
  have himplied (pending : Bool) (l : Location) :
      ((impliedAt pending l).map Token.location).Sublist [l] := by
    cases pending with
    | false => exact List.nil_sublist _
    | true => exact List.Sublist.refl _
  fun_induction assemble finish pending placed with
  | case1 pending => exact himplied pending finish
  | case2 pending p rest hcls ih => exact ih.cons _
  | case3 pending p rest hcls lexed ih =>
    rw [List.map_append]
    exact (himplied pending p.location).append ih
  | case4 pending p rest hcls lexed ih => exact ih.cons _
  | case5 pending p rest hcls breaks lexed ih =>
    rw [List.map_append]
    exact (himplied _ p.location).append ih
  | case6 pending p rest kind hcls token lexed ih => exact ih.cons_cons _

/-- **Tokens in the order of the text.** -/
theorem Lexed.pairwise_allTokens {file source : String} {lexed : Lexed}
    (h : tokenize file source = .ok lexed) :
    lexed.allTokens.Pairwise fun t u => t.location.AtMost u.location := by
  obtain ⟨placed, finish, hplaced, rfl⟩ := exists_assemble_of_tokenize h
  obtain ⟨hpairwise, -, hfinish⟩ := pairwise_finish_lexemes hplaced
  have hplaces : (placed.map Placed.location ++ [finish, finish]).Pairwise Location.AtMost := by
    rw [List.pairwise_append, List.pairwise_map]
    refine ⟨hpairwise.imp fun {p q} hpq => p.atMost_finish.trans hpq,
      by simp [Location.AtMost], List.forall_mem_map.mpr fun p hp l hl => ?_⟩
    have hl : l = finish := by simpa using hl
    exact hl ▸ p.atMost_finish.trans (hfinish p hp)
  have hsub := (sublist_location_assemble finish false placed).append (List.Sublist.refl [finish])
  rw [List.append_assoc] at hsub
  have htokens := hplaces.sublist hsub
  have hend : (assemble finish false placed).finish = finish :=
    congrArg Lexed.finish (assemble_eq finish false placed)
  rw [allTokens, hend, ← List.pairwise_map, List.map_append]
  exact htokens

/-! ### Reading comments -/

namespace Lexeme

/-- The rest of a line belongs to the comment. -/
theorem scan_lineComment {body : List Char} (h : '\n' ∉ body) (rest : List Char) :
    scan '/' ('/' :: (body ++ '\n' :: rest)) =
      .ok (⟨.lineComment, '/' :: '/' :: body⟩, '\n' :: rest) := by
  have hline : ∀ c ∈ '/' :: body, (c != '\n') = true := by
    refine List.forall_mem_cons.mpr ⟨rfl, fun c hc => bne_iff_ne.mpr ?_⟩
    rintro rfl
    exact h hc
  have hend : ('\n' != '\n') = false := rfl
  rw [scan, if_neg (by decide), if_neg (by decide), if_pos ⟨rfl, rfl⟩, ← List.cons_append,
    List.takeWhile_append_of_pos hline, List.dropWhile_append_of_pos hline,
    List.takeWhile_cons_of_neg (by simp), List.dropWhile_cons_of_neg (by simp), List.append_nil]

/-- A block comment goes to the first mark of its end. -/
theorem blockRest?_body {body : List Char} (h : ¬ ['*', '/'] <:+: body) (rest : List Char) :
    blockRest? (body ++ ' ' :: '*' :: '/' :: rest) = some (body ++ [' ', '*', '/'], rest) := by
  induction body with
  | nil => rfl
  | cons c body ih =>
    rw [List.infix_cons_iff, not_or] at h
    rw [List.cons_append, blockRest?, ih h.2]
    · rfl
    · rintro rest' rfl heq
      cases body with
      | nil => cases heq
      | cons d body =>
        obtain ⟨rfl, -⟩ := List.cons.inj heq
        exact h.1 (by simp)

/-- A text without the closing mark, put between the marks of a block comment, is scanned as one
comment, whatever follows. -/
theorem scan_blockComment {body : List Char} (h : ¬ ['*', '/'] <:+: body) (rest : List Char) :
    scan '/' ('*' :: (body ++ ' ' :: '*' :: '/' :: rest)) =
      .ok (⟨.blockComment, '/' :: '*' :: (body ++ [' ', '*', '/'])⟩, rest) := by
  rw [scan, if_neg (by decide), if_neg (by decide), if_neg (by simp), if_pos ⟨rfl, rfl⟩,
    List.drop_one, List.tail_cons, blockRest?_body h]
  rfl

end Lexeme

end GoPages

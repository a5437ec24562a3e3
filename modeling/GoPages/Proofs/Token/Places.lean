import GoPages.Token.Lexer
import Mathlib.Data.List.Nodup

/-!
# The places of names in a source text

`Location.Precedes` is the order of the places in one file, by line and column. Every lexeme of a
text starts where the one before it ends, and none is empty, so that the places of the lexemes
increase (`pairwise_precedes_lexemes`). An implied semicolon shares the place of a lexeme, but no
other token does: `tokenPlaces` are the places of the tokens other than semicolons, and they
increase too (`pairwise_precedes_tokenPlaces`).
-/

namespace GoPages

namespace Location

/-- Both locations are in one file, and the first one stands before the second one. -/
def Precedes (l m : Location) : Prop :=
  l.file = m.file ∧ (l.line < m.line ∨ l.line = m.line ∧ l.column < m.column)

/-- Places come one before another in a transitive order. -/
theorem Precedes.trans {l m n : Location} (h : l.Precedes m) (h' : m.Precedes n) :
    l.Precedes n := by
  obtain ⟨hfile, hlt⟩ := h
  obtain ⟨hfile', hlt'⟩ := h'
  exact ⟨hfile.trans hfile', by omega⟩

/-- No place precedes itself. -/
theorem Precedes.ne {l m : Location} (h : l.Precedes m) : l ≠ m := by
  rintro rfl
  have := h.2
  omega

/-- A location after further text stands at the same place or at a later one. -/
def AtMost (l m : Location) : Prop := l = m ∨ l.Precedes m

/-- What precedes a place precedes every place that is not before it. -/
theorem Precedes.trans_atMost {l m n : Location} (h : l.Precedes m) (h' : m.AtMost n) :
    l.Precedes n := by
  rcases h' with rfl | h'
  · exact h
  · exact h.trans h'

/-- Places in order are in one file. -/
theorem AtMost.file {l m : Location} (h : l.AtMost m) : m.file = l.file := by
  rcases h with rfl | h
  · rfl
  · exact h.1.symm

/-! ### Moving over text -/

/-- A character moves the place on. -/
private theorem precedes_next (l : Location) (c : Char) : l.Precedes (l.next c) := by
  have := c.utf8Size_pos
  rw [next]
  split
  · exact ⟨rfl, .inl (Nat.lt_succ_self _)⟩
  · exact ⟨rfl, .inr ⟨rfl, by simp only; omega⟩⟩

private theorem atMost_advance (l : Location) (cs : List Char) : l.AtMost (l.advance cs) := by
  induction cs generalizing l with
  | nil => exact .inl rfl
  | cons c cs ih => exact .inr ((l.precedes_next c).trans_atMost (ih _))

private theorem precedes_advance (l : Location) {cs : List Char} (h : cs ≠ []) :
    l.Precedes (l.advance cs) := by
  cases cs with
  | nil => exact absurd rfl h
  | cons c cs => exact (l.precedes_next c).trans_atMost ((l.next c).atMost_advance cs)

private theorem precedes_skip (l : Location) {cs : List Char} (h : cs ≠ []) :
    l.Precedes (l.skip cs) := by
  cases cs with
  | nil => exact absurd rfl h
  | cons c cs =>
    have := c.utf8Size_pos
    exact ⟨rfl, .inr ⟨rfl, by simp only [skip, byteCount]; omega⟩⟩

end Location

/-- A lexeme that is not empty moves the place on. -/
theorem Lexeme.precedes_after (x : Lexeme) (l : Location) (h : x.text ≠ []) :
    l.Precedes (x.after l) := by
  rw [after]
  split
  · exact l.precedes_skip h
  · exact l.precedes_advance h

/-! ### Lexemes -/

/-- The places of lexemes increase, from the start of the text on. -/
theorem pairwise_precedes_lexemes {l finish : Location} {cs : List Char} {placed : List Placed}
    (h : lexemes l cs = .ok (placed, finish)) :
    (∀ p ∈ placed, l.AtMost p.location) ∧
      (placed.map Placed.location).Pairwise Location.Precedes := by
  rw [lexemes_eq_ok_iff] at h
  induction h with
  | done => simp
  | @step l _ c cs rest x placed hscan _ ih =>
    obtain ⟨hafter, hpairwise⟩ := ih
    -- no lexeme is empty, so each one moves the place on
    have hlt := x.precedes_after l (Lexeme.scan_append hscan).2
    have hlater : ∀ p ∈ placed, l.Precedes p.location :=
      fun p hp => hlt.trans_atMost (hafter p hp)
    refine ⟨fun p hp => ?_, ?_⟩
    · rcases List.mem_cons.mp hp with rfl | hp
      · exact .inl rfl
      · exact .inr (hlater p hp)
    · rw [List.map_cons, List.pairwise_cons]
      refine ⟨fun m hm => ?_, hpairwise⟩
      obtain ⟨p, hp, rfl⟩ := List.mem_map.mp hm
      exact hlater p hp

/-! ### Places among tokens -/

/-- The places of tokens other than semicolons. -/
def tokenPlaces (ts : List Token) : List Location :=
  (ts.filter fun t => t.kind != .semicolon).map Token.location

/-- The places of tokens are found part by part. -/
theorem tokenPlaces_append (ts us : List Token) :
    tokenPlaces (ts ++ us) = tokenPlaces ts ++ tokenPlaces us := by
  rw [tokenPlaces, List.filter_append, List.map_append]
  rfl

private theorem tokenPlaces_cons (t : Token) (ts : List Token) :
    tokenPlaces (t :: ts) =
      (if t.kind = .semicolon then [] else [t.location]) ++ tokenPlaces ts := by
  by_cases h : t.kind = .semicolon <;> simp [tokenPlaces, h]

/-- An implied semicolon is no other token. -/
theorem tokenPlaces_impliedAt (pending : Bool) (l : Location) :
    tokenPlaces (impliedAt pending l) = [] := by
  cases pending <;> rfl

/-- Every token but a semicolon has the place of a lexeme of its own. -/
theorem tokenPlaces_assemble_sublist (finish : Location) (pending : Bool) (placed : List Placed) :
    (tokenPlaces (assemble finish pending placed).tokens).Sublist
      (placed.map Placed.location) := by
  -- a lexeme gives a token at its place or none, after a semicolon that may be implied
  fun_induction assemble finish pending placed with
  | case1 => simp [tokenPlaces_impliedAt]
  | case2 _ _ _ _ ih => exact ih.cons _
  | case3 _ _ _ _ _ ih => simpa [tokenPlaces_append, tokenPlaces_impliedAt] using ih.cons _
  | case4 _ _ _ _ _ ih => exact ih.cons _
  | case5 _ _ _ _ _ _ ih => simpa [tokenPlaces_append, tokenPlaces_impliedAt] using ih.cons _
  | case6 _ q _ kind _ _ _ ih =>
    rw [tokenPlaces_cons, List.map_cons]
    split
    · exact ih.cons _
    · exact ih.cons_cons _

/-- The places of the tokens of a text increase. They are in the file of the text, on lines that are
counted from one. -/
theorem pairwise_precedes_tokenPlaces {file source : String} {lexed : Lexed}
    (h : tokenize file source = .ok lexed) :
    (tokenPlaces lexed.tokens).Pairwise Location.Precedes ∧
      ∀ l ∈ tokenPlaces lexed.tokens, l.file = file ∧ 0 < l.line := by
  obtain ⟨placed, finish, hplaced, rfl⟩ := exists_assemble_of_tokenize h
  obtain ⟨hstart, hpairwise⟩ := pairwise_precedes_lexemes hplaced
  have hsub := tokenPlaces_assemble_sublist finish false placed
  refine ⟨hpairwise.sublist hsub, fun l hl => ?_⟩
  obtain ⟨q, hq, rfl⟩ := List.mem_map.mp (hsub.subset hl)
  refine ⟨(hstart q hq).file, ?_⟩
  rcases hstart q hq with heq | ⟨-, hlt⟩
  · exact heq ▸ Nat.one_pos
  · simp only at hlt
    omega

end GoPages

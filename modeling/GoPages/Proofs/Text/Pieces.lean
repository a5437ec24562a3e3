import GoPages.Text.Pieces

/-!
# Texts with separators and escapes

A separator cuts a text in two (`Text.pieces_append_cons`), and joining two lists of pieces puts a
separator between them (`Text.join_append`). So the pieces of a text begin with those of another one
exactly if the text is the other one, or continues it with a separator
(`Text.pieces_isPrefix_iff`).

Where some characters have a meaning of their own, a text is written with a backslash before each of
them (`Text.escaped`).
-/

namespace GoPages.Text

variable {sep : Char}

/-- A separator cuts a text in two. -/
theorem pieces_append_cons (sep : Char) (cs ds : List Char) :
    pieces sep (cs ++ sep :: ds) = pieces sep cs ++ pieces sep ds := by
  induction cs with
  | nil => simp only [List.nil_append, pieces, if_true, List.cons_append]
  | cons c cs ih =>
    rw [List.cons_append, pieces, pieces, ih]
    split
    · rfl
    · -- The first piece of a text is a piece of its beginning.
      cases hpieces : pieces sep cs with
      | nil => exact absurd hpieces (pieces_ne_nil sep cs)
      | cons piece rest => rfl

/-- A text without separators is one piece. -/
theorem pieces_of_notMem {cs : List Char} (h : sep ∉ cs) : pieces sep cs = [cs] := by
  induction cs with
  | nil => rfl
  | cons c cs ih =>
    rw [List.mem_cons, not_or] at h
    obtain ⟨hc, hcs⟩ := h
    rw [pieces, if_neg (Ne.symm hc), ih hcs]

/-- A separator follows each piece but the last. -/
theorem join_cons (piece : List Char) {rest : List (List Char)} (h : rest ≠ []) :
    join sep (piece :: rest) = piece ++ sep :: join sep rest := by
  cases rest with
  | nil => exact absurd rfl h
  | cons next rest => rfl

/-- A separator stands between two lists of pieces. -/
theorem join_append {as bs : List (List Char)} (ha : as ≠ []) (hb : bs ≠ []) :
    join sep (as ++ bs) = join sep as ++ sep :: join sep bs := by
  induction as with
  | nil => exact absurd rfl ha
  | cons a as ih =>
    by_cases has : as = []
    · rw [has]
      exact join_cons a hb
    · rw [List.cons_append, join_cons a (List.append_ne_nil_of_left_ne_nil has bs), ih has,
        join_cons a has, List.append_assoc, List.cons_append]

/-- **The pieces of a text begin with those of another one** if the text is the other one, or
continues it with a separator. -/
theorem pieces_isPrefix_iff {cs ds : List Char} :
    pieces sep cs <+: pieces sep ds ↔ ds = cs ∨ ∃ rest, ds = cs ++ sep :: rest := by
  constructor
  · rintro ⟨more, hmore⟩
    have hjoin : ds = join sep (pieces sep cs ++ more) := by rw [hmore, join_pieces]
    by_cases hnil : more = []
    · rw [hnil, List.append_nil, join_pieces] at hjoin
      exact .inl hjoin
    · rw [join_append (pieces_ne_nil sep cs) hnil, join_pieces] at hjoin
      exact .inr ⟨join sep more, hjoin⟩
  · rintro (rfl | ⟨rest, rfl⟩)
    · exact List.prefix_rfl
    · rw [pieces_append_cons]
      exact List.prefix_append _ _

/-! ### Escaped texts -/

variable {special : List Char} {c : Char}

/-- The text with a backslash before every special character. -/
def escaped (special text : List Char) : List Char :=
  text.flatMap fun c => if c ∈ special then ['\\', c] else [c]

/-- A character with a meaning gets a backslash. -/
theorem escaped_cons_of_mem (h : c ∈ special) (text : List Char) :
    escaped special (c :: text) = '\\' :: c :: escaped special text := by
  rw [escaped, List.flatMap_cons, if_pos h]
  rfl

/-- Any other character is written as it is. -/
theorem escaped_cons_of_notMem (h : c ∉ special) (text : List Char) :
    escaped special (c :: text) = c :: escaped special text := by
  rw [escaped, List.flatMap_cons, if_neg h]
  rfl

end GoPages.Text

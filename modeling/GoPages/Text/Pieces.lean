/-!
# Pieces of a text

* `pieces sep` cuts a text at every `sep`; there is at least one piece, and joining the pieces with
  `sep` gives the text back (`join_pieces`).
* `strip?` and `stripEnd?` take a given beginning or ending off a text that has it.
* `before sep` is the text up to the first `sep`.
-/

namespace GoPages.Text

/-- The pieces of a text between the occurrences of `sep`. -/
def pieces (sep : Char) : List Char → List (List Char)
  | [] => [[]]
  | c :: cs =>
    if c = sep then [] :: pieces sep cs
    else match pieces sep cs with
      | [] => [[c]]
      | piece :: rest => (c :: piece) :: rest

/-- There is at least one piece. -/
theorem pieces_ne_nil (sep : Char) (cs : List Char) : pieces sep cs ≠ [] := by
  cases cs with
  | nil => simp [pieces]
  | cons c cs =>
    rw [pieces]
    split
    · simp
    · split <;> simp

/-- The texts with `sep` between every two of them. -/
def join (sep : Char) : List (List Char) → List Char
  | [] => []
  | [piece] => piece
  | piece :: rest => piece ++ sep :: join sep rest

/-- Cutting loses nothing but the separators. -/
theorem join_pieces (sep : Char) (cs : List Char) : join sep (pieces sep cs) = cs := by
  induction cs with
  | nil => rfl
  | cons c cs ih =>
    rw [pieces]
    have hne := pieces_ne_nil sep cs
    cases hp : pieces sep cs with
    | nil => exact absurd hp hne
    | cons piece rest =>
      rw [hp] at ih
      by_cases h : c = sep
      · simp [h, join, ih]
      · cases rest with
        | nil => simpa [h, join] using ih
        | cons _ _ => simpa [h, join] using ih

/-- What follows `start` in a text that begins with it. -/
def strip? : (start cs : List Char) → Option (List Char)
  | [], cs => some cs
  | _ :: _, [] => none
  | a :: start, c :: cs => if a = c then strip? start cs else none

/-- What precedes `ending` in a text that ends with it. -/
def stripEnd? (ending cs : List Char) : Option (List Char) :=
  (strip? ending.reverse cs.reverse).map List.reverse

/-- `strip?` finds exactly the texts that begin with `start`. -/
theorem strip?_eq_some_iff {start cs rest : List Char} :
    strip? start cs = some rest ↔ cs = start ++ rest := by
  induction start generalizing cs with
  | nil => simp [strip?]
  | cons a start ih =>
    cases cs with
    | nil => simp [strip?]
    | cons c cs =>
      by_cases h : a = c
      · simp [strip?, h, ih]
      · simp [strip?, h, Ne.symm h]

/-- `stripEnd?` finds exactly the texts that end with `ending`. -/
theorem stripEnd?_eq_some_iff {ending cs rest : List Char} :
    stripEnd? ending cs = some rest ↔ cs = rest ++ ending := by
  rw [stripEnd?, Option.map_eq_some_iff]
  constructor
  · rintro ⟨r, hr, rfl⟩
    have := strip?_eq_some_iff.1 hr
    rw [← List.reverse_reverse cs, this]
    simp
  · rintro rfl
    exact ⟨rest.reverse, strip?_eq_some_iff.2 (by simp), by simp⟩

/-- The text up to the first `sep`, or the whole text if there is none. -/
def before (sep : Char) (cs : List Char) : List Char := cs.takeWhile (· != sep)

end GoPages.Text

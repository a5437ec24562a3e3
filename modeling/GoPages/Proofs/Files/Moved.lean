import GoPages.Package
import GoPages.Proofs.Files.Model
import GoPages.Proofs.Text.Pieces

/-!
# Files moved to a directory

`Location.moved d` puts a directory in front of the path of a file, as far as the path has a base
name; other paths, such as the empty one, stay. It keeps base names
(`Location.keepsBaseNames_moved`).

`Location.IsFileName` are the names of files without a directory. For these, moving to a directory
is to put the directory in front of the name, which keeps their order
(`Location.IsFileName.moved_lt_moved_iff`).
-/

namespace GoPages

namespace Location

/-! ### Steps of paths -/

/-- A path to a directory, with the slash at its end. -/
def IsDirectoryPath (d : String) : Prop := d.toList.getLast? = some '/'

instance (d : String) : Decidable (IsDirectoryPath d) :=
  inferInstanceAs (Decidable (d.toList.getLast? = some '/'))

variable {d : String}

/-- A directory in front of a path adds its steps to those of the path. -/
private theorem pathSteps_append (hd : IsDirectoryPath d) (file : String) :
    pathSteps (d ++ file) = pathSteps d ++ pathSteps file := by
  obtain ⟨cs, hcs⟩ := List.getLast?_eq_some_iff.mp hd
  -- The slash at the end of the directory separates its pieces from those of the file.
  have hpath : (d ++ file).toList = cs ++ '/' :: file.toList := by
    rw [String.toList_append, hcs, List.append_assoc, List.singleton_append]
  have hdirectory : Text.pieces '/' (cs ++ ['/']) = Text.pieces '/' cs ++ [[]] :=
    Text.pieces_append_cons '/' cs []
  rw [pathSteps, pathSteps, pathSteps, hpath, hcs, Text.pieces_append_cons, hdirectory]
  simp only [List.filter_append]
  simp

/-- Does the path have a base name of its own? It does unless it has no steps, or ends by going
up. -/
def hasBaseName (path : String) : Bool :=
  match (pathSteps path).getLast? with
  | some ['.', '.'] => false
  | some _ => true
  | none => false

/-- A path has a base name if its last step does not go up. -/
private theorem hasBaseName_iff {path : String} :
    hasBaseName path ↔ ∃ step ≠ ['.', '.'], (pathSteps path).getLast? = some step := by
  rw [hasBaseName]
  split
  · next hlast => simp [hlast]
  · next step hne hlast => simpa [hlast] using hne
  · next hlast => simp [hlast]

/-- The base name of a path is its last step. -/
theorem baseName_of_getLast? {path : String} {step : List Char} (hne : step ≠ ['.', '.'])
    (hlast : (pathSteps path).getLast? = some step) : baseName path = String.ofList step := by
  rw [baseName, hlast]
  split
  · next h => exact absurd (Option.some.inj h) hne
  · next step' _ h => rw [Option.some.inj h]
  · next h => exact absurd h (Option.some_ne_none step)

/-- A name without a slash is its own base name. -/
theorem baseName_of_noSlash {name : String} (h : '/' ∉ name.toList) : baseName name = name := by
  have hlast : (pathSteps name).getLast? = none ∨
      (pathSteps name).getLast? = some name.toList := by
    rw [pathSteps, Text.pieces_of_notMem h, List.filter_singleton]
    cases name.toList != [] && name.toList != ['.']
    · exact .inl rfl
    · exact .inr rfl
  rcases hlast with hnone | hsome
  · rw [baseName, hnone]
  · by_cases hup : name.toList = ['.', '.']
    · simp only [baseName, hsome, hup]
    · rw [baseName_of_getLast? hup hsome, String.ofList_toList]

/-! ### Moving -/

variable (d) in
/-- The path in a directory. A path without a base name stays. -/
def moved (path : String) : String := if hasBaseName path then d ++ path else path

private theorem getLast?_pathSteps_append (hd : IsDirectoryPath d) {path : String}
    {step : List Char} (hlast : (pathSteps path).getLast? = some step) :
    (pathSteps (d ++ path)).getLast? = some step := by
  rw [pathSteps_append hd, List.getLast?_append, hlast, Option.some_or]

private theorem hasBaseName_append (hd : IsDirectoryPath d) {path : String}
    (hpath : hasBaseName path) : hasBaseName (d ++ path) := by
  obtain ⟨step, hne, hlast⟩ := hasBaseName_iff.mp hpath
  exact hasBaseName_iff.mpr ⟨step, hne, getLast?_pathSteps_append hd hlast⟩

/-- Moving a file keeps its base name. -/
private theorem baseName_moved (hd : IsDirectoryPath d) (path : String) :
    baseName (moved d path) = baseName path := by
  rw [moved]
  split
  · next hpath =>
    obtain ⟨step, hne, hlast⟩ := hasBaseName_iff.mp hpath
    rw [baseName_of_getLast? hne (getLast?_pathSteps_append hd hlast),
      baseName_of_getLast? hne hlast]
  · rfl

private theorem append_right_injective (d : String) : Function.Injective (d ++ ·) := by
  intro a b h
  have hlist : d.toList ++ a.toList = d.toList ++ b.toList := by
    rw [← String.toList_append, ← String.toList_append]
    exact congrArg String.toList h
  exact String.toList_inj.mp (List.append_cancel_left hlist)

/-- No two paths become one when they are moved. -/
private theorem moved_injective (hd : IsDirectoryPath d) : Function.Injective (moved d) := by
  intro a b h
  by_cases ha : hasBaseName a
  · by_cases hb : hasBaseName b
    · rw [moved, moved, if_pos ha, if_pos hb] at h
      exact append_right_injective d h
    · -- A path in the directory has a base name, so it is none of those that stay.
      rw [moved, moved, if_pos ha, if_neg hb] at h
      exact absurd (h ▸ hasBaseName_append hd ha) hb
  · by_cases hb : hasBaseName b
    · rw [moved, moved, if_neg ha, if_pos hb] at h
      exact absurd (h ▸ hasBaseName_append hd hb) ha
    · rwa [moved, moved, if_neg ha, if_neg hb] at h

/-- Moving files to a directory keeps their base names. -/
theorem keepsBaseNames_moved (hd : IsDirectoryPath d) : KeepsBaseNames (moved d) where
  injective := moved_injective hd
  empty := rfl
  baseName := baseName_moved hd

/-! ### Names of files -/

/-- The name of a file, without a directory. -/
structure IsFileName (name : String) : Prop where
  ne_empty : name ≠ ""
  ne_here : name ≠ "."
  ne_up : name ≠ ".."
  noSlash : '/' ∉ name.toList

private theorem pathSteps_of_isFileName {name : String} (h : IsFileName name) :
    pathSteps name = [name.toList] := by
  have hempty : name.toList ≠ [] := fun hnil => h.ne_empty (String.toList_inj.mp hnil)
  have hhere : name.toList ≠ ['.'] := fun hdot => h.ne_here (String.toList_inj.mp hdot)
  rw [pathSteps, Text.pieces_of_notMem h.noSlash]
  simp [hempty, hhere]

private theorem IsFileName.hasBaseName {name : String} (h : IsFileName name) :
    hasBaseName name := by
  have hup : name.toList ≠ ['.', '.'] := fun hdots => h.ne_up (String.toList_inj.mp hdots)
  refine hasBaseName_iff.mpr ⟨name.toList, hup, ?_⟩
  rw [pathSteps_of_isFileName h, List.getLast?_singleton]

/-- The name of a file is moved by the directory in front of it. -/
theorem IsFileName.moved {name : String} (h : IsFileName name) : moved d name = d ++ name :=
  if_pos h.hasBaseName

/-- Texts with the same beginning are ordered by what follows it. -/
private theorem append_lt_append_iff (d a b : String) : d ++ a < d ++ b ↔ a < b := by
  rw [String.lt_iff, String.lt_iff, String.toList_append, String.toList_append]
  induction d.toList with
  | nil => rfl
  | cons c cs ih => rw [List.cons_append, List.cons_append, List.cons_lt_cons_iff]; simp [ih]

/-- A directory in front of names does not change their order. -/
theorem IsFileName.moved_lt_moved_iff {a b : String} (ha : IsFileName a) (hb : IsFileName b) :
    Location.moved d a < Location.moved d b ↔ a < b := by
  rw [ha.moved, hb.moved, append_lt_append_iff]

end Location

end GoPages

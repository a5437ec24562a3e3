import GoPages.Package
import Mathlib.Data.List.Basic
import Mathlib.Data.List.Forall2

/-!
# How a package loads

The sources of a package are read in the order of their names, up to the first one that cannot be
read.

* `Package.parseAll_eq_ok_iff` and `Package.parseAll_eq_error_iff`: reading gives a file for every
  source, or the error of the first source that has one.
* `Package.parseAll_of_load`: the files of a package that loads are all its sources. The place of
  the package is in the first one (`Package.exists_first_of_load`).
* `Package.load_eq_malformed_iff` and `Package.exists_parseAll_of_multiplePackages`: loading ends
  with a syntax error if reading does, and files that disagree about their package have all been
  read.
-/

namespace GoPages

/-- The file of a source, or the error in it. -/
def Source.parse (s : Source) : Except SyntaxError SourceFile := SourceFile.parse s.name s.text

namespace Package

/-! ### Reading sources -/

private theorem parseAll_cons_of_ok {s : Source} {file : SourceFile} (h : s.parse = .ok file)
    (rest : List Source) : parseAll (s :: rest) = (parseAll rest).map (file :: ·) := by
  rw [parseAll, ← Source.parse, h]
  cases parseAll rest <;> rfl

/-- Reading stops at the first source that cannot be read. -/
private theorem parseAll_cons_of_error {s : Source} {e : SyntaxError} (h : s.parse = .error e)
    (rest : List Source) : parseAll (s :: rest) = .error (.malformed e) := by
  rw [parseAll, ← Source.parse, h]

/-- Sources can be read together if each of them can. -/
theorem parseAll_eq_ok_iff {sources : List Source} {files : List SourceFile} :
    parseAll sources = .ok files ↔
      List.Forall₂ (fun s file => s.parse = .ok file) sources files := by
  induction sources generalizing files with
  | nil => cases files <;> simp [parseAll]
  | cons s rest ih =>
    rw [List.forall₂_cons_left_iff]
    constructor
    · intro h
      cases hs : s.parse with
      | error e => simp [parseAll_cons_of_error hs] at h
      | ok file =>
        rw [parseAll_cons_of_ok hs] at h
        cases hrest : parseAll rest with
        | error e => simp [hrest, Except.map] at h
        | ok fs =>
          rw [hrest] at h
          exact ⟨file, fs, rfl, ih.mp hrest, (Except.ok.inj h).symm⟩
    · rintro ⟨file, fs, hs, hrest, rfl⟩
      rw [parseAll_cons_of_ok hs, ih.mpr hrest]
      rfl

/-- If all sources are read, then each of them can be. -/
theorem exists_parse_of_parseAll {sources : List Source} {files : List SourceFile}
    (h : parseAll sources = .ok files) : ∀ s ∈ sources, ∃ file, s.parse = .ok file := by
  intro s hs
  obtain ⟨i, hi, rfl⟩ := List.getElem_of_mem hs
  obtain ⟨hlen, hget⟩ := List.forall₂_iff_get.mp (parseAll_eq_ok_iff.mp h)
  exact ⟨files[i], hget i hi (hlen ▸ hi)⟩

/-- **Reading stops at the first syntax error.** All sources before it can be read. -/
theorem parseAll_eq_error_iff {sources : List Source} {e : SyntaxError} :
    parseAll sources = .error (.malformed e) ↔
      ∃ before s after, sources = before ++ s :: after ∧ s.parse = .error e ∧
        ∀ t ∈ before, ∃ file, t.parse = .ok file := by
  constructor
  · intro h
    induction sources with
    | nil => cases h
    | cons s rest ih =>
      cases hs : s.parse with
      | error e' =>
        rw [parseAll_cons_of_error hs] at h
        cases h
        exact ⟨[], s, rest, rfl, hs, by simp⟩
      | ok file =>
        rw [parseAll_cons_of_ok hs] at h
        cases hrest : parseAll rest with
        | ok fs => simp [hrest, Except.map] at h
        | error failure =>
          have hfailure : failure = .malformed e := by
            rw [hrest] at h
            exact Except.error.inj h
          obtain ⟨before, t, after, rfl, ht, hbefore⟩ := ih (hfailure ▸ hrest)
          exact ⟨s :: before, t, after, rfl, ht, List.forall_mem_cons.mpr ⟨⟨file, hs⟩, hbefore⟩⟩
  · rintro ⟨before, s, after, rfl, hs, hbefore⟩
    induction before with
    | nil => exact parseAll_cons_of_error hs after
    | cons t before ih =>
      obtain ⟨⟨file, ht⟩, hrest⟩ := List.forall_mem_cons.mp hbefore
      rw [List.cons_append, parseAll_cons_of_ok ht, ih hrest]
      rfl

/-- Reading ends with no error but a syntax error. -/
theorem exists_malformed_of_parseAll {sources : List Source} {failure : LoadError}
    (h : parseAll sources = .error failure) : ∃ e, failure = .malformed e := by
  induction sources with
  | nil => cases h
  | cons s rest ih =>
    cases hs : s.parse with
    | error e =>
      rw [parseAll_cons_of_error hs] at h
      exact ⟨e, (Except.error.inj h).symm⟩
    | ok file =>
      rw [parseAll_cons_of_ok hs] at h
      cases hrest : parseAll rest with
      | ok fs => simp [hrest, Except.map] at h
      | error failure' =>
        rw [hrest] at h
        exact ih (hrest.trans (congrArg Except.error (Except.error.inj h)))

/-! ### Loading -/

/-- What stops the reading stops the loading. -/
private theorem load_of_parseAll_error {sources : List Source} {failure : LoadError}
    (h : parseAll (inNameOrder sources) = .error failure) : load sources = .error failure := by
  rw [load, h]

/-- After all sources have been read, only the names of packages can differ. -/
private theorem load_of_parseAll_ok {sources : List Source} {files : List SourceFile}
    (h : parseAll (inNameOrder sources) = .ok files) :
    load sources =
      ofFiles (Digest.hex (Digest.sha256 (digestInput (inNameOrder sources)))) files := by
  rw [load, h]

private theorem ofFiles_ne_malformed (digest : String) (files : List SourceFile) (e : SyntaxError) :
    ofFiles digest files ≠ .error (.malformed e) := by
  cases files with
  | nil => simp [ofFiles]
  | cons first rest =>
    rw [ofFiles]
    split <;> simp

/-- A package has at least one file. -/
private theorem exists_eq_cons_of_ofFiles {digest : String} {files : List SourceFile} {p : Package}
    (h : ofFiles digest files = .ok p) : ∃ first rest, files = first :: rest ∧ p.files = files := by
  cases files with
  | nil => cases h
  | cons first rest =>
    rw [ofFiles] at h
    split at h
    · cases h
    · cases h
      exact ⟨first, rest, rfl, rfl⟩

/-- Loading ends with a syntax error if reading does. -/
theorem load_eq_malformed_iff {sources : List Source} {e : SyntaxError} :
    load sources = .error (.malformed e) ↔
      parseAll (inNameOrder sources) = .error (.malformed e) := by
  cases hfiles : parseAll (inNameOrder sources) with
  | error failure =>
    rw [load_of_parseAll_error hfiles, Except.error.injEq, Except.error.injEq]
  | ok files => simp [load_of_parseAll_ok hfiles, ofFiles_ne_malformed]

/-- Files that disagree about their package have all been read. -/
theorem exists_parseAll_of_multiplePackages {sources : List Source} {first second : String}
    {l : Location} (h : load sources = .error (.multiplePackages first second l)) :
    ∃ files, parseAll (inNameOrder sources) = .ok files := by
  cases hfiles : parseAll (inNameOrder sources) with
  | error failure =>
    obtain ⟨e, rfl⟩ := exists_malformed_of_parseAll hfiles
    rw [load_of_parseAll_error hfiles] at h
    cases h
  | ok files => exact ⟨files, rfl⟩

/-- A package that loads has the files of its sources, and there is a first one. -/
theorem exists_parseAll_of_load {sources : List Source} {p : Package} (h : load sources = .ok p) :
    ∃ first rest, p.files = first :: rest ∧
      parseAll (inNameOrder sources) = .ok (first :: rest) := by
  cases hfiles : parseAll (inNameOrder sources) with
  | error failure =>
    rw [load_of_parseAll_error hfiles] at h
    cases h
  | ok files =>
    rw [load_of_parseAll_ok hfiles] at h
    obtain ⟨first, rest, rfl, hp⟩ := exists_eq_cons_of_ofFiles h
    exact ⟨first, rest, hp, rfl⟩

/-- The files of a package are those of its sources in the order of their names. -/
theorem parseAll_of_load {sources : List Source} {p : Package} (h : load sources = .ok p) :
    parseAll (inNameOrder sources) = .ok p.files := by
  obtain ⟨first, rest, hp, hfiles⟩ := exists_parseAll_of_load h
  rw [hp, hfiles]

/-- The place of a package is that of the package name in its first source. -/
theorem exists_first_of_load {sources : List Source} {p : Package} (h : load sources = .ok p) :
    ∃ s rest file, inNameOrder sources = s :: rest ∧ s.parse = .ok file ∧
      p.location = file.package.location := by
  obtain ⟨file, files, hp, hfiles⟩ := exists_parseAll_of_load h
  obtain ⟨s, rest, hs, -, hsorted⟩ := List.forall₂_cons_right_iff.mp (parseAll_eq_ok_iff.mp hfiles)
  refine ⟨s, rest, file, hsorted, hs, ?_⟩
  rw [location, hp]

end Package

end GoPages

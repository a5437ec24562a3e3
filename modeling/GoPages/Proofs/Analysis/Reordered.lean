import GoPages.Analysis
import GoPages.Proofs.Package.Lines
import GoPages.Proofs.Package.Places

/-!
# The order of the sources

An analysis does not depend on the order in which it gets its sources, if they have different names.
It knows them only in the order of their names, and there is one such order
(`Package.inNameOrder_eq_of_perm`). So also the fault that it reports is one that can be told from
the sources without their order: of syntax errors the one in the first source by name
(`Package.load_eq_malformed_iff_first`).
-/

namespace GoPages

namespace Package

variable {sources sources' : List Source}

/-- Sources with different names have one order of their names. -/
theorem inNameOrder_eq_of_perm (hperm : sources.Perm sources')
    (hnames : (sources.map Source.name).Nodup) : inNameOrder sources = inNameOrder sources' :=
  sortBy_eq_of_perm nameOrder_iff hnames hperm

/-- Sources that are reordered are loaded to the same package, or fail with the same fault. -/
private theorem load_eq_of_perm (hperm : sources.Perm sources')
    (hnames : (sources.map Source.name).Nodup) : load sources = load sources' := by
  rw [load, load, inNameOrder_eq_of_perm hperm hnames]

/-- The syntax error that counts is that of the first source by name which has one. -/
theorem load_eq_malformed_iff_first (hnames : (sources.map Source.name).Nodup) {e : SyntaxError} :
    load sources = .error (.malformed e) ↔ ∃ s ∈ sources, s.parse = .error e ∧
      ∀ t ∈ sources, t.name < s.name → ∃ file, t.parse = .ok file := by
  rw [load_eq_malformed_iff, parseAll_eq_error_iff]
  constructor
  · rintro ⟨before, s, after, hsplit, hs, hbefore⟩
    have hmem : s ∈ sources := (sortBy_perm _ sources).mem_iff.mp (by
      rw [← inNameOrder, hsplit]
      exact List.mem_append_right _ List.mem_cons_self)
    refine ⟨s, hmem, hs, fun t ht hlt => hbefore t ?_⟩
    exact (mem_before_iff_of_sortBy nameOrder_iff hnames hsplit).mpr ⟨ht, hlt⟩
  · rintro ⟨s, hmem, hs, hfirst⟩
    obtain ⟨before, after, hsplit⟩ := List.append_of_mem ((sortBy_perm _ sources).mem_iff.mpr hmem)
    refine ⟨before, s, after, hsplit, hs, fun t ht => ?_⟩
    obtain ⟨hmem, hlt⟩ := (mem_before_iff_of_sortBy nameOrder_iff hnames hsplit).mp ht
    exact hfirst t hmem hlt

/-- Sources that disagree about their package can all be read. -/
theorem exists_parse_of_multiplePackages {first second : String} {l : Location}
    (h : load sources = .error (.multiplePackages first second l)) :
    ∀ s ∈ sources, ∃ file, s.parse = .ok file := by
  intro s hs
  obtain ⟨files, hfiles⟩ := exists_parseAll_of_multiplePackages h
  exact exists_parse_of_parseAll hfiles s ((sortBy_perm _ sources).mem_iff.mpr hs)

end Package

namespace Analysis

/-- **The order of the sources does not matter.** Sources with different names, in any order, have
the same analysis: the same application with the same digest, and the same diagnostics. If they do
not load then the fault is all that is found. It is a syntax error if some source has one, that of
the first such source by name, and sources are found to disagree about their package only if all of
them can be read. -/
theorem ofSources_eq_of_perm (c : Conventions) (plugins : List Plugin)
    {sources sources' : List Source} (hperm : sources.Perm sources')
    (hnames : (sources.map Source.name).Nodup) :
    ofSources c plugins sources = ofSources c plugins sources' ∧
      (∀ failure, Package.load sources = .error failure →
        (ofSources c plugins sources).app = none ∧
        (ofSources c plugins sources).diagnostics.entries =
          [⟨(failure.location?.getD .unknown).normalized, 0, .load failure.message⟩]) ∧
      (∀ e, Package.load sources = .error (.malformed e) ↔ ∃ s ∈ sources, s.parse = .error e ∧
        ∀ t ∈ sources, t.name < s.name → ∃ file, t.parse = .ok file) ∧
      ∀ first second l, Package.load sources = .error (.multiplePackages first second l) →
        ∀ s ∈ sources, ∃ file, s.parse = .ok file := by
  refine ⟨?_, fun failure h => ?_, fun e => Package.load_eq_malformed_iff_first hnames,
    fun first second l => Package.exists_parse_of_multiplePackages⟩
  · rw [ofSources, ofSources, Package.load_eq_of_perm hperm hnames]
  · rw [ofSources, h]
    exact ⟨rfl, rfl⟩

end Analysis

/-! ### Two faults -/

/-- Files of three packages, two of them without an end. -/
def unendedFiles : List (String × List String) :=
  [("b.go", ["package b", "type T"]),
    ("a.go", ["package a", "type S struct\x7b A"]),
    ("c.go", ["package c"])]

set_option maxRecDepth 100000 in
/-- Of two files that do not end as they should, the first one by name is reported. -/
private theorem Package.load_unendedFiles :
    load (sourcesOf unendedFiles) =
      .error (.malformed ⟨.expected "'\x7d'" "EOF", ⟨"a.go", 3, 1⟩⟩) := by
  -- packages have no decidable equality, so the error alone is compared
  have hfailure : (load (sourcesOf unendedFiles)).map (fun _ => ()) =
      .error (.malformed ⟨.expected "'\x7d'" "EOF", ⟨"a.go", 3, 1⟩⟩) := by
    rw [load_sourcesOf]
    decide +kernel
  cases hload : load (sourcesOf unendedFiles) with
  | error e =>
    rw [hload] at hfailure
    exact congrArg Except.error (Except.error.inj hfailure)
  | ok p =>
    rw [hload] at hfailure
    contradiction

/-- The fault of the first file by name is found, in whatever order the files come. -/
theorem Analysis.ofSources_eq_of_perm_unendedFiles :
    (sourcesOf unendedFiles).Perm (sourcesOf unendedFiles).reverse ∧
      ((sourcesOf unendedFiles).map Source.name).Nodup ∧
      (ofSources .standard [] (sourcesOf unendedFiles)).diagnostics.entries =
        [⟨⟨"a.go", 3, 1⟩, 0, .load "expected '\x7d', found EOF"⟩] ∧
      (ofSources .standard [] (sourcesOf unendedFiles).reverse).diagnostics.entries =
        [⟨⟨"a.go", 3, 1⟩, 0, .load "expected '\x7d', found EOF"⟩] := by
  have hperm : (sourcesOf unendedFiles).Perm (sourcesOf unendedFiles).reverse :=
    (List.reverse_perm _).symm
  have hnames : ((sourcesOf unendedFiles).map Source.name).Nodup := by
    simp [sourcesOf, unendedFiles]
  obtain ⟨hsame, hfailure, -⟩ := ofSources_eq_of_perm .standard [] hperm hnames
  obtain ⟨-, hentries⟩ := hfailure _ Package.load_unendedFiles
  have hfault : (ofSources .standard [] (sourcesOf unendedFiles)).diagnostics.entries =
      [⟨⟨"a.go", 3, 1⟩, 0, .load "expected '\x7d', found EOF"⟩] := by
    rw [hentries]
    decide
  exact ⟨hperm, hnames, hfault, hsame ▸ hfault⟩

end GoPages

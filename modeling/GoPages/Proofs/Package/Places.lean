import GoPages.Package.Declarations
import GoPages.Proofs.Package.Loading
import GoPages.Proofs.Parser.SourceFile
import GoPages.Proofs.Sorting
import Mathlib.Data.List.Pairwise
import Mathlib.Data.String.Basic

/-!
# Methods are known by their places

In a package that is loaded from sources with different names, the files stand in the order of their
names and every place has the name of its file (`Package.isPlaced_of_load`). So the places of a
method, which are those of its name, its parameters and its results, are places of no other method
(`Package.IsPlaced.methodDecl_eq`).
-/

namespace GoPages

/-- The places of the name, the parameters and the results of a method. -/
def MethodDecl.places (m : MethodDecl) : List Location := m.decl.places

namespace Package

variable {sources : List Source} {p : Package}

/-- The comparison that sorts sources is that of their names. -/
theorem nameOrder_iff (s t : Source) : !decide (t.name < s.name) ↔ s.name ≤ t.name := by
  rw [Bool.not_eq_true', decide_eq_false_iff_not, not_lt]

/-- The files stand in the order of their names, and their functions have places in them. -/
structure IsPlaced (p : Package) : Prop where
  names : (p.files.map SourceFile.name).Pairwise (· < ·)
  files : ∀ file ∈ p.files, file.IsPlaced

/-- Files that are read have the names of their sources, and their functions have places. -/
theorem isPlaced_of_parseAll {files : List SourceFile} (h : parseAll sources = .ok files) :
    files.map SourceFile.name = sources.map Source.name ∧ ∀ file ∈ files, file.IsPlaced := by
  have hread := parseAll_eq_ok_iff.mp h
  clear h
  induction hread with
  | nil => simp
  | cons hparse _ ih =>
    obtain ⟨hname, hplaced⟩ := SourceFile.isPlaced_of_parse hparse
    exact ⟨by rw [List.map_cons, List.map_cons, hname, ih.1],
      List.forall_mem_cons.mpr ⟨hplaced, ih.2⟩⟩

/-- The files have the names of the sources, in their order. -/
theorem map_name_files (h : load sources = .ok p) :
    p.files.map SourceFile.name = (inNameOrder sources).map Source.name :=
  (isPlaced_of_parseAll (parseAll_of_load h)).1

/-- Sources with different names give files with different names, each place with that of its file.
-/
theorem isPlaced_of_load (hnames : (sources.map Source.name).Nodup) (h : load sources = .ok p) :
    p.IsPlaced where
  names := by
    rw [map_name_files h, List.pairwise_map]
    exact pairwise_lt_sortBy nameOrder_iff hnames
  files := (isPlaced_of_parseAll (parseAll_of_load h)).2

namespace IsPlaced

variable {m n : MethodDecl} {l : Location} (h : p.IsPlaced)
include h

/-- The places of a method are in its file. -/
theorem inFile (hm : m ∈ p.methodDecls) (hl : l ∈ m.places) :
    m.file ∈ p.files ∧ l.file = m.file.name ∧ 0 < l.line := by
  obtain ⟨file, hfile, hm⟩ := List.mem_flatMap.mp hm
  obtain ⟨decl, hdecl, rfl⟩ := List.mem_map.mp hm
  exact ⟨hfile, (h.files file hfile).inFile decl hdecl l hl⟩

/-- **The places of a method are those of no other one.** -/
theorem methodDecl_eq (hm : m ∈ p.methodDecls) (hn : n ∈ p.methodDecls) (hlm : l ∈ m.places)
    (hln : l ∈ n.places) : m = n := by
  obtain ⟨-, hmfile, -⟩ := h.inFile hm hlm
  obtain ⟨-, hnfile, -⟩ := h.inFile hn hln
  obtain ⟨file, hfile, hm⟩ := List.mem_flatMap.mp hm
  obtain ⟨decl, hdecl, rfl⟩ := List.mem_map.mp hm
  obtain ⟨file', hfile', hn⟩ := List.mem_flatMap.mp hn
  obtain ⟨decl', hdecl', rfl⟩ := List.mem_map.mp hn
  have hnodup : (p.files.map SourceFile.name).Nodup := h.names.imp fun hlt => ne_of_lt hlt
  obtain rfl : file = file' :=
    List.inj_on_of_nodup_map hnodup hfile hfile' (hmfile.symm.trans hnfile)
  -- within a file every function comes before the next one
  have hapart : file.funcs.Pairwise fun d e => ∀ l ∈ d.places, l ∉ e.places :=
    (h.files file hfile).apart.imp fun hlt l hl hl' => (hlt l hl l hl').ne rfl
  have hsymm : Std.Symm fun d e : FuncDecl => ∀ l ∈ d.places, l ∉ e.places :=
    ⟨fun _ _ hne l hl hl' => hne l hl' hl⟩
  by_contra hne
  have hdne : decl ≠ decl' := fun heq => hne (by rw [heq])
  exact hapart.forall hdecl hdecl' hdne l hlm hln

end IsPlaced

/-- The place of a method is that of no other one, if all files have different names. -/
theorem methodDecl_eq_of_location (hnames : (sources.map Source.name).Nodup)
    (h : load sources = .ok p) {m n : MethodDecl} (hm : m ∈ p.methodDecls)
    (hn : n ∈ p.methodDecls) (hplace : m.decl.name.location = n.decl.name.location) : m = n :=
  (isPlaced_of_load hnames h).methodDecl_eq hm hn List.mem_cons_self
    (hplace ▸ List.mem_cons_self)

end Package

end GoPages

import GoPages.Analysis
import GoPages.Proofs.Diagnostic.Sink

/-!
# The findings of a package as diagnostics

The diagnostics of a package hold what is found in it, and nothing else
(`Analysis.holds_ofPackage`): every finding once, at its place with the base name of the file
(`Analysis.perm_map_entries`).
-/

namespace GoPages

namespace Analysis

variable {c : Conventions} {plugins : List Plugin} {p : Package}

/-- The diagnostics of a package hold what its passes find. -/
theorem holds_ofPackage (c : Conventions) (plugins : List Plugin) (p : Package) :
    (ofPackage c plugins p).diagnostics.Holds ((⟨p, c⟩ : Setting).findings plugins) :=
  (Diagnostics.holds_empty.pushAll _).finish

/-- The diagnostics of a package are its findings, at the places where they are shown. -/
theorem perm_map_entries (c : Conventions) (plugins : List Plugin) (p : Package) :
    ((ofPackage c plugins p).diagnostics.entries.map fun d => (d.location, d.error)).Perm
      (((⟨p, c⟩ : Setting).findings plugins).map fun f => (f.1.normalized, f.2)) :=
  (holds_ofPackage c plugins p).perm_map

/-- A package is clean exactly if its passes find nothing. -/
theorem isClean_ofPackage_iff :
    (ofPackage c plugins p).isClean ↔ (⟨p, c⟩ : Setting).findings plugins = [] := by
  have hlen := (perm_map_entries c plugins p).length_eq
  rw [List.length_map, List.length_map] at hlen
  rw [isClean, List.isEmpty_iff_length_eq_zero, hlen, List.length_eq_zero_iff]

/-- What is found becomes a diagnostic. -/
theorem exists_mem_entries {s : Setting} {f : Finding} (h : f ∈ s.findings plugins) :
    ∃ d ∈ (ofPackage s.conventions plugins s.package).diagnostics.entries,
      d.location = f.1.normalized ∧ d.error = f.2 := by
  have hmem := List.mem_map_of_mem (f := fun f : Finding => (f.1.normalized, f.2)) h
  obtain ⟨d, hd, heq⟩ := List.mem_map.mp ((perm_map_entries _ plugins _).mem_iff.mpr hmem)
  rw [Prod.mk.injEq] at heq
  exact ⟨d, hd, heq⟩

/-- Every diagnostic of a package is a finding in it. -/
theorem exists_mem_findings {d : Diagnostic}
    (hd : d ∈ (ofPackage c plugins p).diagnostics.entries) :
    ∃ f ∈ (⟨p, c⟩ : Setting).findings plugins, f.2 = d.error := by
  have hmem := List.mem_map_of_mem (f := fun d : Diagnostic => (d.location, d.error)) hd
  obtain ⟨f, hf, heq⟩ := List.mem_map.mp ((perm_map_entries c plugins p).mem_iff.mp hmem)
  exact ⟨f, hf, congrArg Prod.snd heq⟩

end Analysis

end GoPages

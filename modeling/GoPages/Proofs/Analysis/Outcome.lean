import GoPages.Proofs.Analysis.Passes
import GoPages.Proofs.Package.Loading

/-!
# When there is an application

There is no application if the sources cannot be loaded, and if no type has the name of the
application; nothing else takes it away. Each of the two has a code of its own, which is found once
then and never otherwise (`Analysis.outcome_ofSources`).

The codes are those of passes that have no other findings, and no other pass reports them
(`Analysis.perm_map_withCode`), so that only these passes have to be looked at.
-/

namespace GoPages

private theorem Package.typeDecl?_eq_none_iff {p : Package} {name : String} :
    p.typeDecl? name = none ↔ name ∉ p.typeDecls.map TypeDecl.name := by
  rw [typeDecl?, findDecl?, List.find?_eq_none]
  simp only [beq_iff_eq, List.mem_map, not_exists, not_and]

namespace Analysis

variable (c : Conventions) (plugins : List Plugin)

/-- Loading is over when a package is analysed. -/
theorem withCode_load_ofPackage (p : Package) :
    (ofPackage c plugins p).diagnostics.withCode "PA-E001" = [] := by
  have hperm := perm_map_withCode .loading rfl c plugins p
  exact List.map_eq_nil_iff.mp (List.perm_nil.mp hperm)

/-- The application is missing at the place of the package. -/
theorem exists_withCode_missingApp {p : Package} (h : p.typeDecl? c.appType = none) :
    ∃ d, (ofPackage c plugins p).diagnostics.withCode "PA-E601" = [d] ∧
      d.location = p.location.normalized := by
  have hperm := perm_map_withCode .application rfl c plugins p
  have hfound : (⟨p, c⟩ : Setting).appFindings = [(p.location, .missingApp c.appType)] := by
    rw [Setting.appFindings, h]
    rfl
  rw [Setting.findingsOf, hfound] at hperm
  obtain ⟨d, hd, heq⟩ := List.map_eq_singleton_iff.mp (List.perm_singleton.mp hperm)
  exact ⟨d, hd, congrArg Prod.fst heq⟩

/-- An application that is declared is not missing. -/
theorem withCode_missingApp_eq_nil {p : Package} (h : p.typeDecl? c.appType ≠ none) :
    (ofPackage c plugins p).diagnostics.withCode "PA-E601" = [] := by
  have hperm := perm_map_withCode .application rfl c plugins p
  have hfound : (⟨p, c⟩ : Setting).appFindings = [] :=
    if_pos (Option.isSome_iff_ne_none.mpr h)
  rw [Setting.findingsOf, hfound] at hperm
  exact List.map_eq_nil_iff.mp (List.perm_nil.mp hperm)

/-- There is no application exactly if no type has its name. -/
private theorem app_ofPackage_eq_none_iff {p : Package} :
    (ofPackage c plugins p).app = none ↔ p.typeDecl? c.appType = none :=
  Option.map_eq_none_iff

/-- **There is an application unless the sources do not load or do not declare one.** Sources that
do not load have one finding, at the place of what is wrong if it has one. If no type has the name
of the application then this is found once, at the package name of the first file. Otherwise there
is an application, and neither is found. Places are shown with the base names of their files. -/
theorem outcome_ofSources (sources : List Source) :
    (∃ e, Package.load sources = .error e ∧ (ofSources c plugins sources).app = none ∧
      ∃ d, (ofSources c plugins sources).diagnostics.entries = [d] ∧ d.error.code = "PA-E001" ∧
        d.error = .load e.message ∧ d.location = (e.location?.getD .unknown).normalized) ∨
    (∃ p, Package.load sources = .ok p ∧ c.appType ∉ p.typeDecls.map TypeDecl.name ∧
      (ofSources c plugins sources).app = none ∧
      (ofSources c plugins sources).diagnostics.withCode "PA-E001" = [] ∧
      ∃ d, (ofSources c plugins sources).diagnostics.withCode "PA-E601" = [d] ∧
        ∃ s rest file, Package.inNameOrder sources = s :: rest ∧ s.parse = .ok file ∧
          d.location = file.package.location.normalized) ∨
    (∃ p, Package.load sources = .ok p ∧ c.appType ∈ p.typeDecls.map TypeDecl.name ∧
      (∃ app, (ofSources c plugins sources).app = some app) ∧
      (ofSources c plugins sources).diagnostics.withCode "PA-E001" = [] ∧
      (ofSources c plugins sources).diagnostics.withCode "PA-E601" = []) := by
  rw [ofSources]
  cases hload : Package.load sources with
  | error e =>
    refine .inl ⟨e, rfl, rfl, _, rfl, ?_, rfl, rfl⟩
    exact (AnalysisError.code_eq_iff .loading rfl _).mpr rfl
  | ok p =>
    have hload' := withCode_load_ofPackage c plugins p
    by_cases hdecl : p.typeDecl? c.appType = none
    · obtain ⟨d, hd, hplace⟩ := exists_withCode_missingApp c plugins hdecl
      obtain ⟨s, rest, file, hsorted, hfile, hfirst⟩ := Package.exists_first_of_load hload
      rw [hfirst] at hplace
      exact .inr (.inl ⟨p, rfl, Package.typeDecl?_eq_none_iff.mp hdecl,
        (app_ofPackage_eq_none_iff c plugins).mpr hdecl, hload', d, hd, s, rest, file, hsorted,
        hfile, hplace⟩)
    · have happ : ∃ app, (ofPackage c plugins p).app = some app :=
        Option.ne_none_iff_exists'.mp fun hnone =>
          hdecl ((app_ofPackage_eq_none_iff c plugins).mp hnone)
      have hmem := not_not.mp fun hnot => hdecl (Package.typeDecl?_eq_none_iff.mpr hnot)
      exact .inr (.inr ⟨p, rfl, hmem, happ, hload', withCode_missingApp_eq_nil c plugins hdecl⟩)

end Analysis

end GoPages

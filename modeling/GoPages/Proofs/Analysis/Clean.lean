import GoPages.Proofs.Analysis.Findings
import GoPages.Proofs.Package.Lines
import GoPages.Proofs.Package.Tables

/-!
# Analyses without findings

An analysis is clean if no part of it finds anything. `Setting.IsClean` collects what the parts say
then, one field for each: the package has no problems, no declared type and no method has findings
in its role, the checks across declarations find nothing, and every page has a GET.

* `Analysis.exists_setting`: a clean analysis is that of a package that loads and has a clean
  setting.
* `Owner.parts_eq_nil_of_methodFindings`: the parts of the findings about a method that handles
  requests.
* `Check.referenceFindings_eq_nil` and `Check.exists_compared`: what it means for a handler that
  checks find nothing. Its references are in order. Its route may not have been compared, but then
  one with the same place and route has been.
-/

namespace GoPages

/-! ### Methods -/

/-- If nothing is found on the way, then nothing is found about any method at its turn. -/
private theorem Owner.exists_methodFindings_eq_nil {s : Setting} {plugins : List Plugin} {o : Owner}
    {hs : OwnHandlers} {ms : List Method} (h : findingsAfter s plugins o hs ms = []) :
    ∀ m ∈ ms, ∃ before, o.methodFindings s before m = [] := by
  intro m hm
  obtain ⟨before, after, rfl⟩ := List.append_of_mem hm
  refine ⟨before.foldl (o.attach s plugins) hs, List.eq_nil_iff_forall_not_mem.mpr fun f hf => ?_⟩
  have hmem := mem_findingsAfter_iff.mpr ⟨before, m, after, rfl, hf⟩
  rw [h] at hmem
  cases hmem

/-- A method that handles requests is judged by its parameters, its results and its route. -/
theorem Owner.parts_eq_nil_of_methodFindings {s : Setting} {o : Owner} {before : OwnHandlers}
    {m : Method} {method : HttpMethod} {suffix : String}
    (hreq : s.request? m.name = some (method, suffix)) (h : o.methodFindings s before m = []) :
    HandlerInputs.findings s m = [] ∧
      HandlerOutputs.findings s m method (HandlerInputs.read s m).sse = [] ∧
      o.routeFindings m method = [] := by
  obtain ⟨-, hrequest⟩ := List.append_eq_nil_iff.mp h
  rw [hreq] at hrequest
  obtain ⟨hsignature, hroute⟩ := List.append_eq_nil_iff.mp hrequest
  obtain ⟨hinputs, houtputs⟩ := List.append_eq_nil_iff.mp hsignature
  exact ⟨hinputs, houtputs, hroute⟩

/-- A page or an abstract page with a method is gone through. -/
theorem Setting.mem_owners {s : Setting} {o : Owner} {m : Method} (h : s.declares o)
    (hm : m ∈ s.methodsOf o.typeName) : o ∈ s.owners := by
  obtain ⟨decl, hdecl, -⟩ := List.mem_map.mp hm
  obtain ⟨hmem, hname⟩ := List.mem_filter.mp hdecl
  refine List.mem_filterMap.mpr ⟨o.typeName, List.mem_filter.mpr ⟨?_, ?_⟩, s.owner?_typeName h⟩
  · exact List.mem_eraseDups.mpr (List.mem_filterMap.mpr ⟨decl, hmem, by simpa using hname⟩)
  · simpa using s.typeName_ne_appType h

/-! ### Checks across declarations -/

namespace Check

variable {s : Setting} {invalidPaths : List Location}

/-- Checks that find nothing find no reference without a meaning. -/
theorem referenceFindings_eq_nil {seen : List (Location × String)} {checks : List Check}
    (h : findings s invalidPaths seen checks = []) {receiver : String} {a : Handler}
    (ha : references receiver a ∈ checks) : a.referenceFindings s receiver = [] := by
  fun_induction findings s invalidPaths seen checks with
  | case1 => simp at ha
  | case2 seen r b rest ih =>
    obtain ⟨hb, hrest⟩ := List.append_eq_nil_iff.mp h
    rcases List.mem_cons.mp ha with heq | ha
    · cases heq
      exact hb
    · exact ih hrest ha
  | case3 seen r b rest _ ih =>
    exact ih (List.append_eq_nil_iff.mp h).2 (by simpa using ha)
  | case4 seen r b rest _ ih => exact ih h (by simpa using ha)

/-- Checks that find nothing have compared every route that can be compared, if not for this
handler, then for one at the same place with the same route. -/
theorem exists_compared {seen : List (Location × String)} {checks : List Check}
    (h : findings s invalidPaths seen checks = []) {receiver : String} {a : Handler}
    (ha : route receiver a ∈ checks) (hcomparable : comparable invalidPaths a) :
    key a ∈ seen ∨ ∃ r b, route r b ∈ checks ∧ key b = key a ∧ b.routeVarFindings r = [] := by
  fun_induction findings s invalidPaths seen checks with
  | case1 => simp at ha
  | case2 seen r b rest ih =>
    obtain ⟨-, hrest⟩ := List.append_eq_nil_iff.mp h
    rcases ih hrest (by simpa using ha) with hseen | ⟨r, c, hc, hkey, hnone⟩
    · exact .inl hseen
    · exact .inr ⟨r, c, List.mem_cons_of_mem _ hc, hkey, hnone⟩
  | case3 seen r b rest hcond ih =>
    obtain ⟨hb, hrest⟩ := List.append_eq_nil_iff.mp h
    rcases List.mem_cons.mp ha with heq | ha
    · cases heq
      exact .inr ⟨_, _, List.mem_cons_self, rfl, hb⟩
    · rcases ih hrest ha with hseen | ⟨r, c, hc, hkey, hnone⟩
      · rcases List.mem_cons.mp hseen with hkey | hseen
        · exact .inr ⟨_, _, List.mem_cons_self, hkey.symm, hb⟩
        · exact .inl hseen
      · exact .inr ⟨r, c, List.mem_cons_of_mem _ hc, hkey, hnone⟩
  | case4 seen r b rest hcond ih =>
    rcases List.mem_cons.mp ha with heq | ha
    · -- the check is left out, which must be since its key has been seen
      cases heq
      exact .inl (by simpa [hcomparable] using hcond)
    · rcases ih h ha with hseen | ⟨r, c, hc, hkey, hnone⟩
      · exact .inl hseen
      · exact .inr ⟨r, c, List.mem_cons_of_mem _ hc, hkey, hnone⟩

end Check

/-! ### All parts -/

namespace Setting

/-- The checks of an application across its declarations. -/
def checks (s : Setting) (plugins : List Plugin) : List Check :=
  ((s.inheritedPages plugins).map Prod.fst).flatMap Check.ofPage ++
    (s.attachedAbstractPages plugins).flatMap Check.ofAbstractPage

/-- No part of the analysis finds anything. -/
structure IsClean (s : Setting) (plugins : List Plugin) : Prop where
  package : s.package.check = []
  types : ∀ d ∈ s.package.types, s.roleOfTypeFindings d = []
  methods : ∀ o, s.declares o → ∀ m ∈ s.methodsOf o.typeName,
    ∃ before, o.methodFindings s before m = []
  checks : Check.findings s (s.owners.flatMap fun o => s.invalidPaths o.typeName) []
    (s.checks plugins) = []
  gets : ∀ p ∈ (s.inheritedPages plugins).map Prod.fst, p.get.isSome

private theorem isClean_of_findings {s : Setting} {plugins : List Plugin}
    (h : s.findings plugins = []) : s.IsClean plugins := by
  simp only [findings, List.append_eq_nil_iff] at h
  obtain ⟨⟨⟨⟨houtline, hmethods⟩, -⟩, hchecks⟩, hmissing⟩ := h
  simp only [outlineFindings, List.append_eq_nil_iff] at houtline
  obtain ⟨⟨⟨⟨⟨htypes, -⟩, hroles⟩, -⟩, -⟩, -⟩ := houtline
  refine ⟨List.map_eq_nil_iff.mp htypes, List.flatMap_eq_nil_iff.mp hroles,
    fun o ho m hm => ?_, hchecks, fun p hp => ?_⟩
  · exact Owner.exists_methodFindings_eq_nil
      (List.flatMap_eq_nil_iff.mp hmethods o (mem_owners ho hm)) m hm
  · have hnone := List.map_eq_nil_iff.mp (List.append_eq_nil_iff.mp hmissing).1
    have := List.filter_eq_nil_iff.mp hnone p hp
    simpa [← Option.isSome_iff_ne_none] using this

end Setting

/-! ### Applications -/

namespace Setting

variable {s : Setting} {plugins : List Plugin} {app : App}

/-- The pages of an application, with all that they inherit. -/
theorem pages_of_app? (h : s.app? plugins = some app) :
    app.pages = (s.inheritedPages plugins).map Prod.fst := by
  obtain ⟨d, -, rfl⟩ := Option.map_eq_some_iff.mp h
  rfl

/-- The abstract pages of an application, with their own handlers. -/
theorem abstractPages_of_app? (h : s.app? plugins = some app) :
    app.abstractPages = s.attachedAbstractPages plugins := by
  obtain ⟨d, -, rfl⟩ := Option.map_eq_some_iff.mp h
  rfl

/-- The events of an application are those of its outline. -/
theorem events_of_app? (h : s.app? plugins = some app) : app.events = s.events := by
  obtain ⟨d, -, rfl⟩ := Option.map_eq_some_iff.mp h
  rfl

/-- The session of an application is that of its outline. -/
theorem session_of_app? (h : s.app? plugins = some app) : app.session = s.session? := by
  obtain ⟨d, -, rfl⟩ := Option.map_eq_some_iff.mp h
  rfl

/-- The hooks of an application are those of its setting. -/
theorem hooks_of_app? (h : s.app? plugins = some app) :
    app.head = s.headHook? ∧ app.recover500 = s.recoverHook? := by
  obtain ⟨d, -, rfl⟩ := Option.map_eq_some_iff.mp h
  exact ⟨rfl, rfl⟩

end Setting

/-- An application is that of a package that loads. -/
theorem Analysis.exists_package {c : Conventions} {plugins : List Plugin} {sources : List Source}
    {app : App} (happ : (ofSources c plugins sources).app = some app) :
    ∃ p, Package.load sources = .ok p ∧ ofSources c plugins sources = ofPackage c plugins p ∧
      (⟨p, c⟩ : Setting).app? plugins = some app := by
  rw [ofSources] at happ ⊢
  cases hload : Package.load sources with
  | error e =>
    rw [hload] at happ
    cases happ
  | ok p =>
    rw [hload] at happ
    exact ⟨p, rfl, rfl, happ⟩

/-- A clean analysis with an application is that of a package that loads, in a clean setting. -/
theorem Analysis.exists_setting {c : Conventions} {plugins : List Plugin} {sources : List Source}
    {app : App} (happ : (ofSources c plugins sources).app = some app)
    (hclean : (ofSources c plugins sources).isClean) :
    ∃ s : Setting, s.conventions = c ∧ Package.load sources = .ok s.package ∧
      s.app? plugins = some app ∧ s.IsClean plugins := by
  obtain ⟨p, hload, heq, happ⟩ := exists_package happ
  rw [heq] at hclean
  exact ⟨⟨p, c⟩, rfl, hload, happ, Setting.isClean_of_findings (isClean_ofPackage_iff.mp hclean)⟩

/-! ### A clean analysis -/

/-- An application whose pages inherit an action under a route of its own. -/
def sharedSave : List (String × List String) :=
  [("app.go",
    ["package app",
     "import \"net/http\"",
     "import \"github.com/a-h/templ\"",
     "type App struct\x7b\x7d",
     "type Base struct\x7b App *App \x7d",
     "// POSTSave is /save",
     "func (Base) POSTSave(*http.Request) error \x7b\x7d",
     "func (Base) GET(*http.Request) (body templ.Component) \x7b\x7d",
     "// PageIndex is /",
     "type PageIndex struct\x7b App *App; Base \x7d",
     "// PageItem is /item",
     "type PageItem struct\x7b App *App; Base \x7d"])]

set_option maxRecDepth 100000 in
/-- Nothing is found in the application, although the page of items has an action that is not under
its route. -/
theorem exists_app_sharedSave :
    ∃ app, (Analysis.ofSources .standard [] (sourcesOf sharedSave)).app = some app ∧
      (Analysis.ofSources .standard [] (sourcesOf sharedSave)).isClean ∧
      ∃ p ∈ app.pages, ∃ h ∈ p.actions, Route.isUnder h.route.toList p.route.toList = false := by
  -- the analysis is evaluated once for all that is said about it
  have hall : ((Analysis.ofSources .standard [] (sourcesOf sharedSave)).isClean &&
      (Analysis.ofSources .standard [] (sourcesOf sharedSave)).app.any fun app =>
        app.pages.any fun p => p.actions.any fun h =>
          !Route.isUnder h.route.toList p.route.toList) = true := by
    rw [Analysis.ofSources, Package.load_sourcesOf]
    decide +kernel
  rw [Bool.and_eq_true, Option.any_eq_true] at hall
  obtain ⟨hclean, app, happ, hstray⟩ := hall
  simp only [List.any_eq_true, Bool.not_eq_true'] at hstray
  exact ⟨app, happ, hclean, hstray⟩

end GoPages

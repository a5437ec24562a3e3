import GoPages.Proofs.Analysis.Helpers
import GoPages.Proofs.Analysis.Passes
import GoPages.Proofs.Analysis.RouteVars

/-!
# What is found about route variables and path fields

Handlers are copied into the pages that inherit them, and their routes are compared with their path
fields page by page. Nothing of this shows in the result: it is settled by the places and the routes
of the handlers, each pair of them once (`Analysis.reportsUnmatched`).

* `Check.perm_filter_findings`: a run of checks finds the same as one check for each pair.
* `Handler.routeVarFindings_eq`: a handler is compared as the method at its place, whichever page
  has it, and reported under the type of the method.
-/

namespace GoPages

/-! ### What is to be found -/

namespace Method

variable (s : Setting) (m : Method) (route : String)

/-- The names that the fields of the path parameter have in their tags, also the empty one. -/
def pathTags : List String :=
  ((HandlerInputs.read s m).path.toList.flatMap Slot.fields).filterMap fun f =>
    StructTag.name f.tag "path"

/-- The path parameter has passed the check of its shape, or there is none. -/
def PathIsInOrder : Prop :=
  ∀ a, HandlerInputs.assign? s (m.params s.package) = some a →
    ∀ p ∈ a.param? (.struct .path), StructInput.path.error? s.package m p = none

/-- What is to be found about path fields with names that are no variables of the route. -/
def fieldsNotInRoute : List Finding :=
  ((m.pathTags s).filter fun name =>
    name != "" && !((Route.vars route.toList).map String.ofList).contains name).map fun name =>
      (m.location, .pathFieldNotInRoute m.receiver m.name name)

/-- What is to be found about variables of the route that no path field has as its name. -/
def varsWithoutField : List Finding :=
  (((Route.vars route.toList).map String.ofList).filter fun name =>
    !(m.pathTags s).contains name).map fun name =>
      (m.location, .pathMissingRouteVar m.receiver m.name name)

/-- A path parameter is passed over exactly if something is wrong about it. -/
private theorem pathIsInvalid_eq_false_iff :
    HandlerInputs.pathIsInvalid s m = false ↔ m.PathIsInOrder s := by
  rw [HandlerInputs.pathIsInvalid, PathIsInOrder]
  cases HandlerInputs.assign? s (m.params s.package) with
  | none => simp
  | some a =>
    cases hparam : a.param? (.struct .path) with
    | none => simp [hparam]
    | some p => simp [hparam]

end Method

/-- All methods of the package. -/
def Setting.allMethods (s : Setting) : List Method :=
  s.package.methodDecls.filterMap fun decl => decl.receiverName.map (Method.mk · decl)

/-- The method at a place. -/
def Setting.methodAt? (s : Setting) (l : Location) : Option Method :=
  s.allMethods.find? fun m => m.location = l

/-- The place and the route are those of a GET or an action of one of the pages, the route is
well-formed, and the path parameter is in order. -/
def Setting.Compares (s : Setting) (pages : List Page) (k : Location × String) : Prop :=
  (∃ p ∈ pages, ∃ h ∈ p.requestHandlers, (h.location, h.route) = k) ∧
    Route.wellFormed k.2.toList ∧ ∀ m ∈ s.methodAt? k.1, m.PathIsInOrder s

/-- The keys are those of the handlers of pages that are compared, each of them once. -/
structure Setting.Lists (s : Setting) (pages : List Page) (keys : List (Location × String)) :
    Prop where
  nodup : keys.Nodup
  mem_iff : ∀ k, k ∈ keys ↔ s.Compares pages k

/-! ### A run of checks -/

namespace Check

variable {s : Setting} {invalidPaths : List Location}

/-- The key is that of a check that can be made. -/
def HasKey (invalidPaths : List Location) (checks : List Check) (k : Location × String) : Prop :=
  ∃ receiver h, route receiver h ∈ checks ∧ comparable invalidPaths h ∧ key h = k

/-- A check of references compares no route. -/
private theorem hasKey_cons_references {receiver : String} {h : Handler} {rest : List Check}
    {k : Location × String} :
    HasKey invalidPaths (references receiver h :: rest) k ↔ HasKey invalidPaths rest k := by
  simp [HasKey]

/-- A route that is comparable is compared under its key. -/
private theorem hasKey_cons_route {receiver : String} {h : Handler} {rest : List Check}
    {k : Location × String} :
    HasKey invalidPaths (route receiver h :: rest) k ↔
      (comparable invalidPaths h ∧ key h = k) ∨ HasKey invalidPaths rest k := by
  constructor
  · rintro ⟨r, a, ha, hcomparable, hkey⟩
    rcases List.mem_cons.mp ha with heq | ha
    · cases heq
      exact .inl ⟨hcomparable, hkey⟩
    · exact .inr ⟨r, a, ha, hcomparable, hkey⟩
  · rintro (⟨hcomparable, hkey⟩ | ⟨r, a, ha, hcomparable, hkey⟩)
    · exact ⟨receiver, h, List.mem_cons_self, hcomparable, hkey⟩
    · exact ⟨r, a, List.mem_cons_of_mem _ ha, hcomparable, hkey⟩

/-- **A run of checks** finds of one kind what is to be found for the keys of checks that can be
made, each of them once, if this depends on the keys alone. -/
theorem perm_filter_findings {q : Finding → Bool} {found : Location × String → List Finding}
    (hreferences : ∀ receiver (h : Handler), (h.referenceFindings s receiver).filter q = [])
    {seen : List (Location × String)} {checks : List Check}
    (hroute : ∀ receiver h, route receiver h ∈ checks → comparable invalidPaths h →
      (h.routeVarFindings receiver).filter q = found (key h))
    {keys : List (Location × String)} (hnodup : keys.Nodup)
    (hkeys : ∀ k, k ∈ keys ↔ k ∉ seen ∧ HasKey invalidPaths checks k) :
    ((findings s invalidPaths seen checks).filter q).Perm (keys.flatMap found) := by
  fun_induction findings s invalidPaths seen checks generalizing keys with
  | case1 seen =>
    have hnil : keys = [] := List.eq_nil_iff_forall_not_mem.mpr fun k hk => by
      obtain ⟨-, r, h, hmem, -⟩ := (hkeys k).mp hk
      cases hmem
    rw [hnil]
    rfl
  | case2 seen receiver h rest ih =>
    rw [List.filter_append, hreferences, List.nil_append]
    refine ih (fun r a ha => hroute r a (List.mem_cons_of_mem _ ha)) hnodup fun k => ?_
    rw [hkeys, hasKey_cons_references]
  | case3 seen receiver h rest hcond ih =>
    obtain ⟨hcomparable, hseen⟩ := (Bool.and_eq_true _ _).mp hcond
    rw [Bool.not_eq_true', List.contains_eq_mem, decide_eq_false_iff_not] at hseen
    have hmem : key h ∈ keys :=
      (hkeys _).mpr ⟨hseen, hasKey_cons_route.mpr (.inl ⟨hcomparable, rfl⟩)⟩
    have hrest := ih (fun r a ha => hroute r a (List.mem_cons_of_mem _ ha))
      (hnodup.erase (key h)) fun k => by
        rw [hnodup.mem_erase_iff, hkeys, hasKey_cons_route, List.mem_cons, not_or]
        constructor
        · rintro ⟨hne, hnot, ⟨-, heq⟩ | hkey⟩
          · exact absurd heq.symm hne
          · exact ⟨⟨hne, hnot⟩, hkey⟩
        · rintro ⟨⟨hne, hnot⟩, hkey⟩
          exact ⟨hne, hnot, .inr hkey⟩
    rw [List.filter_append, hroute receiver h List.mem_cons_self hcomparable]
    have hsplit : (found (key h) ++ (keys.erase (key h)).flatMap found).Perm (keys.flatMap found) :=
      ((List.perm_cons_erase hmem).flatMap_right found).symm
    exact (hrest.append_left _).trans hsplit
  | case4 seen receiver h rest hcond ih =>
    refine ih (fun r a ha => hroute r a (List.mem_cons_of_mem _ ha)) hnodup fun k => ?_
    rw [hkeys, hasKey_cons_route]
    refine and_congr_right fun hnot => or_iff_right ?_
    -- the check is left out: it cannot be made, or its key has been seen
    rintro ⟨hcomparable, rfl⟩
    exact hcond (by simp [hcomparable, hnot])

end Check

/-! ### Codes -/

namespace AnalysisError

private theorem code_eq_fieldNotInRoute_iff (e : AnalysisError) :
    e.code = "PA-E401" ↔ e.number = 401 := by
  have hcode : (pathFieldNotInRoute "" "" "").code = "PA-E401" := by
    rw [code, number]
    decide
  rw [← hcode, code_eq_code_iff]
  rfl

private theorem code_eq_missingRouteVar_iff (e : AnalysisError) :
    e.code = "PA-E402" ↔ e.number = 402 := by
  have hcode : (pathMissingRouteVar "" "" "").code = "PA-E402" := by
    rw [code, number]
    decide
  rw [← hcode, code_eq_code_iff]
  rfl

/-- Findings with these numbers come from the checks across declarations. -/
private theorem pass_of_number {e : AnalysisError} (h : e.number = 401 ∨ e.number = 402) :
    e.pass = .references := by
  cases e <;> simp_all [number, pass]

end AnalysisError

/-- The references of a handler give findings with other numbers. -/
private theorem Handler.number_of_mem_referenceFindings {s : Setting} {h : Handler}
    {receiver : String} {f : Finding} (hf : f ∈ h.referenceFindings s receiver) :
    f.2.number = 403 ∨ f.2.number = 404 := by
  rw [referenceFindings, dispatchFindings, reflectFindings, List.mem_append] at hf
  rcases hf with hf | hf
  · split at hf
    · cases hf
    · obtain ⟨name, -, rfl⟩ := List.mem_map.mp hf
      exact .inl rfl
  · split at hf
    · cases hf
    · obtain ⟨name, -, rfl⟩ := List.mem_map.mp hf
      exact .inr rfl

/-! ### Handlers that are compared -/

namespace Setting

variable {s : Setting} {plugins : List Plugin}

/-- A method is listed under its receiver. -/
private theorem mem_allMethods_iff {m : Method} :
    m ∈ s.allMethods ↔ m ∈ s.methodsOf m.receiver := by
  rw [allMethods, methodsOf, List.mem_filterMap, List.mem_map]
  constructor
  · rintro ⟨decl, hdecl, hsome⟩
    obtain ⟨receiver, hreceiver, rfl⟩ := Option.map_eq_some_iff.mp hsome
    exact ⟨decl, List.mem_filter.mpr ⟨hdecl, beq_iff_eq.mpr hreceiver⟩, rfl⟩
  · rintro ⟨decl, hdecl, heq⟩
    obtain ⟨hmem, hreceiver⟩ := List.mem_filter.mp hdecl
    exact ⟨decl, hmem, by rw [beq_iff_eq.mp hreceiver, Option.map_some, heq]⟩

section Places

variable {sources : List Source} (hnames : (sources.map Source.name).Nodup)
  (hload : Package.load sources = .ok s.package)
include hnames hload

/-- A method is found at its place, since no other one has it. -/
private theorem methodAt?_location {m : Method} (hm : m ∈ s.methodsOf m.receiver) :
    s.methodAt? m.location = some m := by
  have hsome : (s.methodAt? m.location).isSome :=
    List.find?_isSome.mpr ⟨m, mem_allMethods_iff.mpr hm, decide_eq_true rfl⟩
  obtain ⟨n, hn⟩ := Option.isSome_iff_exists.mp hsome
  have hmem := mem_allMethods_iff.mp (List.mem_of_find?_eq_some hn)
  have hplace : n.location = m.location := by simpa using List.find?_some hn
  rw [hn, eq_of_location hnames hload hm hmem hplace]

/-- The path parameter of a handler is known to be wrong exactly if it is not in order. -/
theorem mem_invalidPaths_iff {m : Method} {p : Page} {h : Handler} (hread : s.ReadsFrom m p h) :
    h.location ∈ s.owners.flatMap (fun o => s.invalidPaths o.typeName) ↔ ¬ m.PathIsInOrder s := by
  rw [mem_flatMap_invalidPaths_iff, ← Method.pathIsInvalid_eq_false_iff, Bool.not_eq_false,
    hread.location]
  constructor
  · rintro ⟨o, -, hl⟩
    obtain ⟨n, hn, hplace⟩ := List.mem_map.mp hl
    obtain ⟨hmem, hinvalid⟩ := List.mem_filter.mp hn
    have hn' : n ∈ s.methodsOf n.receiver := by
      obtain ⟨decl, -, rfl⟩ := List.mem_map.mp hmem
      exact hmem
    rw [eq_of_location hnames hload hread.mem hn' hplace] at hinvalid
    exact ((Bool.and_eq_true _ _).mp hinvalid).2
  · intro hinvalid
    obtain ⟨o, ho, hname⟩ := hread.declares
    refine ⟨o, ho, List.mem_map_of_mem (List.mem_filter.mpr ⟨hname ▸ hread.mem, ?_⟩)⟩
    exact (Bool.and_eq_true _ _).mpr ⟨hread.request, hinvalid⟩

/-- A handler is compared exactly if its key is one that pages with the handler have. -/
theorem comparable_iff {m : Method} {p : Page} {h : Handler} (hread : s.ReadsFrom m p h) :
    Check.comparable (s.owners.flatMap fun o => s.invalidPaths o.typeName) h ↔
      Route.wellFormed h.route.toList ∧ ∀ n ∈ s.methodAt? h.location, n.PathIsInOrder s := by
  have hinvalid := (mem_invalidPaths_iff hnames hload hread).not
  rw [not_not] at hinvalid
  rw [Check.comparable, Bool.and_eq_true, Bool.not_eq_true', List.contains_eq_mem,
    decide_eq_false_iff_not, hinvalid, hread.location,
    methodAt?_location hnames hload hread.mem]
  simp

variable {plugins : List Plugin} {pages : List Page}
  (hpages : ∀ p ∈ pages, p ∈ (s.inheritedPages plugins).map Prod.fst)
include hpages

/-- The keys of checks that can be made are those of handlers that are compared. -/
theorem hasKey_iff {abstractPages : List AbstractPage} {k : Location × String} :
    Check.HasKey (s.owners.flatMap fun o => s.invalidPaths o.typeName)
      (pages.flatMap Check.ofPage ++ abstractPages.flatMap Check.ofAbstractPage) k ↔
        s.Compares pages k := by
  constructor
  · rintro ⟨r, h, hmem, hcomparable, rfl⟩
    obtain ⟨p, hp, hh, rfl⟩ := Check.route_mem_iff.mp hmem
    obtain ⟨m, hread⟩ := exists_method_of_request (hpages p hp) hh
    exact ⟨⟨p, hp, h, hh, rfl⟩, (comparable_iff hnames hload hread).mp hcomparable⟩
  · rintro ⟨⟨p, hp, h, hh, rfl⟩, hcompares⟩
    obtain ⟨m, hread⟩ := exists_method_of_request (hpages p hp) hh
    exact ⟨_, h, Check.route_mem_iff.mpr ⟨p, hp, hh, rfl⟩,
      (comparable_iff hnames hload hread).mpr hcompares, rfl⟩

/-- The findings with a code that no reference has are what is to be found for the keys of
handlers. -/
theorem perm_filter_crossFindings {code : String} {n : ℕ}
    (hcode : ∀ e : AnalysisError, e.code = code ↔ e.number = n) (hn : n ≠ 403 ∧ n ≠ 404)
    {found : Method → String → List Finding}
    (hroute : ∀ m p h, s.ReadsFrom m p h →
      ((h.routeVarFindings m.receiver).filter fun f => f.2.code = code) = found m h.route)
    (abstractPages : List AbstractPage) {keys : List (Location × String)}
    (hkeys : s.Lists pages keys) :
    ((s.crossFindings pages abstractPages).filter fun f => f.2.code = code).Perm
      (keys.flatMap fun k => (s.methodAt? k.1).toList.flatMap fun m => found m k.2) := by
  -- what is found about references has other codes, so only the checks of routes are left
  have hreferences (receiver : String) (h : Handler) :
      ((h.referenceFindings s receiver).filter fun f => f.2.code = code) = [] := by
    refine List.filter_eq_nil_iff.mpr fun f hf => ?_
    have hnumber := Handler.number_of_mem_referenceFindings hf
    rw [decide_eq_true_iff, hcode]
    omega
  refine Check.perm_filter_findings hreferences (fun r h hmem _ => ?_) hkeys.nodup fun k => ?_
  · obtain ⟨p, hp, hh, rfl⟩ := Check.route_mem_iff.mp hmem
    obtain ⟨m, hread⟩ := exists_method_of_request (hpages p hp) hh
    rw [hread.receiver, hroute m p h hread, Check.key, hread.location,
      methodAt?_location hnames hload hread.mem, Option.toList_some, List.flatMap_singleton]
  · rw [hkeys.mem_iff, hasKey_iff hnames hload hpages]
    simp

end Places

end Setting

/-! ### What is found about a handler -/

/-- A variable of a route has a name. -/
theorem Route.ne_nil_of_mem_vars {route name : List Char} (h : name ∈ vars route) : name ≠ [] := by
  obtain ⟨inner, -, hname⟩ := List.mem_filterMap.mp h
  rintro rfl
  simp [varName?] at hname

namespace Handler

variable {s : Setting} {m : Method} {p : Page} {h : Handler}

private theorem pathTags_of_readsFrom (hread : s.ReadsFrom m p h) : h.pathTags = m.pathTags s := by
  rw [pathTags, hread.inputs, Method.pathTags]

/-- A handler is compared as the method that it is read from. -/
theorem routeVarFindings_eq (hread : s.ReadsFrom m p h) :
    h.routeVarFindings m.receiver =
      m.fieldsNotInRoute s h.route ++ m.varsWithoutField s h.route := by
  have hvars : ∀ name ∈ h.routeVars,
      (!(h.pathTags.filter (· != "")).contains name) = !h.pathTags.contains name := by
    intro name hname
    obtain ⟨cs, hcs, rfl⟩ := List.mem_map.mp hname
    have hne : String.ofList cs ≠ "" := by simpa using Route.ne_nil_of_mem_vars hcs
    simp [hne]
  rw [routeVarFindings, pathNames_eq, List.filter_filter, List.filter_congr hvars,
    pathTags_of_readsFrom hread, hread.location, hread.methodName]
  simp only [Bool.and_comm]
  rfl

/-- The path fields without a variable are told from the method. -/
private theorem filter_routeVarFindings_field (hread : s.ReadsFrom m p h) :
    ((h.routeVarFindings m.receiver).filter fun f => f.2.code = "PA-E401") =
      m.fieldsNotInRoute s h.route := by
  simp only [AnalysisError.code_eq_fieldNotInRoute_iff]
  have hfields : ∀ f ∈ m.fieldsNotInRoute s h.route, f.2.number = 401 :=
    List.forall_mem_map.mpr fun _ _ => rfl
  have hvars : ∀ f ∈ m.varsWithoutField s h.route, f.2.number ≠ 401 :=
    List.forall_mem_map.mpr fun _ _ => by simp [AnalysisError.number]
  rw [routeVarFindings_eq hread, List.filter_append,
    List.filter_eq_self.mpr (by simpa using hfields),
    List.filter_eq_nil_iff.mpr (by simpa using hvars), List.append_nil]

/-- The variables without a path field are told from the method. -/
private theorem filter_routeVarFindings_var (hread : s.ReadsFrom m p h) :
    ((h.routeVarFindings m.receiver).filter fun f => f.2.code = "PA-E402") =
      m.varsWithoutField s h.route := by
  simp only [AnalysisError.code_eq_missingRouteVar_iff]
  have hfields : ∀ f ∈ m.fieldsNotInRoute s h.route, f.2.number ≠ 402 :=
    List.forall_mem_map.mpr fun _ _ => by simp [AnalysisError.number]
  have hvars : ∀ f ∈ m.varsWithoutField s h.route, f.2.number = 402 :=
    List.forall_mem_map.mpr fun _ _ => rfl
  rw [routeVarFindings_eq hread, List.filter_append,
    List.filter_eq_nil_iff.mpr (by simpa using hfields),
    List.filter_eq_self.mpr (by simpa using hvars), List.nil_append]

end Handler

/-! ### Findings for keys -/

namespace Setting

/-- What is to be found about path fields for the keys of handlers. -/
def fieldsNotInRoutes (s : Setting) (keys : List (Location × String)) : List Finding :=
  keys.flatMap fun k => (s.methodAt? k.1).toList.flatMap fun m => m.fieldsNotInRoute s k.2

/-- What is to be found about variables for the keys of handlers. -/
def varsWithoutFields (s : Setting) (keys : List (Location × String)) : List Finding :=
  keys.flatMap fun k => (s.methodAt? k.1).toList.flatMap fun m => m.varsWithoutField s k.2

/-- The keys can be listed. -/
theorem exists_lists (s : Setting) (pages : List Page) : ∃ keys, s.Lists pages keys := by
  classical
  let keys := ((pages.flatMap Page.requestHandlers).map Check.key).dedup.filter fun k =>
    s.Compares pages k
  refine ⟨keys, (List.nodup_dedup _).filter _, fun k => ?_⟩
  rw [List.mem_filter, decide_eq_true_iff, List.mem_dedup, List.mem_map]
  refine and_iff_right_of_imp ?_
  rintro ⟨⟨p, hp, h, hh, rfl⟩, -⟩
  exact ⟨h, List.mem_flatMap.mpr ⟨p, hp, hh⟩, rfl⟩

/-- Visiting other pages has the same findings with the code: some of the pages of the application,
in any order and any number of times, as long as every place and route of a handler is met. -/
def IgnoresCopies (s : Setting) (plugins : List Plugin) (code : String) : Prop :=
  ∀ visited abstractPages, (∀ p ∈ visited, p ∈ (s.inheritedPages plugins).map Prod.fst) →
    (∀ p ∈ (s.inheritedPages plugins).map Prod.fst, ∀ h ∈ p.requestHandlers,
      ∃ q ∈ visited, ∃ a ∈ q.requestHandlers, Check.key a = Check.key h) →
    ((s.crossFindings visited abstractPages).filter fun f => f.2.code = code).Perm
      ((s.findingsOf plugins .references).filter fun f => f.2.code = code)

variable {s : Setting} {pages visited : List Page}

/-- Pages with the same pairs of places and routes have the same keys. -/
theorem compares_iff_of_visited (hvisited : ∀ p ∈ visited, p ∈ pages)
    (hcover : ∀ p ∈ pages, ∀ h ∈ p.requestHandlers,
      ∃ q ∈ visited, ∃ a ∈ q.requestHandlers, Check.key a = Check.key h)
    (k : Location × String) : s.Compares visited k ↔ s.Compares pages k := by
  refine and_congr_left fun _ => ⟨?_, ?_⟩
  · rintro ⟨p, hp, h, hh, rfl⟩
    exact ⟨p, hvisited p hp, h, hh, rfl⟩
  · rintro ⟨p, hp, h, hh, rfl⟩
    obtain ⟨q, hq, a, ha, hkey⟩ := hcover p hp h hh
    exact ⟨q, hq, a, ha, hkey⟩

section Visits

variable {plugins : List Plugin} {sources : List Source}
  (hnames : (sources.map Source.name).Nodup) (hload : Package.load sources = .ok s.package)
  (hpages : ∀ p ∈ pages, p ∈ (s.inheritedPages plugins).map Prod.fst)
  (abstractPages : List AbstractPage) {keys : List (Location × String)}
  (hkeys : s.Lists pages keys)
include hnames hload hpages hkeys

/-- The findings of the first kind are one for each place, route and field, in some order. -/
private theorem perm_fieldsNotInRoutes :
    ((s.crossFindings pages abstractPages).filter fun f => f.2.code = "PA-E401").Perm
      (s.fieldsNotInRoutes keys) :=
  perm_filter_crossFindings hnames hload hpages AnalysisError.code_eq_fieldNotInRoute_iff
    (by decide) (fun _ _ _ => Handler.filter_routeVarFindings_field) abstractPages hkeys

/-- The findings of the second kind are one for each place, route and variable, in some order. -/
private theorem perm_varsWithoutFields :
    ((s.crossFindings pages abstractPages).filter fun f => f.2.code = "PA-E402").Perm
      (s.varsWithoutFields keys) :=
  perm_filter_crossFindings hnames hload hpages AnalysisError.code_eq_missingRouteVar_iff
    (by decide) (fun _ _ _ => Handler.filter_routeVarFindings_var) abstractPages hkeys

end Visits

end Setting

/-! ### Analyses -/

/-- The diagnostics with the codes of path fields and of variables are what is to be found for the
keys of handlers, each of them once. -/
structure Diagnostics.ReportsUnmatched (ds : Diagnostics) (s : Setting)
    (keys : List (Location × String)) : Prop where
  fields : ((ds.withCode "PA-E401").map fun d => (d.location, d.error)).Perm
    ((s.fieldsNotInRoutes keys).map fun f => (f.1.normalized, f.2))
  vars : ((ds.withCode "PA-E402").map fun d => (d.location, d.error)).Perm
    ((s.varsWithoutFields keys).map fun f => (f.1.normalized, f.2))

namespace Analysis

variable (c : Conventions) (plugins : List Plugin)

/-- The diagnostics with a code are the findings with the code, all of which are findings of one
pass. -/
theorem perm_map_withCode_of_pass {pass : Pass} {code : String}
    (h : ∀ e : AnalysisError, e.code = code → e.pass = pass) (p : Package) :
    (((ofPackage c plugins p).diagnostics.withCode code).map fun d => (d.location, d.error)).Perm
      (((((⟨p, c⟩ : Setting).findingsOf plugins pass).filter fun f => f.2.code = code)).map
        fun f => (f.1.normalized, f.2)) := by
  have hperm := (perm_map_entries c plugins p).filter fun f => f.2.code = code
  have hpass (f : Finding) : decide (f.2.code = code) =
      (decide (f.2.code = code) && decide (f.2.pass = pass)) := by
    by_cases hcode : f.2.code = code
    · simp [hcode, h f.2 hcode]
    · simp [hcode]
  rw [List.filter_map, List.filter_map] at hperm
  rw [← Setting.filter_findings, List.filter_filter, ← List.filter_congr fun f _ => hpass f]
  exact hperm

private theorem reportsUnmatched_ofPackage {sources : List Source}
    (hnames : (sources.map Source.name).Nodup) {p : Package} (hload : Package.load sources = .ok p)
    {keys : List (Location × String)}
    (hkeys : (⟨p, c⟩ : Setting).Lists (((⟨p, c⟩ : Setting).inheritedPages plugins).map Prod.fst)
      keys) :
    (ofPackage c plugins p).diagnostics.ReportsUnmatched ⟨p, c⟩ keys where
  fields := by
    have hpass (e : AnalysisError) (he : e.code = "PA-E401") : e.pass = .references :=
      AnalysisError.pass_of_number (.inl (e.code_eq_fieldNotInRoute_iff.mp he))
    refine (perm_map_withCode_of_pass c plugins hpass p).trans (List.Perm.map _ ?_)
    exact Setting.perm_fieldsNotInRoutes hnames hload (fun _ hq => hq) _ hkeys
  vars := by
    have hpass (e : AnalysisError) (he : e.code = "PA-E402") : e.pass = .references :=
      AnalysisError.pass_of_number (.inr (e.code_eq_missingRouteVar_iff.mp he))
    refine (perm_map_withCode_of_pass c plugins hpass p).trans (List.Perm.map _ ?_)
    exact Setting.perm_varsWithoutFields hnames hload (fun _ hq => hq) _ hkeys

/-- A handler that is copied into another page adds nothing to the findings. -/
private theorem ignoresCopies {sources : List Source} (hnames : (sources.map Source.name).Nodup)
    {s : Setting} (hload : Package.load sources = .ok s.package) :
    s.IgnoresCopies plugins "PA-E401" ∧ s.IgnoresCopies plugins "PA-E402" := by
  obtain ⟨keys, hkeys⟩ := s.exists_lists ((s.inheritedPages plugins).map Prod.fst)
  have hlists {visited : List Page}
      (hvisited : ∀ p ∈ visited, p ∈ (s.inheritedPages plugins).map Prod.fst)
      (hcover : ∀ p ∈ (s.inheritedPages plugins).map Prod.fst, ∀ h ∈ p.requestHandlers,
        ∃ q ∈ visited, ∃ a ∈ q.requestHandlers, Check.key a = Check.key h) :
      s.Lists visited keys :=
    ⟨hkeys.nodup, fun k =>
      (hkeys.mem_iff k).trans (Setting.compares_iff_of_visited hvisited hcover k).symm⟩
  constructor
  · intro visited abstractPages hvisited hcover
    exact (Setting.perm_fieldsNotInRoutes hnames hload hvisited _ (hlists hvisited hcover)).trans
      (Setting.perm_fieldsNotInRoutes hnames hload (fun _ hq => hq) _ hkeys).symm
  · intro visited abstractPages hvisited hcover
    exact (Setting.perm_varsWithoutFields hnames hload hvisited _ (hlists hvisited hcover)).trans
      (Setting.perm_varsWithoutFields hnames hload (fun _ hq => hq) _ hkeys).symm

/-- **Route variables and path fields that do not match** are reported once for every place and
route of the handlers that pages have, and nothing else is reported with these codes. How many pages
have a handler, and in which order they come, makes no difference. -/
theorem reportsUnmatched {sources : List Source} (hnames : (sources.map Source.name).Nodup) :
    (∀ e, Package.load sources = .error e →
      (ofSources c plugins sources).diagnostics.withCode "PA-E401" = [] ∧
        (ofSources c plugins sources).diagnostics.withCode "PA-E402" = []) ∧
    ∀ s : Setting, s.conventions = c → Package.load sources = .ok s.package →
      (∃ keys, s.Lists ((s.inheritedPages plugins).map Prod.fst) keys) ∧
      (∀ keys, s.Lists ((s.inheritedPages plugins).map Prod.fst) keys →
        (ofSources c plugins sources).diagnostics.ReportsUnmatched s keys) ∧
      s.IgnoresCopies plugins "PA-E401" ∧ s.IgnoresCopies plugins "PA-E402" := by
  rw [ofSources]
  refine ⟨fun e hload => ?_, ?_⟩
  · have hentry (code : String) (hne : code ≠ "PA-E001") :
        (ofLoadError e).diagnostics.withCode code = [] := by
      have hcode : (AnalysisError.load e.message).code = "PA-E001" :=
        (AnalysisError.code_eq_iff .loading rfl _).mpr rfl
      refine List.filter_eq_nil_iff.mpr fun d hd => ?_
      obtain rfl := List.mem_singleton.mp hd
      simpa [hcode] using hne.symm
    rw [hload]
    exact ⟨hentry _ (by decide), hentry _ (by decide)⟩
  · rintro ⟨p, c⟩ rfl hload
    rw [hload]
    exact ⟨Setting.exists_lists _ _,
      fun keys hkeys => reportsUnmatched_ofPackage c plugins hnames hload hkeys,
      ignoresCopies plugins hnames hload⟩

/-- Three pages that inherit a GET with a path field, and an action with a variable. Of the pages,
two have routes without the variable of the field. -/
def unmatchedCopies : List (String × List String) :=
  [("app.go",
    ["package app",
     "import \"net/http\"",
     "import \"github.com/a-h/templ\"",
     "type App struct\x7b\x7d",
     "type Base struct\x7b App *App \x7d",
     "func (Base) GET(r *http.Request, path struct\x7b ID string `path:\"id\"` \x7d) " ++
       "(body templ.Component) \x7b\x7d",
     "// POSTSave is /save/\x7bkey\x7d",
     "func (Base) POSTSave(r *http.Request) error \x7b\x7d",
     "// PageIndex is /",
     "type PageIndex struct\x7b App *App; Base \x7d",
     "// PageItem is /\x7bid\x7d",
     "type PageItem struct\x7b App *App; Base \x7d",
     "// PageList is /list",
     "type PageList struct\x7b App *App; Base \x7d"])]

set_option maxRecDepth 100000 in
/-- The field is reported under two routes, and the variable once for all pages. -/
theorem reportsUnmatched_unmatchedCopies :
    ((sourcesOf unmatchedCopies).map Source.name).Nodup ∧
    ∃ s : Setting, Package.load (sourcesOf unmatchedCopies) = .ok s.package ∧
      (∃ keys, s.Lists ((s.inheritedPages []).map Prod.fst) keys) ∧
      (∀ keys, s.Lists ((s.inheritedPages []).map Prod.fst) keys →
        (ofSources .standard [] (sourcesOf unmatchedCopies)).diagnostics.ReportsUnmatched s keys) ∧
      (s.IgnoresCopies [] "PA-E401" ∧ s.IgnoresCopies [] "PA-E402") ∧
      ((ofSources .standard [] (sourcesOf unmatchedCopies)).diagnostics.withCode "PA-E401").length =
        2 ∧
      ((ofSources .standard [] (sourcesOf unmatchedCopies)).diagnostics.withCode "PA-E402").length =
        1 := by
  have hnames : ((sourcesOf unmatchedCopies).map Source.name).Nodup := by
    simp [sourcesOf, unmatchedCopies]
  have hall : (Package.load (sourcesOf unmatchedCopies)).toOption.any (fun p =>
      ((ofPackage .standard [] p).diagnostics.withCode "PA-E401").length == 2 &&
        ((ofPackage .standard [] p).diagnostics.withCode "PA-E402").length == 1) = true := by
    rw [Package.load_sourcesOf]
    decide +kernel
  obtain ⟨-, hreports⟩ := reportsUnmatched .standard [] hnames
  cases hload : Package.load (sourcesOf unmatchedCopies) with
  | error e =>
    rw [hload] at hall
    cases hall
  | ok p =>
    rw [hload, Except.toOption, Option.any_some, Bool.and_eq_true, beq_iff_eq, beq_iff_eq] at hall
    obtain ⟨hlists, hkeys, hcopies⟩ := hreports ⟨p, .standard⟩ rfl hload
    refine ⟨hnames, ⟨p, .standard⟩, rfl, hlists, hkeys, hcopies, ?_⟩
    rw [ofSources, hload]
    exact hall

end Analysis

end GoPages

import GoPages.Proofs.Analysis.Nesting
import GoPages.Proofs.Package.Places

/-!
# Route variables and path fields

A route is compared with the path fields of a handler once for every place and route. That says
something about all handlers since a place is that of one method only, whose parameters are those of
every handler that is read from it (`Setting.ReadsFrom`, `Setting.inputs_eq_of_location`).

* `Setting.IsClean.invalidPaths_eq_nil`: nothing being found, no path parameter is passed over.
* `Analysis.mem_routeVars_iff`: in a clean analysis of sources with different names, the variables
  of a route are the names that path fields have in their tags, except for the empty name.
* `Analysis.not_forall_mem_routeVars_iff`: neither an empty name nor sources of one name may be let
  in.
-/

namespace GoPages

/-! ### Invalid paths -/

namespace Setting

variable {s : Setting} {plugins : List Plugin}

/-- A parameter in its role is in order if nothing is found about its method. -/
theorem roleFindings_eq_nil {m : Method} {a : Assignment} {role : InputRole} {p : Parameter}
    (hassign : HandlerInputs.assign? s (m.params s.package) = some a)
    (hnone : HandlerInputs.findings s m = []) (hparam : a.param? role = some p) :
    s.roleFindings m role p = [] := by
  rw [HandlerInputs.findings, hassign] at hnone
  obtain ⟨before, after, hsplit, -⟩ := List.lookup_eq_some_iff.mp hparam
  refine List.flatMap_eq_nil_iff.mp (List.append_eq_nil_iff.mp hnone).1 (role, p) ?_
  rw [hsplit]
  simp

/-- Nothing being found about a method, its path parameter is not passed over. -/
private theorem pathIsInvalid_eq_false {m : Method} (hnone : HandlerInputs.findings s m = []) :
    HandlerInputs.pathIsInvalid s m = false := by
  rw [HandlerInputs.pathIsInvalid]
  split
  · next p hp =>
    obtain ⟨a, hassign, hparam⟩ := Option.bind_eq_some_iff.mp hp
    have hrole := roleFindings_eq_nil hassign hnone hparam
    rw [roleFindings, List.map_eq_nil_iff, Option.toList_eq_nil_iff] at hrole
    rw [hrole]
    rfl
  · rfl

/-- If nothing is found, then no path parameter has anything wrong about it. -/
theorem IsClean.invalidPaths_eq_nil (hclean : s.IsClean plugins) :
    (s.owners.flatMap fun o => s.invalidPaths o.typeName) = [] := by
  rw [List.flatMap_eq_nil_iff]
  intro o ho
  rw [invalidPaths, List.map_eq_nil_iff, List.filter_eq_nil_iff]
  intro m hm hinvalid
  obtain ⟨before, hnone⟩ := hclean.methods o (declares_of_mem_owners ho) m hm
  obtain ⟨hreq, hpath⟩ := (Bool.and_eq_true _ _).mp hinvalid
  obtain ⟨r, hr⟩ := Option.isSome_iff_exists.mp hreq
  obtain ⟨hinputs, -⟩ := o.parts_eq_nil_of_methodFindings hr hnone
  rw [pathIsInvalid_eq_false hinputs] at hpath
  cases hpath

/-! ### Handlers and their methods -/

/-- The handler of a page is read from the method: it has the place, the name and the parameters of
the method, and its findings are under the type of the method. -/
structure ReadsFrom (s : Setting) (m : Method) (p : Page) (h : Handler) : Prop where
  mem : m ∈ s.methodsOf m.receiver
  declares : ∃ o, s.declares o ∧ o.typeName = m.receiver
  request : (s.request? m.name).isSome
  receiver : h.inheritedFrom.getD p.typeName = m.receiver
  location : h.location = m.location
  methodName : h.methodName = m.name
  inputs : h.inputs = HandlerInputs.read s m

/-- Every GET and every action that a page declares or inherits is read from a method. -/
theorem exists_method_of_request {p : Page} (hp : p ∈ (s.inheritedPages plugins).map Prod.fst)
    {h : Handler} (hh : h ∈ p.requestHandlers) : ∃ m, s.ReadsFrom m p h := by
  rcases exists_request hp hh with ⟨q, hq, hname, -, m, hm, hread⟩ | ⟨a, ha, b, hb, heq⟩
  · obtain ⟨decl, -, rfl⟩ := List.mem_map.mp hm
    obtain ⟨method, suffix, ins, outs, hreq, rfl⟩ := hread
    exact ⟨⟨q.typeName, decl⟩, hm, ⟨.page q, hq, rfl⟩, Option.isSome_iff_exists.mpr ⟨_, hreq⟩,
      hname.symm, rfl, rfl, rfl⟩
  · obtain ⟨r, hr, rfl⟩ := exists_abstractPage ha
    obtain ⟨m, hm, hread⟩ :=
      ((Owner.abstractPage r).areReadFrom_handlers s plugins).exists_isReadFrom hb
    obtain ⟨decl, -, rfl⟩ := List.mem_map.mp hm
    obtain ⟨method, suffix, ins, outs, hreq, rfl⟩ := hread
    rw [heq]
    exact ⟨⟨r.typeName, decl⟩, hm, ⟨.abstractPage r, hr, rfl⟩,
      Option.isSome_iff_exists.mpr ⟨_, hreq⟩, rfl, rfl, rfl, rfl⟩

section Places

variable {sources : List Source} (hnames : (sources.map Source.name).Nodup)
  (hload : Package.load sources = .ok s.package)
include hnames hload

/-- A method at the place of a method is this method. -/
theorem eq_of_location {m n : Method} (hm : m ∈ s.methodsOf m.receiver)
    (hn : n ∈ s.methodsOf n.receiver) (hplace : n.location = m.location) : n = m := by
  obtain ⟨decl, hdecl, heq⟩ := List.mem_map.mp hm
  obtain ⟨decl', hdecl', heq'⟩ := List.mem_map.mp hn
  rw [← heq, ← heq'] at hplace ⊢
  obtain ⟨hmem, hreceiver⟩ := List.mem_filter.mp hdecl
  obtain ⟨hmem', hreceiver'⟩ := List.mem_filter.mp hdecl'
  obtain rfl := Package.methodDecl_eq_of_location hnames hload hmem' hmem hplace
  rw [beq_iff_eq] at hreceiver hreceiver'
  rw [Option.some.inj (hreceiver'.symm.trans hreceiver)]

/-- Handlers at one place have the same parameters, whichever pages have them. -/
theorem inputs_eq_of_location {p q : Page}
    (hp : p ∈ (s.inheritedPages plugins).map Prod.fst)
    (hq : q ∈ (s.inheritedPages plugins).map Prod.fst) {a b : Handler}
    (ha : a ∈ p.requestHandlers) (hb : b ∈ q.requestHandlers) (hplace : a.location = b.location) :
    a.inputs = b.inputs := by
  obtain ⟨m, hm⟩ := exists_method_of_request hp ha
  obtain ⟨n, hn⟩ := exists_method_of_request hq hb
  rw [hm.location, hn.location] at hplace
  rw [hm.inputs, hn.inputs, eq_of_location hnames hload hn.mem hm.mem hplace]

end Places

end Setting

/-! ### Routes that are compared -/

/-- A comparison that finds nothing says that the path fields are the variables. -/
theorem Handler.mem_routeVars_iff_of_routeVarFindings {h : Handler} {receiver name : String}
    (hnone : h.routeVarFindings receiver = []) : name ∈ h.routeVars ↔ name ∈ h.pathNames := by
  obtain ⟨hfields, hvars⟩ := List.append_eq_nil_iff.mp hnone
  rw [List.map_eq_nil_iff, List.filter_eq_nil_iff] at hfields hvars
  exact ⟨fun h => by simpa using hvars name h, fun h => by simpa using hfields name h⟩

/-- The names that the fields of the path have in their tags, also the empty one. -/
def Handler.pathTags (h : Handler) : List String :=
  (h.inputs.path.toList.flatMap Slot.fields).filterMap fun f => StructTag.name f.tag "path"

/-- The names that are compared are those in the tags, but for the empty one. -/
theorem Handler.pathNames_eq (h : Handler) : h.pathNames = h.pathTags.filter (· != "") := by
  rw [pathNames, pathTags]
  cases h.inputs.path with
  | none => rfl
  | some p =>
    dsimp only
    rw [Option.toList_some, List.flatMap_singleton, Slot.fields]
    cases p.type.resolved <;> rfl

private theorem Handler.mem_pathNames_iff {h : Handler} {name : String} :
    name ∈ h.pathNames ↔ name ≠ "" ∧ name ∈ h.pathTags := by
  rw [pathNames_eq, List.mem_filter, bne_iff_ne, and_comm]

/-- The routes that are compared are those of the handlers of pages. -/
theorem Check.route_mem_iff {pages : List Page} {abstractPages : List AbstractPage}
    {receiver : String} {h : Handler} :
    route receiver h ∈ pages.flatMap ofPage ++ abstractPages.flatMap ofAbstractPage ↔
      ∃ p ∈ pages, h ∈ p.requestHandlers ∧ h.inheritedFrom.getD p.typeName = receiver := by
  simp [ofPage, ofAbstractPage]

/-- A clean analysis has compared the route of every handler, or that of another handler at the same
place and with the same route, which has the same path fields. -/
private theorem Setting.IsClean.mem_routeVars_iff_mem_pathNames {s : Setting}
    {plugins : List Plugin}
    (hclean : s.IsClean plugins) {sources : List Source} (hnames : (sources.map Source.name).Nodup)
    (hload : Package.load sources = .ok s.package) {p : Page}
    (hp : p ∈ (s.inheritedPages plugins).map Prod.fst) {h : Handler} (hh : h ∈ p.requestHandlers)
    {name : String} : name ∈ h.routeVars ↔ name ∈ h.pathNames := by
  have hcomparable : Check.comparable [] h := by
    simp [Check.comparable, hclean.wellFormed_route hp hh]
  have hcheck : Check.route (h.inheritedFrom.getD p.typeName) h ∈ s.checks plugins :=
    Check.route_mem_iff.mpr ⟨p, hp, hh, rfl⟩
  have hchecks := hclean.checks
  rw [hclean.invalidPaths_eq_nil] at hchecks
  obtain hseen | ⟨r, b, hb, hkey, hnone⟩ := Check.exists_compared hchecks hcheck hcomparable
  · cases hseen
  · -- the handler that was compared has the same route, and it is read from the same method
    obtain ⟨q, hq, hbq, -⟩ := Check.route_mem_iff.mp hb
    obtain ⟨hplace, hroute⟩ := Prod.mk.inj hkey
    have hinputs := inputs_eq_of_location hnames hload hq hp hbq hh hplace
    have hiff : name ∈ b.routeVars ↔ name ∈ b.pathNames :=
      Handler.mem_routeVars_iff_of_routeVarFindings hnone
    rwa [Handler.routeVars, Handler.pathNames, hroute, hinputs] at hiff

/-- **Route variables and path fields.** Nothing being found in sources with different names,
the variables of a handler's route are the names in the tags of its path fields, but for the
empty name. -/
theorem Analysis.mem_routeVars_iff {c : Conventions} {plugins : List Plugin} {sources : List Source}
    {app : App} (hnames : (sources.map Source.name).Nodup)
    (happ : (ofSources c plugins sources).app = some app)
    (hclean : (ofSources c plugins sources).isClean) :
    ∀ p ∈ app.pages, ∀ h ∈ p.requestHandlers, ∀ name,
      name ∈ h.routeVars ↔ name ≠ "" ∧ name ∈ h.pathTags := by
  obtain ⟨s, -, hload, happ, hclean⟩ := exists_setting happ hclean
  intro p hp h hh name
  rw [Setting.pages_of_app? happ] at hp
  rw [hclean.mem_routeVars_iff_mem_pathNames hnames hload hp hh, Handler.mem_pathNames_iff]

/-- Pages of items and of their notes, whose handlers read the variables of their routes. -/
def itemNotes : List (String × List String) :=
  [("app.go",
    ["package app",
     "import \"net/http\"",
     "import \"github.com/a-h/templ\"",
     "type App struct\x7b\x7d",
     "// PageIndex is /",
     "type PageIndex struct\x7b App *App \x7d",
     "func (PageIndex) GET(*http.Request) (body templ.Component) \x7b\x7d",
     "// PageItem is /item/\x7bid\x7d",
     "type PageItem struct\x7b App *App \x7d",
     "func (PageItem) GET(r *http.Request, path struct\x7b",
     "\tID string `path:\"id\"`",
     "\x7d) (body templ.Component) \x7b\x7d",
     "// POSTNote is /item/\x7bid\x7d/note/\x7bnote\x7d",
     "func (PageItem) POSTNote(r *http.Request, path struct\x7b",
     "\tNote string `path:\"note\"`",
     "\tID string `path:\"id\"`",
     "\x7d) error \x7b\x7d"])]

set_option maxRecDepth 100000 in
/-- Nothing is found in the application, and an action has two variables in its route. -/
private theorem exists_app_itemNotes :
    ∃ app, (Analysis.ofSources .standard [] (sourcesOf itemNotes)).app = some app ∧
      (Analysis.ofSources .standard [] (sourcesOf itemNotes)).isClean ∧
      ∃ p ∈ app.pages, ∃ h ∈ p.actions, h.routeVars = ["id", "note"] := by
  have hall : ((Analysis.ofSources .standard [] (sourcesOf itemNotes)).isClean &&
      (Analysis.ofSources .standard [] (sourcesOf itemNotes)).app.any fun app =>
        app.pages.any fun p => p.actions.any fun h => h.routeVars == ["id", "note"]) = true := by
    rw [Analysis.ofSources, Package.load_sourcesOf]
    decide +kernel
  rw [Bool.and_eq_true, Option.any_eq_true] at hall
  obtain ⟨hclean, app, happ, hvars⟩ := hall
  simp only [List.any_eq_true, beq_iff_eq] at hvars
  exact ⟨app, happ, hclean, hvars⟩

/-- The action on a note has two variables in its route, and the fields of its path have these
names in another order. -/
theorem Analysis.mem_routeVars_iff_itemNotes :
    ∃ app, (ofSources .standard [] (sourcesOf itemNotes)).app = some app ∧
      (∃ p ∈ app.pages, ∃ h ∈ p.actions, h.routeVars = ["id", "note"]) ∧
      ∀ p ∈ app.pages, ∀ h ∈ p.requestHandlers, ∀ name,
        name ∈ h.routeVars ↔ name ≠ "" ∧ name ∈ h.pathTags := by
  obtain ⟨app, happ, hclean, hvars⟩ := exists_app_itemNotes
  exact ⟨app, happ, hvars, mem_routeVars_iff (by decide) happ hclean⟩

/-! ### Where the law ends -/

/-- Some handler of a page has a variable without a path field, or a path field without a
variable. -/
def App.hasUnmatched (app : App) : Bool :=
  app.pages.any fun p => p.requestHandlers.any fun h =>
    h.pathTags.any (fun name => !h.routeVars.contains name) ||
      h.routeVars.any fun name => !h.pathTags.contains name

/-- The law fails in an application that passes this test. -/
private theorem Analysis.exists_unmatched {a : Analysis}
    (h : (a.isClean && a.app.any App.hasUnmatched) = true) :
    ∃ app, a.app = some app ∧ a.isClean ∧
      ¬ ∀ p ∈ app.pages, ∀ h ∈ p.requestHandlers, ∀ name,
        name ∈ h.routeVars ↔ name ∈ h.pathTags := by
  rw [Bool.and_eq_true, Option.any_eq_true] at h
  obtain ⟨hclean, app, happ, hunmatched⟩ := h
  refine ⟨app, happ, hclean, fun hall => ?_⟩
  obtain ⟨p, hp, hpage⟩ := List.any_eq_true.mp hunmatched
  obtain ⟨a, ha, hname⟩ := List.any_eq_true.mp hpage
  rcases (Bool.or_eq_true _ _).mp hname with hfield | hvar
  · obtain ⟨name, hmem, hnot⟩ := List.any_eq_true.mp hfield
    simp [(hall p hp a ha name).mpr hmem] at hnot
  · obtain ⟨name, hmem, hnot⟩ := List.any_eq_true.mp hvar
    simp [(hall p hp a ha name).mp hmem] at hnot

/-- A page with a path field whose name is empty. -/
def emptyName : List (String × List String) :=
  [("app.go",
    ["package app",
     "import \"net/http\"",
     "import \"github.com/a-h/templ\"",
     "type App struct\x7b\x7d",
     "// PageIndex is /",
     "type PageIndex struct\x7b App *App \x7d",
     "func (PageIndex) GET(r *http.Request, path struct\x7b ID string `path:\"\"` \x7d) (body templ.Component) \x7b\x7d"])]

/-- Two sources of one name, with methods at the same place and under the same route. -/
def twins : List (String × List String) :=
  [("app.go",
    ["package app",
     "import \"net/http\"",
     "import \"github.com/a-h/templ\"",
     "type App struct\x7b\x7d",
     "// PageIndex is /\x7bid\x7d",
     "type PageIndex struct\x7b App *App \x7d",
     "func (PageIndex) GET(r *http.Request, path struct\x7b ID string `path:\"id\"` \x7d) (body templ.Component) \x7b\x7d"]),
  ("app.go",
    ["package app",
     "import \"net/http\"",
     "import \"github.com/a-h/templ\"",
     "",
     "// PageOther is /\x7bid\x7d",
     "type PageOther struct\x7b App *App \x7d",
     "func (PageOther) GET(r *http.Request) (body templ.Component) \x7b\x7d"])]

set_option maxRecDepth 100000 in
/-- Neither an empty name nor sources of one name may be let in: nothing is found in these packages,
and they do not keep to the law. -/
theorem Analysis.not_forall_mem_routeVars_iff :
    (∃ app, (ofSources .standard [] (sourcesOf emptyName)).app = some app ∧
      (ofSources .standard [] (sourcesOf emptyName)).isClean ∧
      ¬ ∀ p ∈ app.pages, ∀ h ∈ p.requestHandlers, ∀ name,
        name ∈ h.routeVars ↔ name ∈ h.pathTags) ∧
    (∃ app, (ofSources .standard [] (sourcesOf twins)).app = some app ∧
      (ofSources .standard [] (sourcesOf twins)).isClean ∧
      ¬ ∀ p ∈ app.pages, ∀ h ∈ p.requestHandlers, ∀ name,
        name ∈ h.routeVars ↔ name ∈ h.pathTags) := by
  constructor
  · apply exists_unmatched
    rw [ofSources, Package.load_sourcesOf]
    decide +kernel
  · apply exists_unmatched
    rw [ofSources, Package.load_sourcesOf]
    decide +kernel

end GoPages

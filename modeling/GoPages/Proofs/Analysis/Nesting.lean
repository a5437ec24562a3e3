import GoPages.Proofs.Analysis.Provenance
import GoPages.Proofs.Route.Comments

/-!
# Routes of actions and pages

The route of an action is compared with that of a page where the action is declared, and an abstract
page has no route to compare it with. What a page inherits is not compared again.

* `Setting.IsClean.wellFormed_route`: nothing being found, all routes in an application are
  well-formed.
* `Setting.IsClean.isUnder_or_inherited`: then the actions that a page declares are under its route.
* `Analysis.forall_isUnder_iff`: all actions of pages are under the routes of their pages if and
  only if those are which the pages inherit. `Analysis.not_forall_isUnder` is an application where
  they are not.
-/

namespace GoPages

/-! ### Route comments -/

/-- A route that is read from a comment has passed the check. -/
private theorem Route.wellFormed_of_ofComment {name route : String} {doc : Option CommentGroup}
    (h : Route.ofComment name doc = .wellFormed route) : Route.wellFormed route.toList :=
  (ofComment_eq_wellFormed_iff.mp h).1

private theorem Route.ne_empty_of_wellFormed {route : String} (h : Route.wellFormed route.toList) :
    route ≠ "" := by
  simpa using ne_nil_of_wellFormed h

namespace Handler.IsReadFrom

variable {s : Setting} {o : Owner} {m : Method} {h : Handler} {before : OwnHandlers}

/-- A GET answers under the route of its page. -/
theorem route_of_get (hread : h.IsReadFrom s o m) (hget : h.method = .get) :
    h.route = o.route?.getD "" := by
  obtain ⟨method, suffix, ins, outs, -, rfl⟩ := hread
  exact if_pos hget

/-- The route of an action without findings is well-formed, and it fits that of its owner. -/
theorem route_of_ne_get (hread : h.IsReadFrom s o m) (hne : h.method ≠ .get)
    (hnone : o.methodFindings s before m = []) :
    Route.wellFormed h.route.toList ∧ o.nestingFindings m h.route = [] := by
  obtain ⟨method, suffix, ins, outs, hreq, rfl⟩ := hread
  change method ≠ .get at hne
  obtain ⟨-, -, hroute⟩ := o.parts_eq_nil_of_methodFindings hreq hnone
  rw [Owner.routeFindings, if_neg hne] at hroute
  split at hroute
  · cases hroute
  · cases hroute
  · next route hcomment =>
    have heq : o.handlerRoute m method = route := by
      rw [Owner.handlerRoute, if_neg hne, hcomment]
      rfl
    simp only [read, heq]
    exact ⟨Route.wellFormed_of_ofComment hcomment, hroute⟩

end Handler.IsReadFrom

namespace Setting.IsClean

variable {s : Setting} {plugins : List Plugin} (hclean : s.IsClean plugins)
include hclean

/-- A page about which nothing is found has a route that is well-formed. -/
private theorem wellFormed_pageRoute {q : Page} (hq : q ∈ s.pages) :
    Route.wellFormed q.route.toList := by
  obtain ⟨d, fields, hd, hrole, rfl⟩ := exists_typeRole_of_mem_pages hq
  have hnone := hclean.types d (Package.mem_types_iff.mpr hd)
  rw [roleOfTypeFindings, hrole] at hnone
  have hroute := (List.append_eq_nil_iff.mp hnone).2
  rw [pageRouteFindings] at hroute
  split at hroute
  · next route hcomment =>
    simp only [hcomment, RouteComment.route]
    exact Route.wellFormed_of_ofComment hcomment
  · cases hroute
  · cases hroute

/-- The actions of an abstract page have well-formed routes. -/
theorem wellFormed_abstractAction {a : AbstractPage} (ha : a ∈ s.attachedAbstractPages plugins)
    {h : Handler} (hh : h ∈ a.actions) : Route.wellFormed h.route.toList := by
  obtain ⟨q, hq, rfl⟩ := exists_abstractPage ha
  obtain ⟨hne, m, hm, hread⟩ := ((Owner.abstractPage q).areReadFrom_handlers s plugins).actions h hh
  obtain ⟨before, hnone⟩ := hclean.methods (.abstractPage q) hq m hm
  exact (hread.route_of_ne_get hne hnone).1

/-- Every handler of requests of a page has a well-formed route. -/
theorem wellFormed_route {p : Page} (hp : p ∈ (s.inheritedPages plugins).map Prod.fst) {h : Handler}
    (hh : h ∈ p.requestHandlers) : Route.wellFormed h.route.toList := by
  obtain ⟨q, hq, m, rfl, hext⟩ := exists_extends hp
  have hread := (Owner.page q).areReadFrom_handlers s plugins
  rcases List.mem_append.mp hh with hget | haction
  · rcases hext.get h (Option.mem_toList.mp hget) with hown | ⟨a, ha, b, hb, rfl⟩
    · obtain ⟨hmethod, m, hm, hread⟩ := hread.get h hown
      rw [hread.route_of_get hmethod]
      exact hclean.wellFormed_pageRoute hq
    · simpa using hclean.wellFormed_pageRoute hq
  · rcases hext.actions h haction with hown | ⟨a, ha, b, hb, rfl⟩
    · obtain ⟨hne, m, hm, hread⟩ := hread.actions h hown
      obtain ⟨before, hnone⟩ := hclean.methods (.page q) hq m hm
      exact (hread.route_of_ne_get hne hnone).1
    · rw [Handler.route_inheritedBy]
      exact hclean.wellFormed_abstractAction ha hb

/-- An action of a page is declared by it and under its route, or it is inherited. -/
theorem isUnder_or_inherited {p : Page} (hp : p ∈ (s.inheritedPages plugins).map Prod.fst)
    {h : Handler} (hh : h ∈ p.actions) :
    (h.inheritedFrom = none ∧ Route.isUnder h.route.toList p.route.toList) ∨
      ∃ a ∈ s.attachedAbstractPages plugins, ∃ b ∈ a.actions, h = b.inheritedBy a.typeName := by
  obtain ⟨q, hq, m, rfl, hext⟩ := exists_extends hp
  rcases hext.actions h hh with hown | hinherited
  · obtain ⟨hne, m, hm, hread⟩ := ((Owner.page q).areReadFrom_handlers s plugins).actions h hown
    obtain ⟨before, hnone⟩ := hclean.methods (.page q) hq m hm
    have hnested := (hread.route_of_ne_get hne hnone).2
    -- a page without a route would not be compared with
    have hroute := Route.ne_empty_of_wellFormed (hclean.wellFormed_pageRoute hq)
    refine .inl ⟨hread.inheritedFrom, ?_⟩
    rw [hext.route, route_attachedPage]
    simpa [Owner.nestingFindings, Owner.route?, hroute] using hnested
  · exact .inr hinherited

end Setting.IsClean

/-- **Actions and the routes of their pages.** In a clean analysis the actions that a page declares
are under its route. So all actions are under the routes of their pages exactly if the inherited
ones are, whose routes are those that abstract pages declare. -/
theorem Analysis.forall_isUnder_iff {c : Conventions} {plugins : List Plugin}
    {sources : List Source} {app : App} (happ : (ofSources c plugins sources).app = some app)
    (hclean : (ofSources c plugins sources).isClean) :
    (∀ p ∈ app.pages, ∀ h ∈ p.actions, h.inheritedFrom = none →
      Route.isUnder h.route.toList p.route.toList) ∧
    ((∀ p ∈ app.pages, ∀ h ∈ p.actions, Route.isUnder h.route.toList p.route.toList) ↔
      ∀ p ∈ app.pages, ∀ a ∈ app.abstractPages, ∀ h ∈ a.actions,
        h.inheritedBy a.typeName ∈ p.actions → Route.isUnder h.route.toList p.route.toList) := by
  obtain ⟨s, -, -, happ, hclean⟩ := exists_setting happ hclean
  rw [Setting.pages_of_app? happ, Setting.abstractPages_of_app? happ]
  refine ⟨fun p hp h hh hown => ?_, fun hall p hp a _ h _ hmem => ?_,
    fun hinherited p hp h hh => ?_⟩
  · rcases hclean.isUnder_or_inherited hp hh with ⟨-, hunder⟩ | ⟨a, -, b, -, rfl⟩
    · exact hunder
    · cases hown
  · exact h.route_inheritedBy a.typeName ▸ hall p hp _ hmem
  · rcases hclean.isUnder_or_inherited hp hh with ⟨-, hunder⟩ | ⟨a, ha, b, hb, rfl⟩
    · exact hunder
    · rw [Handler.route_inheritedBy]
      exact hinherited p hp a ha b hb hh

/-- In this application the inherited actions break the law, and the declared ones cannot. -/
theorem Analysis.forall_isUnder_iff_sharedSave :
    ∃ app, (ofSources .standard [] (sourcesOf sharedSave)).app = some app ∧
      (∀ p ∈ app.pages, ∀ h ∈ p.actions, h.inheritedFrom = none →
        Route.isUnder h.route.toList p.route.toList) ∧
      ¬ ∀ p ∈ app.pages, ∀ a ∈ app.abstractPages, ∀ h ∈ a.actions,
        h.inheritedBy a.typeName ∈ p.actions → Route.isUnder h.route.toList p.route.toList := by
  obtain ⟨app, happ, hclean, p, hp, h, hh, hstray⟩ := exists_app_sharedSave
  obtain ⟨hdeclared, hiff⟩ := forall_isUnder_iff happ hclean
  refine ⟨app, happ, hdeclared, fun hinherited => ?_⟩
  simp [hiff.mpr hinherited p hp h hh] at hstray

/-- An action that is inherited may be under a route that is not the route of the page. -/
theorem Analysis.not_forall_isUnder :
    ¬ ∀ (sources : List Source) (app : App), (ofSources .standard [] sources).app = some app →
      (ofSources .standard [] sources).isClean →
      ∀ p ∈ app.pages, ∀ h ∈ p.actions, Route.isUnder h.route.toList p.route.toList := by
  intro hall
  obtain ⟨app, happ, hclean, p, hp, h, hh, hstray⟩ := exists_app_sharedSave
  simp [hall _ app happ hclean p hp h hh] at hstray

end GoPages

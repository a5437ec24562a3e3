import GoPages.Proofs.Analysis.Clean
import GoPages.Proofs.Inheritance.Merge
import GoPages.Proofs.Owner.Handlers
import GoPages.Proofs.Package.Checked
import GoPages.Proofs.Signature.Body

/-!
# Where handlers come from

Every handler in an application is read from a method of a page or an abstract page, and a page may
have it by inheritance.

* `Setting.exists_extends` and `Setting.exists_abstractPage` take a page and an abstract page of an
  application back to its declaration.
* `Handler.IsSound` is what is right about a handler if nothing is found. Inheritance does not touch
  it (`Handler.IsSound.inheritedBy`), so it holds of all handlers of pages and abstract pages
  (`Setting.IsClean.isSound_of_page`, `Setting.IsClean.isSound_of_abstractPage`).
-/

namespace GoPages

/-- The fields of a parameter that is a struct. -/
def Slot.fields (p : Slot) : List StructField :=
  match p.type.resolved with
  | .struct fields => fields
  | _ => []

/-- The names in the tags of a slot are those of its fields, but for empty ones. -/
private theorem mem_tagNames_iff {p : Slot} {key name : String} :
    name ∈ p.type.resolved.tagNames key ↔
      ∃ f ∈ p.fields, StructTag.name f.tag key = some name ∧ name ≠ "" := by
  rw [Slot.fields]
  cases p.type.resolved <;> simp [HostType.tagNames, ← exists_and_right, and_assoc]

/-- Every signal that a field of the query reflects is a field of the signals. -/
def Handler.ReflectsSignals (h : Handler) : Prop :=
  ∀ query ∈ h.inputs.query, ∀ f ∈ query.fields, ∀ name,
    StructTag.name f.tag "reflectsignal" = some name → name ≠ "" →
      ∃ signals ∈ h.inputs.signals, ∃ g ∈ signals.fields, StructTag.name g.tag "json" = some name

/-- What is right about a handler of requests if nothing is found. -/
structure Handler.IsSound (s : Setting) (h : Handler) : Prop where
  dispatchedEvents : ∀ name ∈ h.dispatchedEvents, s.isEventType name
  reflectsSignals : h.ReflectsSignals
  body : h.method = .get → h.outputs.body.isSome

namespace Handler

variable {s : Setting} {h : Handler}

/-- A handler stays sound when it is inherited, since only its mark changes. -/
theorem IsSound.inheritedBy (hsound : h.IsSound s) (owner : String) :
    (h.inheritedBy owner).IsSound s :=
  ⟨hsound.dispatchedEvents, hsound.reflectsSignals, hsound.body⟩

/-- Soundness says nothing about the route. -/
private theorem IsSound.withRoute (hsound : h.IsSound s) (route : String) :
    Handler.IsSound s { h with route := route } :=
  ⟨hsound.dispatchedEvents, hsound.reflectsSignals, hsound.body⟩

/-! ### Handlers without findings -/

/-- If nothing is found about reflected signals, each of them is a signal. -/
private theorem reflectsSignals_of_reflectFindings {receiver : String}
    (h : Handler) (hnone : h.reflectFindings receiver = []) : h.ReflectsSignals := by
  intro query hquery f hf name hname hne
  rw [Option.mem_def] at hquery
  rw [reflectFindings, hquery] at hnone
  have hnames := List.filter_eq_nil_iff.mp (List.map_eq_nil_iff.mp hnone) name
    (mem_tagNames_iff.mpr ⟨f, hf, hname, hne⟩)
  have hsignal : name ∈ h.signalNames := by simpa using hnames
  rw [signalNames] at hsignal
  split at hsignal
  · next signals hsignals =>
    obtain ⟨g, hg, hjson, -⟩ := mem_tagNames_iff.mp hsignal
    exact ⟨signals, hsignals, g, hg, hjson⟩
  · cases hsignal

/-- Only a handler with a dispatch function dispatches anything. -/
theorem isSome_dispatch_of_mem_dispatched {m : Method} {name : String}
    (hmem : name ∈ HandlerInputs.dispatched s m) : (HandlerInputs.read s m).dispatch.isSome := by
  rw [HandlerInputs.dispatched] at hmem
  rw [HandlerInputs.read]
  cases hassign : HandlerInputs.assign? s (m.params s.package) with
  | none => simp [hassign] at hmem
  | some a =>
    cases hparam : a.param? .dispatch with
    | none => simp [hassign, hparam] at hmem
    | some p => simp [HandlerInputs.ofAssignment, Assignment.slot?, hparam]

/-- If nothing is found about dispatched types, each of them is an event type. -/
private theorem dispatchedEvents_of_dispatchFindings {o : Owner} {m : Method} {receiver : String}
    (hread : h.IsReadFrom s o m) (hnone : h.dispatchFindings s receiver = []) :
    ∀ name ∈ h.dispatchedEvents, s.isEventType name := by
  obtain ⟨method, suffix, ins, outs, -, rfl⟩ := hread
  intro name hname
  obtain ⟨dispatch, hdispatch⟩ :=
    Option.isSome_iff_exists.mp (isSome_dispatch_of_mem_dispatched hname)
  simp only [dispatchFindings, read, hdispatch] at hnone
  simpa using List.filter_eq_nil_iff.mp (List.map_eq_nil_iff.mp hnone) name hname

/-- A GET that is read from a method without findings has a body. -/
theorem isSome_body_of_methodFindings {o : Owner} {m : Method} {before : OwnHandlers}
    (hread : h.IsReadFrom s o m) (hnone : o.methodFindings s before m = [])
    (hget : h.method = .get) : h.outputs.body.isSome := by
  obtain ⟨method, suffix, ins, outs, hreq, rfl⟩ := hread
  obtain rfl : method = .get := hget
  obtain ⟨-, houtputs, -⟩ := o.parts_eq_nil_of_methodFindings hreq hnone
  exact HandlerOutputs.isSome_body_of_findings houtputs

/-- A handler is sound if nothing is found about its method, nor about what it refers to. -/
private theorem isSound_of_isReadFrom {o : Owner} {m : Method} {before : OwnHandlers}
    {receiver : String} (hread : h.IsReadFrom s o m) (hmethod : o.methodFindings s before m = [])
    (hreferences : h.referenceFindings s receiver = []) : h.IsSound s := by
  obtain ⟨hdispatch, hreflect⟩ := List.append_eq_nil_iff.mp hreferences
  exact ⟨dispatchedEvents_of_dispatchFindings hread hdispatch,
    reflectsSignals_of_reflectFindings h hreflect, isSome_body_of_methodFindings hread hmethod⟩

end Handler

/-! ### Handlers of requests -/

/-- Handlers that are read from methods are, as requests, read from one of them. -/
theorem OwnHandlers.AreReadFrom.exists_isReadFrom {s : Setting} {o : Owner} {ms : List Method}
    {hs : OwnHandlers} (h : hs.AreReadFrom s o ms) {a : Handler}
    (ha : a ∈ hs.get.toList ++ hs.actions) : ∃ m ∈ ms, a.IsReadFrom s o m := by
  rcases List.mem_append.mp ha with ha | ha
  · exact (h.get a (Option.mem_toList.mp ha)).2
  · exact (h.actions a ha).2

namespace Setting

variable {s : Setting} {plugins : List Plugin}

/-- A page with the handlers that it declares. -/
def attachedPage (s : Setting) (plugins : List Plugin) (p : Page) : Page :=
  p.withHandlers ((Owner.page p).handlers s plugins)

@[simp] theorem route_attachedPage (s : Setting) (plugins : List Plugin) (p : Page) :
    (s.attachedPage plugins p).route = p.route := rfl

/-- An abstract page with the handlers that it declares. -/
def attachedAbstractPage (s : Setting) (plugins : List Plugin) (p : AbstractPage) : AbstractPage :=
  p.withHandlers ((Owner.abstractPage p).handlers s plugins)

/-- Abstract pages keep their names and their order. -/
theorem map_typeName_attachedAbstractPages (s : Setting) (plugins : List Plugin) :
    (s.attachedAbstractPages plugins).map AbstractPage.typeName =
      s.abstractPages.map AbstractPage.typeName := by
  rw [attachedAbstractPages, List.map_map]
  rfl

/-- A page of the application is a declared page that has been given its own handlers first, and
then what it inherits. -/
theorem exists_inherit {p : Page} (h : p ∈ (s.inheritedPages plugins).map Prod.fst) :
    ∃ q ∈ s.pages,
      p = ((s.attachedPage plugins q).inherit (s.attachedAbstractPages plugins)).1 := by
  obtain ⟨r, hr, rfl⟩ := List.mem_map.mp h
  obtain ⟨a, ha, rfl⟩ := List.mem_map.mp hr
  obtain ⟨q, hq, rfl⟩ := List.mem_map.mp ha
  exact ⟨q, hq, rfl⟩

/-- A page of the application is a declared page, extended by what it inherits. -/
theorem exists_extends {p : Page} (h : p ∈ (s.inheritedPages plugins).map Prod.fst) :
    ∃ q ∈ s.pages, ∃ m : Merge, p = m.page ∧
      m.Extends (s.attachedPage plugins q) (s.attachedAbstractPages plugins) := by
  obtain ⟨q, hq, rfl⟩ := exists_inherit h
  exact ⟨q, hq, Page.extends_inherit _ _⟩

/-- An abstract page with handlers is one of the outline. -/
theorem exists_abstractPage {p : AbstractPage} (h : p ∈ s.attachedAbstractPages plugins) :
    ∃ q ∈ s.abstractPages, p = s.attachedAbstractPage plugins q := by
  obtain ⟨q, hq, rfl⟩ := List.mem_map.mp h
  exact ⟨q, hq, rfl⟩

section Marks

variable {p : Page} (hp : p ∈ (s.inheritedPages plugins).map Prod.fst)
include hp

/-- The GET of a page has no mark, or it is that of an abstract page under the route of the page. -/
theorem get_unmarked_or_inherited {h : Handler} (hh : h ∈ p.get) : h.inheritedFrom = none ∨
    ∃ a ∈ s.attachedAbstractPages plugins, ∃ b ∈ a.get,
      h = { b.inheritedBy a.typeName with route := p.route } := by
  obtain ⟨q, -, m, rfl, hext⟩ := exists_extends hp
  rw [hext.route]
  refine (hext.get h hh).imp_left fun hown => ?_
  obtain ⟨-, n, -, hread⟩ := ((Owner.page q).areReadFrom_handlers s plugins).get h hown
  exact hread.inheritedFrom

/-- An action of a page has no mark, or it is that of an abstract page. -/
theorem action_unmarked_or_inherited {h : Handler} (hh : h ∈ p.actions) : h.inheritedFrom = none ∨
    ∃ a ∈ s.attachedAbstractPages plugins, ∃ b ∈ a.actions, h = b.inheritedBy a.typeName := by
  obtain ⟨q, -, m, rfl, hext⟩ := exists_extends hp
  refine (hext.actions h hh).imp_left fun hown => ?_
  obtain ⟨-, n, -, hread⟩ := ((Owner.page q).areReadFrom_handlers s plugins).actions h hown
  exact hread.inheritedFrom

/-- An event handler of a page has no mark, or it is that of an abstract page. -/
theorem eventHandler_unmarked_or_inherited {h : EventHandler} (hh : h ∈ p.eventHandlers) :
    h.inheritedFrom = none ∨ ∃ a ∈ s.attachedAbstractPages plugins, ∃ b ∈ a.eventHandlers,
      h = b.inheritedBy a.typeName := by
  obtain ⟨q, -, m, rfl, hext⟩ := exists_extends hp
  refine (hext.eventHandlers h hh).imp_left fun hown => ?_
  obtain ⟨n, -, hread⟩ := ((Owner.page q).areReadFrom_handlers s plugins).eventHandlers h hown
  exact hread.inheritedFrom

end Marks

/-- A page declares its handlers of requests, or has them from abstract pages. A GET answers under
the route of the page, and an action under its own route. -/
theorem exists_request {p : Page} (hp : p ∈ (s.inheritedPages plugins).map Prod.fst) {h : Handler}
    (hh : h ∈ p.requestHandlers) :
    (∃ q ∈ s.pages, q.typeName = p.typeName ∧ q.route = p.route ∧
      ∃ m ∈ s.methodsOf q.typeName, h.IsReadFrom s (.page q) m) ∨
    ∃ a ∈ s.attachedAbstractPages plugins, ∃ b ∈ a.requestHandlers,
      h = { b.inheritedBy a.typeName with route := h.route } := by
  obtain ⟨q, hq, m, rfl, hext⟩ := exists_extends hp
  have hread := ((Owner.page q).areReadFrom_handlers s plugins).exists_isReadFrom (a := h)
  have hown : h ∈ (s.attachedPage plugins q).requestHandlers → ∃ q ∈ s.pages,
      q.typeName = m.page.typeName ∧ q.route = m.page.route ∧
      ∃ m ∈ s.methodsOf q.typeName, h.IsReadFrom s (.page q) m :=
    fun hmem => ⟨q, hq, hext.typeName.symm, hext.route.symm, hread hmem⟩
  rcases List.mem_append.mp hh with hget | haction
  · rcases hext.get h (Option.mem_toList.mp hget) with hmem | ⟨a, ha, b, hb, heq⟩
    · exact .inl (hown (List.mem_append_left _ (Option.mem_toList.mpr hmem)))
    · refine .inr ⟨a, ha, b, List.mem_append_left _ (Option.mem_toList.mpr hb), ?_⟩
      rw [heq]
  · rcases hext.actions h haction with hmem | ⟨a, ha, b, hb, heq⟩
    · exact .inl (hown (List.mem_append_right _ hmem))
    · refine .inr ⟨a, ha, b, List.mem_append_right _ hb, ?_⟩
      rw [heq]

/-- The GET of a page answers GET, also if it is inherited. -/
theorem method_of_mem_get {p : Page} (hp : p ∈ (s.inheritedPages plugins).map Prod.fst)
    {h : Handler} (hh : h ∈ p.get) : h.method = .get := by
  obtain ⟨q, hq, m, rfl, hext⟩ := exists_extends hp
  rcases hext.get h hh with hown | ⟨a, ha, b, hb, rfl⟩
  · exact (((Owner.page q).areReadFrom_handlers s plugins).get h hown).1
  · obtain ⟨r, hr, rfl⟩ := exists_abstractPage ha
    exact (((Owner.abstractPage r).areReadFrom_handlers s plugins).get b hb).1

namespace IsClean

variable (hclean : s.IsClean plugins)
include hclean

/-- The handlers of requests of an abstract page are in order. -/
theorem isSound_of_abstractPage {p : AbstractPage} (hp : p ∈ s.attachedAbstractPages plugins)
    {h : Handler} (hh : h ∈ p.requestHandlers) : h.IsSound s := by
  obtain ⟨q, hq, rfl⟩ := exists_abstractPage hp
  obtain ⟨m, hm, hread⟩ :=
    ((Owner.abstractPage q).areReadFrom_handlers s plugins).exists_isReadFrom hh
  obtain ⟨before, hmethod⟩ := hclean.methods (.abstractPage q) hq m hm
  have hcheck : Check.references q.typeName h ∈ s.checks plugins :=
    List.mem_append_right _ (List.mem_flatMap.mpr ⟨_, hp, List.mem_map_of_mem hh⟩)
  exact Handler.isSound_of_isReadFrom hread hmethod
    (Check.referenceFindings_eq_nil hclean.checks hcheck)

/-- The handlers of requests of a page are in order, whether it declares or inherits them. -/
theorem isSound_of_page {p : Page} (hp : p ∈ (s.inheritedPages plugins).map Prod.fst)
    {h : Handler} (hh : h ∈ p.requestHandlers) : h.IsSound s := by
  rcases exists_request hp hh with ⟨q, hq, hname, -, m, hm, hread⟩ | ⟨a, ha, b, hb, hinherited⟩
  · obtain ⟨before, hmethod⟩ := hclean.methods (.page q) hq m hm
    have hcheck : Check.references p.typeName h ∈ s.checks plugins := by
      refine List.mem_append_left _ (List.mem_flatMap.mpr ⟨p, hp, List.mem_append_right _ ?_⟩)
      exact List.mem_map_of_mem (List.mem_filter.mpr ⟨hh, by simp [hread.inheritedFrom]⟩)
    exact Handler.isSound_of_isReadFrom hread hmethod
      (Check.referenceFindings_eq_nil hclean.checks hcheck)
  · -- the checks pass over what is inherited: it is in order since the abstract page is
    rw [hinherited]
    exact ((hclean.isSound_of_abstractPage ha hb).inheritedBy _).withRoute _

end IsClean

end Setting

end GoPages

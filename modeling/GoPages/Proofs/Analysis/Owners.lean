import GoPages.Proofs.Analysis.Provenance
import GoPages.Proofs.Inheritance.Precedence
import GoPages.Proofs.Owner.Turns

/-!
# What owners declare themselves

The pages of an application have handlers of their own and handlers that they inherit, and its
abstract pages have handlers of their own alone.

* `Owner.own` are the handlers of a page or an abstract page that are not marked as inherited.
* `Setting.own_of_mem_owners`: they are the handlers that the methods of the owner declare. What the
  owner inherits changes nothing about them, nor about how its methods are read.
-/

namespace GoPages

/-! ### Handlers of an owner -/

/-- The handlers that are not inherited. -/
def OwnHandlers.declared (hs : OwnHandlers) : OwnHandlers where
  get := hs.get.filter fun h => h.inheritedFrom.isNone
  actions := hs.actions.filter fun h => h.inheritedFrom.isNone
  eventHandlers := hs.eventHandlers.filter fun h => h.inheritedFrom.isNone

/-- Handlers that are read from methods are not inherited. -/
theorem OwnHandlers.AreReadFrom.declared_eq {s : Setting} {o : Owner} {ms : List Method}
    {hs : OwnHandlers} (h : hs.AreReadFrom s o ms) : hs.declared = hs := by
  obtain ⟨get, actions, eventHandlers⟩ := hs
  have hget : get.filter (fun a => a.inheritedFrom.isNone) = get := by
    cases get with
    | none => rfl
    | some a =>
      obtain ⟨-, m, -, hread⟩ := h.get a rfl
      simp [Option.filter_some, hread.inheritedFrom]
  have hactions : actions.filter (fun a => a.inheritedFrom.isNone) = actions :=
    List.filter_eq_self.mpr fun a ha => by
      obtain ⟨-, m, -, hread⟩ := h.actions a ha
      simp [hread.inheritedFrom]
  have hevents : eventHandlers.filter (fun a => a.inheritedFrom.isNone) = eventHandlers :=
    List.filter_eq_self.mpr fun a ha => by
      obtain ⟨m, -, hread⟩ := h.eventHandlers a ha
      simp [hread.inheritedFrom]
  rw [OwnHandlers.declared, hget, hactions, hevents]

namespace Owner

/-- All handlers of an owner. -/
def allHandlers : Owner → OwnHandlers
  | page p => ⟨p.get, p.actions, p.eventHandlers⟩
  | abstractPage p => ⟨p.get, p.actions, p.eventHandlers⟩

/-- The handlers that an owner does not inherit. -/
def own (o : Owner) : OwnHandlers := o.allHandlers.declared

section WithHandlers

variable (o : Owner) (hs : OwnHandlers)

@[simp] theorem typeName_withHandlers : (o.withHandlers hs).typeName = o.typeName := by
  cases o <;> rfl

@[simp] theorem allHandlers_withHandlers : (o.withHandlers hs).allHandlers = hs := by
  cases o <;> rfl

/-- Methods are attached without regard to the handlers that are there. -/
@[simp] theorem handlers_withHandlers (s : Setting) (plugins : List Plugin) :
    (o.withHandlers hs).handlers s plugins = o.handlers s plugins := by
  cases o <;> rfl

end WithHandlers

end Owner

/-- What a page inherits is marked, so that its own handlers are those that it had before. -/
theorem Owner.own_withOffers {page : Page} {cs : List Contribution}
    {taken : List Offer} :
    (Owner.page (page.withOffers cs taken)).own = (Owner.page page).own := by
  have hactions : (taken.filterMap Offer.action?).filter (fun h => h.inheritedFrom.isNone) = [] :=
    List.filter_eq_nil_iff.mpr fun h hh => by
      obtain ⟨c, a, -, rfl⟩ := Offer.mem_filterMap_action?_iff.mp hh
      simp [Handler.inheritedBy]
  have hevents :
      (taken.filterMap Offer.eventHandler?).filter (fun h => h.inheritedFrom.isNone) = [] :=
    List.filter_eq_nil_iff.mpr fun h hh => by
      obtain ⟨c, a, -, rfl⟩ := Offer.mem_filterMap_eventHandler?_iff.mp hh
      simp [EventHandler.inheritedBy]
  have hget : (page.getFrom cs).filter (fun h => h.inheritedFrom.isNone) =
      page.get.filter fun h => h.inheritedFrom.isNone := by
    cases hown : page.get with
    | some h => simp [Page.getFrom, hown]
    | none =>
      refine Option.filter_eq_none_iff.mpr fun h hh => ?_
      rcases Page.mem_getFrom hh with hmem | ⟨c, -, a, -, rfl⟩
      · simp [hown] at hmem
      · simp [Handler.inheritedBy]
  simp [own, allHandlers, OwnHandlers.declared, Page.withOffers, hactions, hevents, hget]

/-! ### Owners of an application -/

/-- The pages and abstract pages of an application. -/
def App.owners (app : App) : List Owner :=
  app.pages.map .page ++ app.abstractPages.map .abstractPage

namespace Setting

variable {s : Setting} {plugins : List Plugin} {app : App}

/-- An owner with the handlers of its methods has these as its own ones. -/
theorem own_attached {o : Owner} :
    (o.withHandlers (o.handlers s plugins)).own = o.handlers s plugins := by
  rw [Owner.own, Owner.allHandlers_withHandlers, (o.areReadFrom_handlers s plugins).declared_eq]

/-- **Owners and their methods.** A page or an abstract page of an application is one that the
package declares, with handlers. Those of them that it does not inherit are what its methods
declare. -/
theorem own_of_mem_owners (happ : s.app? plugins = some app) {o : Owner} (ho : o ∈ app.owners) :
    (∃ q hs, s.declares q ∧ o = q.withHandlers hs) ∧ o.own = o.handlers s plugins := by
  rw [App.owners, pages_of_app? happ, abstractPages_of_app? happ, List.mem_append] at ho
  rcases ho with ho | ho
  · obtain ⟨p, hp, rfl⟩ := List.mem_map.mp ho
    obtain ⟨q, hq, rfl⟩ := exists_inherit hp
    rw [Page.inherit_eq_withOffers, Owner.own_withOffers]
    exact ⟨⟨.page q, ⟨_, _, _⟩, hq, rfl⟩, own_attached (o := .page q)⟩
  · obtain ⟨p, hp, rfl⟩ := List.mem_map.mp ho
    obtain ⟨q, hq, rfl⟩ := exists_abstractPage hp
    exact ⟨⟨.abstractPage q, _, hq, rfl⟩, own_attached (o := .abstractPage q)⟩

end Setting

end GoPages

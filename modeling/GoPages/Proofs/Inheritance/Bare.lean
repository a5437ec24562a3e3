import GoPages.Proofs.Inheritance.Breadth
import GoPages.Proofs.Owner.Bare

/-!
# Inheritance without additions

What a page inherits does not depend on what plugins have added to handlers. A merge of pages
without additions is the merge of the pages, without the additions (`Merge.bare_add`,
`Page.bare_merged`): it takes the same handlers and finds the same conflicts (`Page.inherit_bare`).
-/

namespace GoPages

/-- The page without additions to its handlers. -/
def Page.bare (p : Page) : Page :=
  p.withHandlers (OwnHandlers.bare ⟨p.get, p.actions, p.eventHandlers⟩)

/-- The abstract page without additions to its handlers. -/
def AbstractPage.bare (p : AbstractPage) : AbstractPage :=
  p.withHandlers (OwnHandlers.bare ⟨p.get, p.actions, p.eventHandlers⟩)

@[simp] theorem Page.bare_withHandlers (p : Page) (hs : OwnHandlers) :
    (p.withHandlers hs).bare = p.withHandlers hs.bare := rfl

@[simp] theorem AbstractPage.bare_withHandlers (p : AbstractPage) (hs : OwnHandlers) :
    (p.withHandlers hs).bare = p.withHandlers hs.bare := rfl

/-! ### Contributions -/

/-- The contribution without additions to its handlers. -/
def Contribution.bare (c : Contribution) : Contribution := { c with page := c.page.bare }

private theorem findAbstract?_map_bare (name : String) (pages : List AbstractPage) :
    findAbstract? name (pages.map AbstractPage.bare) =
      (findAbstract? name pages).map AbstractPage.bare := List.find?_map

private theorem withoutAbstract_map_bare (name : String) (pages : List AbstractPage) :
    withoutAbstract name (pages.map AbstractPage.bare) =
      (withoutAbstract name pages).map AbstractPage.bare := List.filter_map

/-- The same abstract pages can be reached, since embeddings are not added to. -/
private theorem contributions_map_bare (fresh : List AbstractPage) (queue : List EmbedRef) :
    contributions (fresh.map AbstractPage.bare) queue =
      (contributions fresh queue).map Contribution.bare := by
  fun_induction contributions fresh queue with
  | case1 fresh => rw [contributions, List.map_nil]
  | case2 fresh e queue hnone ih =>
    have hbare : findAbstract? e.typeName (fresh.map AbstractPage.bare) = none := by
      rw [findAbstract?_map_bare, hnone, Option.map_none]
    rw [contributions_cons_of_eq_none queue hbare, ih]
  | case3 fresh e queue p hsome _ ih =>
    have hbare : findAbstract? e.typeName (fresh.map AbstractPage.bare) = some p.bare := by
      rw [findAbstract?_map_bare, hsome, Option.map_some]
    rw [contributions_cons_of_eq_some queue hbare, withoutAbstract_map_bare, List.map_cons, ← ih]
    rfl

/-! ### Merging -/

namespace Merge

/-- The merge without additions to the handlers of the page. -/
def bare (m : Merge) : Merge := { m with page := m.page.bare }

@[simp] theorem bare_start (page : Page) : (start page).bare = start page.bare := by
  simp [bare, start, Page.bare, Page.withHandlers, OwnHandlers.bare, Handler.bare,
    EventHandler.bare, Function.comp_def]

variable (m : Merge) (c : Contribution)

/-- A merged GET has the additions of the abstract page, and without them it is the bare one. -/
private theorem bare_addGet (h : Handler) : (m.addGet c h).bare = m.bare.addGet c.bare h.bare := by
  have hclaim : m.bare.getClaim = m.getClaim := rfl
  rw [addGet, addGet, hclaim]
  split <;> rfl

private theorem bare_addAction (h : Handler) :
    (m.addAction c h).bare = m.bare.addAction c.bare h.bare := by
  have hnames : m.bare.names.contains h.bare.methodName = m.names.contains h.methodName := rfl
  rw [addAction, addAction, hnames]
  split
  · rfl
  · simp only [bare, Page.bare, Page.withHandlers, OwnHandlers.bare, List.map_append, List.map_cons,
      List.map_nil]
    rfl

/-- So it is with a merged event handler; additions play no role in who comes first. -/
private theorem bare_addEventHandler (h : EventHandler) :
    (m.addEventHandler c h).bare = m.bare.addEventHandler c.bare h.bare := by
  have hevents : m.bare.events.lookup h.bare.eventType = m.events.lookup h.eventType := rfl
  have hnames : m.bare.names.contains h.bare.methodName = m.names.contains h.methodName := rfl
  rw [addEventHandler, addEventHandler, hevents, hnames]
  split
  · rfl
  · rfl
  · split
    · rfl
    · simp only [bare, Page.bare, Page.withHandlers, OwnHandlers.bare, List.map_append,
        List.map_cons, List.map_nil]
      rfl

private theorem bare_addGet? : (m.addGet? c).bare = m.bare.addGet? c.bare := by
  have hget : c.bare.page.get = c.page.get.map Handler.bare := rfl
  rw [addGet?, addGet?, hget]
  cases c.page.get with
  | none => rfl
  | some h => exact m.bare_addGet c h

private theorem bare_foldl_addAction (hs : List Handler) :
    (hs.foldl (addAction c) m).bare = (hs.map Handler.bare).foldl (addAction c.bare) m.bare := by
  rw [List.foldl_map]
  exact (List.foldl_hom bare fun m h => (m.bare_addAction c h).symm).symm

private theorem bare_foldl_addEventHandler (hs : List EventHandler) :
    (hs.foldl (addEventHandler c) m).bare =
      (hs.map EventHandler.bare).foldl (addEventHandler c.bare) m.bare := by
  rw [List.foldl_map]
  exact (List.foldl_hom bare fun m h => (m.bare_addEventHandler c h).symm).symm

/-- One contribution. -/
theorem bare_add : (m.add c).bare = m.bare.add c.bare := by
  simp only [add]
  rw [bare_foldl_addEventHandler, bare_foldl_addAction, bare_addGet?]
  rfl

end Merge

/-- All contributions. -/
theorem Page.bare_merged (abstracts : List AbstractPage) (page : Page) :
    (page.merged abstracts).bare = page.bare.merged (abstracts.map AbstractPage.bare) := by
  have hembeds : page.bare.embeds = page.embeds := rfl
  rw [merged, merged, hembeds, contributions_map_bare, List.foldl_map, ← Merge.bare_start]
  exact (List.foldl_hom Merge.bare fun m c => (m.bare_add c).symm).symm

/-- What a page inherits and the conflicts are the same without additions. -/
theorem Page.inherit_bare (abstracts : List AbstractPage) (page : Page) :
    page.bare.inherit (abstracts.map AbstractPage.bare) =
      ((page.inherit abstracts).1.bare, (page.inherit abstracts).2) := by
  rw [inherit, inherit, ← bare_merged]
  rfl

end GoPages

import GoPages.Diagnostic
import GoPages.Model

/-!
# Inheritance

A page inherits handlers from the abstract pages that it embeds and from those that these embed.

* `contributions` are the abstract pages that can be reached, each once, in breadth-first order,
  with the place of the embedding that reached it first. Names that no abstract page has are passed
  over.
* `Merge.add` merges one contribution into the page. A page's own GET, methods and event types
  always win. Otherwise the first contribution with a GET, with a method name or with an event type
  wins; a later GET or a later handler of an event type is a conflict, and a later method of a name
  is silently left out.
* `Page.merged` merges all contributions. `Page.inherit` is the page with what it inherits and the
  conflicts, and `Page.inherited` counts on the way what the page has got; `Inherited.between`
  counts it afterwards.
-/

namespace GoPages

/-- An abstract page with the place of the embedding that leads to it. -/
structure Contribution where
  page : AbstractPage
  site : Location

/-- The abstract page with a type name. -/
def findAbstract? (name : String) (pages : List AbstractPage) : Option AbstractPage :=
  pages.find? fun page => page.typeName == name

/-- The abstract pages with other type names. -/
def withoutAbstract (name : String) (pages : List AbstractPage) : List AbstractPage :=
  pages.filter fun page => page.typeName != name

/-- The number of abstract pages and of their embeddings. -/
def embedWeight : List AbstractPage → Nat
  | [] => 0
  | page :: pages => page.embeds.length + 1 + embedWeight pages

private theorem embedWeight_withoutAbstract_le (name : String) (pages : List AbstractPage) :
    embedWeight (withoutAbstract name pages) ≤ embedWeight pages := by
  induction pages with
  | nil => simp [withoutAbstract]
  | cons page pages ih =>
    simp only [withoutAbstract, List.filter_cons] at ih ⊢
    split <;> simp only [embedWeight] <;> omega

/-- A page that is taken out of the map takes its embeddings with it, and one for itself. This is
why the queue, together with the pages left, gets shorter. -/
private theorem embedWeight_withoutAbstract_lt {name : String} {pages : List AbstractPage}
    {page : AbstractPage} (h : findAbstract? name pages = some page) :
    embedWeight (withoutAbstract name pages) + page.embeds.length < embedWeight pages := by
  induction pages with
  | nil => simp [findAbstract?] at h
  | cons first pages ih =>
    by_cases hname : first.typeName = name
    · simp only [findAbstract?, List.find?_cons, hname, beq_self_eq_true, Option.some.injEq] at h
      subst h
      -- later pages of the same name go with it, which only takes more away
      have := embedWeight_withoutAbstract_le name pages
      simp only [withoutAbstract, embedWeight, List.filter_cons, hname, bne_self_eq_false] at this ⊢
      simp only [Bool.false_eq_true, if_false]
      omega
    · have hfind : findAbstract? name pages = some page := by
        simpa [findAbstract?, List.find?_cons, hname] using h
      have := ih hfind
      have hne : (first.typeName != name) = true := by simpa using hname
      simp only [withoutAbstract, List.filter_cons, hne, if_true, embedWeight] at this ⊢
      omega

/-- The contributions along a queue of embeddings, where only the abstract pages `fresh` have not
contributed yet. -/
def contributions (fresh : List AbstractPage) : (queue : List EmbedRef) → List Contribution
  | [] => []
  | embed :: queue =>
    match h : findAbstract? embed.typeName fresh with
    | none => contributions fresh queue
    | some page =>
      have := embedWeight_withoutAbstract_lt h
      ⟨page, embed.location⟩ ::
        contributions (withoutAbstract embed.typeName fresh) (queue ++ page.embeds)
termination_by queue => embedWeight fresh + queue.length
decreasing_by
  · simp only [List.length_cons]
    omega
  · simp only [List.length_cons, List.length_append]
    omega

/-! ### Merging -/

/-- Which abstract page a handler comes from, and where that one was embedded. -/
structure Claim where
  owner : String
  site : Location
deriving DecidableEq

/-- The claim of a contribution. -/
def Contribution.claim (c : Contribution) : Claim := ⟨c.page.typeName, c.site⟩

/-- What a page has inherited. -/
structure Inherited where
  get : Bool
  actions : Nat
  eventHandlers : Nat
deriving DecidableEq, Inhabited

/-- A page while contributions are merged into it. -/
structure Merge where
  page : Page
  /-- Who has the GET: nobody, the page itself, or an abstract page. -/
  getClaim : Option (Option Claim)
  /-- The method names of the actions and event handlers. -/
  names : List String
  /-- Who handles an event type, nobody standing for the page itself. -/
  events : List (String × Option Claim)
  found : List (Location × AnalysisError)
  /-- What the page has inherited so far. -/
  inherited : Inherited

namespace Merge

/-- A page before it inherits anything. -/
def start (page : Page) : Merge where
  page := page
  getClaim := if page.get.isSome then some none else none
  names := page.actions.map Handler.methodName ++ page.eventHandlers.map EventHandler.methodName
  events := page.eventHandlers.map fun h => (h.eventType, none)
  found := []
  inherited := { get := false, actions := 0, eventHandlers := 0 }

/-- Notes a finding. -/
def report (m : Merge) (l : Location) (e : AnalysisError) : Merge :=
  { m with found := m.found ++ [(l, e)] }

section Report

variable (m : Merge) (l : Location) (e : AnalysisError)

@[simp] theorem page_report : (m.report l e).page = m.page := rfl

@[simp] theorem getClaim_report : (m.report l e).getClaim = m.getClaim := rfl

@[simp] theorem names_report : (m.report l e).names = m.names := rfl

@[simp] theorem events_report : (m.report l e).events = m.events := rfl

@[simp] theorem found_report : (m.report l e).found = m.found ++ [(l, e)] := rfl

@[simp] theorem inherited_report : (m.report l e).inherited = m.inherited := rfl

end Report

/-- Merges a GET. It answers under the route of the page. -/
def addGet (m : Merge) (c : Contribution) (h : Handler) : Merge :=
  match m.getClaim with
  | none =>
    { m with
      page := { m.page with
        get := some { h with inheritedFrom := some c.page.typeName, route := m.page.route } }
      getClaim := some (some c.claim)
      inherited := { m.inherited with get := true } }
  | some none => m
  | some (some previous) =>
    m.report c.site
      (.conflictingGetEmbed m.page.typeName c.page.typeName previous.owner previous.site)

/-- Merges an action. -/
def addAction (c : Contribution) (m : Merge) (h : Handler) : Merge :=
  if m.names.contains h.methodName then m
  else
    { m with
      page := { m.page with
        actions := m.page.actions ++ [{ h with inheritedFrom := some c.page.typeName }] }
      names := h.methodName :: m.names
      inherited := { m.inherited with actions := m.inherited.actions + 1 } }

/-- Merges an event handler. -/
def addEventHandler (c : Contribution) (m : Merge) (h : EventHandler) : Merge :=
  match m.events.lookup h.eventType with
  | some none => m
  | some (some previous) =>
    m.report c.site (.conflictingEventHandlerEmbed m.page.typeName h.eventType c.page.typeName
      previous.owner previous.site)
  | none =>
    if m.names.contains h.methodName then m
    else
      { m with
        page := { m.page with
          eventHandlers :=
            m.page.eventHandlers ++ [{ h with inheritedFrom := some c.page.typeName }] }
        names := h.methodName :: m.names
        events := (h.eventType, some c.claim) :: m.events
        inherited := { m.inherited with eventHandlers := m.inherited.eventHandlers + 1 } }

/-- Merges the GET of a contribution, if it has one. -/
def addGet? (m : Merge) (c : Contribution) : Merge :=
  match c.page.get with
  | some h => m.addGet c h
  | none => m

/-- Merges a contribution. -/
def add (m : Merge) (c : Contribution) : Merge :=
  let m := m.addGet? c
  let m := c.page.actions.foldl (addAction c) m
  c.page.eventHandlers.foldl (addEventHandler c) m

end Merge

/-- The page with all contributions merged into it. -/
def Page.merged (abstracts : List AbstractPage) (page : Page) : Merge :=
  (contributions abstracts page.embeds).foldl Merge.add (Merge.start page)

/-- The page with what it inherits, and the conflicts. -/
def Page.inherit (abstracts : List AbstractPage) (page : Page) :
    Page × List (Location × AnalysisError) :=
  let m := page.merged abstracts
  (m.page, m.found)

/-- How much the page inherits. -/
def Page.inherited (abstracts : List AbstractPage) (page : Page) : Inherited :=
  (page.merged abstracts).inherited

/-- What the page `after` has beyond the page `before`. -/
def Inherited.between (before after : Page) : Inherited where
  get := before.get.isNone && after.get.isSome
  actions := after.actions.length - before.actions.length
  eventHandlers := after.eventHandlers.length - before.eventHandlers.length

end GoPages

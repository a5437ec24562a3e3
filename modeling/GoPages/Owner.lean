import GoPages.Model

/-!
# Owners of handlers

Pages and abstract pages own handlers. `OwnHandlers` are the handlers that an owner declares itself,
and `Owner` is a page or an abstract page where it does not matter which.
-/

namespace GoPages

/-- The handlers that a page or an abstract page declares. -/
structure OwnHandlers where
  get : Option Handler
  actions : List Handler
  eventHandlers : List EventHandler
deriving Inhabited

namespace OwnHandlers

/-- No handlers. -/
def empty : OwnHandlers := ⟨none, [], []⟩

/-- Adds a handler of requests. Of several for GET the first one stays. -/
def add (hs : OwnHandlers) (h : Handler) : OwnHandlers :=
  if h.method = .get then { hs with get := hs.get.or (some h) }
  else { hs with actions := hs.actions ++ [h] }

/-- Adds a handler of events. -/
def addEvent (hs : OwnHandlers) (h : EventHandler) : OwnHandlers :=
  { hs with eventHandlers := hs.eventHandlers ++ [h] }

/-- The handler of an event type. -/
def eventHandler? (hs : OwnHandlers) (eventType : String) : Option EventHandler :=
  hs.eventHandlers.find? fun h => h.eventType == eventType

end OwnHandlers

/-- The page with these handlers. -/
def Page.withHandlers (p : Page) (hs : OwnHandlers) : Page :=
  { p with get := hs.get, actions := hs.actions, eventHandlers := hs.eventHandlers }

/-- The abstract page with these handlers. -/
def AbstractPage.withHandlers (p : AbstractPage) (hs : OwnHandlers) : AbstractPage :=
  { p with get := hs.get, actions := hs.actions, eventHandlers := hs.eventHandlers }

/-- A page or an abstract page. -/
inductive Owner where
  | page (p : Page)
  | abstractPage (p : AbstractPage)
deriving Inhabited

namespace Owner

/-- The name of the owner's type. -/
def typeName : Owner → String
  | page p => p.typeName
  | abstractPage p => p.typeName

/-- The route of the owner, if it is a page. -/
def route? : Owner → Option String
  | page p => some p.route
  | abstractPage _ => none

/-- The owner with these handlers. -/
def withHandlers (o : Owner) (hs : OwnHandlers) : Owner :=
  match o with
  | page p => page (p.withHandlers hs)
  | abstractPage p => abstractPage (p.withHandlers hs)

end Owner

end GoPages

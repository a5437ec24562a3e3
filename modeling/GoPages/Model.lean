import GoPages.Conventions.Names
import GoPages.HostType

/-!
# The model of an application

An `App` is what the analysis of a package gives: its pages with their handlers, the abstract pages
that they embed, its events, its session and its hooks. Every part has the location of its
declaration.

* A `Handler` answers a GET request or an action, an `EventHandler` an event. Their parameters and
  results are `Slot`s: a name, a type with the expression it is written as, and a location.
* A handler that a page has from an abstract page says so in `inheritedFrom`.
-/

namespace GoPages

/-- A resolved type with the text of the type expression. -/
structure TypeRef where
  resolved : HostType
  expr : String
deriving Inhabited

/-- A parameter or result of a handler. -/
structure Slot where
  name : String
  type : TypeRef
  location : Location
deriving Inhabited

/-- The parameters of a handler by their roles. -/
structure HandlerInputs where
  request : Option Slot
  sse : Option Slot
  sessionToken : Option Slot
  session : Option Slot
  path : Option Slot
  query : Option Slot
  signals : Option Slot
  dispatch : Option Slot
deriving Inhabited

/-- The results of a handler by their roles. -/
structure HandlerOutputs where
  err : Option Slot
  body : Option Slot
  head : Option Slot
  redirect : Option Slot
  redirectStatus : Option Slot
  newSession : Option Slot
  closeSession : Option Slot
  enableBackgroundStreaming : Option Slot
  disableRefreshAfterHidden : Option Slot
deriving Inhabited

/-- A method that answers requests. -/
structure Handler where
  method : HttpMethod
  methodName : String
  /-- The method name without its verb, empty for GET. -/
  name : String
  route : String
  location : Location
  /-- The abstract page that declares the handler, if the page does not. -/
  inheritedFrom : Option String
  inputs : HandlerInputs
  outputs : HandlerOutputs
  /-- The names of the event types that the handler can dispatch. -/
  dispatchedEvents : List String
  pluginInputs : List Slot
  pluginOutputs : List Slot
deriving Inhabited

/-- A method that reacts to an event. -/
structure EventHandler where
  methodName : String
  /-- The method name without its beginning. -/
  name : String
  eventType : String
  location : Location
  /-- The abstract page that declares the handler, if the page does not. -/
  inheritedFrom : Option String
  event : Option Slot
  sse : Option Slot
  sessionToken : Option Slot
  session : Option Slot
  err : Option Slot
  pluginInputs : List Slot
deriving Inhabited

/-- The kinds of pages. -/
inductive PageKind where
  | ordinary
  | index
  | error404
  | error500
deriving DecidableEq, Inhabited

/-- The embedding of an abstract page, with the location of the field. -/
structure EmbedRef where
  typeName : String
  location : Location
deriving DecidableEq, Inhabited

/-- A page. Its own handlers come before those it inherits. -/
structure Page where
  typeName : String
  route : String
  kind : PageKind
  location : Location
  get : Option Handler
  actions : List Handler
  eventHandlers : List EventHandler
  embeds : List EmbedRef
deriving Inhabited

/-- A page that has no route of its own and can be embedded. -/
structure AbstractPage where
  typeName : String
  location : Location
  get : Option Handler
  actions : List Handler
  eventHandlers : List EventHandler
  embeds : List EmbedRef
deriving Inhabited

/-- An event type. -/
structure Event where
  typeName : String
  subject : String
  /-- Does the event name the users that it is for? -/
  hasTargetUserIds : Bool
  location : Location
deriving DecidableEq, Inhabited

/-- A method of the application itself. -/
structure Hook where
  name : String
  location : Location
  inputs : List Slot
  outputs : List Slot
deriving Inhabited

/-- The session type with its fields. -/
structure SessionShape where
  typeName : String
  location : Location
  fields : List StructField
deriving Inhabited

/-- An application. -/
structure App where
  package : String
  sourceDigest : String
  location : Location
  session : Option SessionShape
  head : Option Hook
  recover500 : Option Hook
  pages : List Page
  abstractPages : List AbstractPage
  events : List Event
deriving Inhabited

/-- The action with a method name. -/
def Page.action? (p : Page) (methodName : String) : Option Handler :=
  p.actions.find? fun h => h.methodName == methodName

/-- The handler of an event type. -/
def Page.eventHandler? (p : Page) (eventType : String) : Option EventHandler :=
  p.eventHandlers.find? fun h => h.eventType == eventType

namespace App

/-- The page with a type name. -/
def page? (app : App) (typeName : String) : Option Page :=
  app.pages.find? fun p => p.typeName == typeName

/-- The abstract page with a type name. -/
def abstractPage? (app : App) (typeName : String) : Option AbstractPage :=
  app.abstractPages.find? fun p => p.typeName == typeName

/-- The event with a type name. -/
def event? (app : App) (typeName : String) : Option Event :=
  app.events.find? fun e => e.typeName == typeName

/-- The first page of a kind. -/
def pageOfKind? (app : App) (kind : PageKind) : Option Page :=
  app.pages.find? fun p => p.kind == kind

end App

end GoPages

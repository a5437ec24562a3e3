import GoPages.Model
import GoPages.Route
import GoPages.Setting
import GoPages.Signature.Shape

/-!
# Checks across declarations

What a handler says in one place has to fit what it, its page or its package says in another one.

* `Handler.routeVarFindings` compares the variables of a handler's route with its path fields.
* `Handler.referenceFindings` looks for dispatched types that are no events, and for query fields
  that reflect a signal which the handler does not have.
* A `Check` is one of these comparisons with the name that findings are under. `Check.findings` runs
  checks in order; the route of a handler is compared once, however many pages have the handler
  under this route.
-/

namespace GoPages

namespace Handler

/-- The names of the variables of a handler's route. -/
def routeVars (h : Handler) : List String := (Route.vars h.route.toList).map String.ofList

/-- The names of the path fields of a handler. -/
def pathNames (h : Handler) : List String :=
  match h.inputs.path with
  | some p => p.type.resolved.tagNames "path"
  | none => []

/-- Path fields that are no variables, and variables without a path field. -/
def routeVarFindings (receiver : String) (h : Handler) : List Finding :=
  ((h.pathNames.filter fun name => !h.routeVars.contains name).map fun name =>
    (h.location, .pathFieldNotInRoute receiver h.methodName name)) ++
  ((h.routeVars.filter fun name => !h.pathNames.contains name).map fun name =>
    (h.location, .pathMissingRouteVar receiver h.methodName name))

/-- Dispatched types that are no events. -/
def dispatchFindings (s : Setting) (receiver : String) (h : Handler) : List Finding :=
  match h.inputs.dispatch with
  | none => []
  | some dispatch =>
    (h.dispatchedEvents.filter fun name => !s.isEventType name).map fun name =>
      (dispatch.location, .dispatchParamNotEvent receiver h.methodName name)

/-- The names of the signals of a handler. -/
def signalNames (h : Handler) : List String :=
  match h.inputs.signals with
  | some p => p.type.resolved.tagNames "json"
  | none => []

/-- Query fields that reflect a signal which the handler does not have. -/
def reflectFindings (receiver : String) (h : Handler) : List Finding :=
  match h.inputs.query with
  | none => []
  | some query =>
    ((query.type.resolved.tagNames "reflectsignal").filter fun name =>
      !h.signalNames.contains name).map fun name =>
        (query.location, .reflectSignalNotInSignals receiver h.methodName name)

/-- Names in a handler that stand for nothing. -/
def referenceFindings (s : Setting) (receiver : String) (h : Handler) : List Finding :=
  h.dispatchFindings s receiver ++ h.reflectFindings receiver

end Handler

/-- The handlers of requests of a page. -/
def Page.requestHandlers (p : Page) : List Handler := p.get.toList ++ p.actions

/-- The handlers of requests of an abstract page. -/
def AbstractPage.requestHandlers (p : AbstractPage) : List Handler := p.get.toList ++ p.actions

/-- A comparison, with the name of the type that findings are under. -/
inductive Check where
  | route (receiver : String) (h : Handler)
  | references (receiver : String) (h : Handler)

namespace Check

/-- The checks of a page with what it inherits. References are checked where a handler is
declared. -/
def ofPage (p : Page) : List Check :=
  (p.requestHandlers.map fun h => route (h.inheritedFrom.getD p.typeName) h) ++
    ((p.requestHandlers.filter fun h => h.inheritedFrom.isNone).map fun h =>
      references p.typeName h)

/-- The checks of an abstract page, which has no route. -/
def ofAbstractPage (p : AbstractPage) : List Check :=
  p.requestHandlers.map fun h => references p.typeName h

/-- What tells the checks of routes apart: the place of the handler, and the route. -/
def key (h : Handler) : Location × String := (h.location, h.route)

/-- Can the route of a handler be compared with its path fields? Both have to be in order. -/
def comparable (invalidPaths : List Location) (h : Handler) : Bool :=
  Route.wellFormed h.route.toList && !invalidPaths.contains h.location

/-- The findings of checks, where routes with the keys `seen` have been compared before. -/
def findings (s : Setting) (invalidPaths : List Location) :
    (seen : List (Location × String)) → List Check → List Finding
  | _, [] => []
  | seen, references receiver h :: rest =>
    h.referenceFindings s receiver ++ findings s invalidPaths seen rest
  | seen, route receiver h :: rest =>
    if comparable invalidPaths h && !seen.contains (key h) then
      h.routeVarFindings receiver ++ findings s invalidPaths (key h :: seen) rest
    else findings s invalidPaths seen rest

end Check

end GoPages

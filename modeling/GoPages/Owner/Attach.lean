import GoPages.Plugin
import GoPages.Signature.Handler

/-!
# Attaching methods to their owners

The methods of a page or an abstract page become its handlers one by one, in the order of the files
and then of the text.

* `Owner.attach` attaches one method: a handler of requests, a handler of an event type that the
  owner does not handle yet, or nothing.
* `Owner.methodFindings` are the findings about a method, given the handlers before it.
* `Owner.handlers` are the handlers that an owner declares, and `Owner.findings` are the findings
  about all of its methods.
-/

namespace GoPages

/-! ### Methods by their names -/

namespace Setting

/-- The method of HTTP that a method name stands for, with the rest of the name. -/
def request? (s : Setting) (name : String) : Option (HttpMethod × String) :=
  match s.conventions.methodKind name with
  | .get => some (.get, "")
  | .action verb suffix => (HttpMethod.ofVerb? verb).map (·, suffix)
  | _ => none

/-- The name of an event handler without its beginning. -/
def eventSuffix? (s : Setting) (name : String) : Option String :=
  match s.conventions.methodKind name with
  | .eventHandler suffix => some suffix
  | _ => none

/-- The finding that a method has the beginning of a name, but not a whole name. -/
def nameFindings (s : Setting) (m : Method) : List Finding :=
  match s.conventions.methodKind m.name with
  | .action verb _ =>
    if s.conventions.isValidActionName verb m.name then []
    else [m.finding (.actionNameInvalid m.receiver m.name)]
  | .eventHandler _ =>
    if s.conventions.isValidEventHandlerName m.name then []
    else [m.finding (.eventHandlerNameInvalid m.receiver m.name)]
  | _ => []

/-- The methods of a type. -/
def methodsOf (s : Setting) (receiver : String) : List Method :=
  (s.package.methodsOf receiver).map fun decl => ⟨receiver, decl⟩

/-- The places of the handlers of requests of a type that have something wrong about their path
parameters. -/
def invalidPaths (s : Setting) (receiver : String) : List Location :=
  ((s.methodsOf receiver).filter fun m =>
    (s.request? m.name).isSome && HandlerInputs.pathIsInvalid s m).map Method.location

end Setting

namespace Owner

/-! ### Routes -/

/-- The route of a handler: that of the page for GET, and else that of the method's comment. -/
def handlerRoute (o : Owner) (m : Method) (method : HttpMethod) : String :=
  if method = .get then o.route?.getD "" else (Route.ofComment m.name m.decl.decl.doc).route

/-- The finding that an action is not under its page, if the page has a route. -/
def nestingFindings (o : Owner) (m : Method) (route : String) : List Finding :=
  match o.route? with
  | none => []
  | some pageRoute =>
    if pageRoute = "" || Route.isUnder route.toList pageRoute.toList then []
    else [m.finding (.actionRouteNotUnderPage m.receiver m.name route pageRoute)]

/-- The findings about the route of a handler. -/
def routeFindings (o : Owner) (m : Method) (method : HttpMethod) : List Finding :=
  if method = .get then []
  else match Route.ofComment m.name m.decl.decl.doc with
    | .notAttempted => [m.finding (.actionMissingRouteComment m.receiver m.name)]
    | .malformed => [m.finding (.actionInvalidRouteComment m.receiver m.name)]
    | .wellFormed route => o.nestingFindings m route

/-! ### One method -/

/-- Adds a handler of requests, with what plugins add to it. Of several for GET the first one
stays. -/
def attachHandler (plugins : List Plugin) (o : Owner) (hs : OwnHandlers) (h : Handler) :
    OwnHandlers :=
  hs.add (HandlerContext.extended plugins ⟨o.withHandlers (hs.add h), h⟩)

/-- Adds a handler of events, with what plugins add to it. Of several for an event type the first
one stays. -/
def attachEventHandler (plugins : List Plugin) (o : Owner) (hs : OwnHandlers) (h : EventHandler) :
    OwnHandlers :=
  if (hs.eventHandler? h.eventType).isSome then hs
  else hs.addEvent (EventHandlerContext.extended plugins ⟨o.withHandlers (hs.addEvent h), h⟩)

/-- The event handler that a method declares, if its name is one of an event handler. -/
def eventHandler? (s : Setting) (m : Method) : Option EventHandler :=
  (s.eventSuffix? m.name).bind (EventHandler.read? s m)

/-- Attaches a method to an owner with the handlers `hs`. -/
def attach (s : Setting) (plugins : List Plugin) (o : Owner) (hs : OwnHandlers) (m : Method) :
    OwnHandlers :=
  match s.request? m.name with
  | some (method, name) =>
    attachHandler plugins o hs (Handler.read s m method name (o.handlerRoute m method))
  | none =>
    match eventHandler? s m with
    | some h => attachEventHandler plugins o hs h
    | none => hs

/-- The finding that an event type has a handler already. -/
def duplicateFindings (s : Setting) (hs : OwnHandlers) (m : Method) : List Finding :=
  match eventHandler? s m with
  | none => []
  | some h =>
    match hs.eventHandler? h.eventType with
    | none => []
    | some previous =>
      [m.finding (.duplicateEventHandler m.receiver m.name h.eventType
        previous.location.normalized)]

/-- The findings about a method of an owner with the handlers `hs`. -/
def methodFindings (s : Setting) (o : Owner) (hs : OwnHandlers) (m : Method) : List Finding :=
  s.nameFindings m ++
    match s.request? m.name with
    | some (method, _) => Handler.findings s m method ++ o.routeFindings m method
    | none =>
      if (s.eventSuffix? m.name).isSome then
        EventHandler.findings s m ++ duplicateFindings s hs m
      else []

/-! ### All methods -/

/-- The handlers that an owner declares. -/
def handlers (s : Setting) (plugins : List Plugin) (o : Owner) : OwnHandlers :=
  (s.methodsOf o.typeName).foldl (o.attach s plugins) .empty

/-- The findings about methods of an owner, the first of which follow the handlers `hs`. -/
def findingsAfter (s : Setting) (plugins : List Plugin) (o : Owner) :
    OwnHandlers → List Method → List Finding
  | _, [] => []
  | hs, m :: ms =>
    o.methodFindings s hs m ++ findingsAfter s plugins o (o.attach s plugins hs m) ms

/-- Each method is judged after the handlers that the methods before it have left. -/
theorem mem_findingsAfter_iff {s : Setting} {plugins : List Plugin} {o : Owner} {hs : OwnHandlers}
    {ms : List Method} {f : Finding} :
    f ∈ findingsAfter s plugins o hs ms ↔ ∃ before m after, ms = before ++ m :: after ∧
      f ∈ o.methodFindings s (before.foldl (o.attach s plugins) hs) m := by
  induction ms generalizing hs with
  | nil => simp [findingsAfter]
  | cons a ms ih =>
    rw [findingsAfter, List.mem_append, ih]
    constructor
    · rintro (hf | ⟨before, m, after, rfl, hf⟩)
      · exact ⟨[], a, ms, rfl, hf⟩
      · exact ⟨a :: before, m, after, rfl, hf⟩
    · rintro ⟨before, m, after, hsplit, hf⟩
      -- the first method is either the one in question or one that is attached before it
      cases before with
      | nil =>
        cases hsplit
        exact .inl hf
      | cons b before =>
        cases hsplit
        exact .inr ⟨before, m, after, rfl, hf⟩

/-- The findings about the methods of an owner. -/
def findings (s : Setting) (plugins : List Plugin) (o : Owner) : List Finding :=
  findingsAfter s plugins o .empty (s.methodsOf o.typeName)

end Owner

end GoPages

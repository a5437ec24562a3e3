import GoPages.Route.Comment
import GoPages.Signature.Inputs
import GoPages.Signature.Outputs

/-!
# Handlers as methods declare them

* `Handler.read` is the handler of requests that a method declares, and `Handler.findings` are the
  findings about its signature. Whatever is wrong with the signature, there is a handler.
* `EventHandler.read?` is the event handler that a method declares. There is none if the method does
  not say which event type it handles (`EventHandler.event?`).
* `Hook.read` is a hook of the application, whose signature is not looked into.
-/

namespace GoPages

namespace Handler

/-- The handler of requests that a method declares. -/
def read (s : Setting) (m : Method) (method : HttpMethod) (name route : String) : Handler where
  method := method
  methodName := m.name
  name := name
  route := route
  location := m.location
  inheritedFrom := none
  inputs := HandlerInputs.read s m
  outputs := HandlerOutputs.read s m method
  dispatchedEvents := HandlerInputs.dispatched s m
  pluginInputs := []
  pluginOutputs := []

/-- The findings about the signature of a method that handles requests. -/
def findings (s : Setting) (m : Method) (method : HttpMethod) : List Finding :=
  HandlerInputs.findings s m ++ HandlerOutputs.findings s m method (HandlerInputs.read s m).sse

end Handler

namespace EventHandler

/-- The parameter for the event, if the first parameter has the name for it, and the others. -/
def eventParam? : List Parameter → Option (Parameter × List Parameter)
  | p :: params => if p.name = "event" then some (p, params) else none
  | [] => none

/-- The event type that a method handles, with the parameter for the event and the others, or what
is wrong with the first parameter. -/
def event? (s : Setting) (m : Method) : Except Finding (String × Parameter × List Parameter) :=
  match eventParam? (m.params s.package) with
  | none => .error (m.finding (.eventHandlerFirstArgNotEvent m.receiver m.name))
  | some (p, params) =>
    match s.eventOf? p.type with
    | none =>
      .error (p.finding (.eventHandlerFirstArgTypeNotEvent m.receiver m.name p.type.render))
    | some event => .ok (event, p, params)

/-- The result of a method with exactly one result, an error. -/
def result? (s : Setting) (m : Method) : Option Parameter :=
  match m.results s.package with
  | [r] => if r.type.isError then some r else none
  | _ => none

/-- The roles of the parameters after the event. -/
def assign (s : Setting) (params : List Parameter) : Assignment :=
  s.assign [.sse, .sessionToken, .session] params

/-- The event handler that a method declares. -/
def read? (s : Setting) (m : Method) (name : String) : Option EventHandler :=
  match event? s m with
  | .error _ => none
  | .ok (event, p, params) =>
    let a := assign s params
    some
      { methodName := m.name
        name := name
        eventType := event
        location := m.location
        inheritedFrom := none
        event := some p.slot
        sse := a.slot? .sse
        sessionToken := a.slot? .sessionToken
        session := a.slot? .session
        err := (result? s m).map Parameter.slot
        pluginInputs := [] }

/-- The findings about the parameters of a method that handles an event. -/
def inputFindings (s : Setting) (m : Method) : List Finding :=
  match event? s m with
  | .error found => [found]
  | .ok (_, _, params) =>
    let a := assign s params
    (if (a.slot? .sse).isSome then []
    else [m.finding (.eventHandlerSecondArgNotSse m.receiver m.name)]) ++ a.findings s m

/-- The findings about the signature of a method that handles an event. -/
def findings (s : Setting) (m : Method) : List Finding :=
  inputFindings s m ++
    if (result? s m).isSome then []
    else [m.finding (.eventHandlerReturnMustBeError m.receiver m.name)]

end EventHandler

/-- The hook that a method of the application declares. -/
def Hook.read (s : Setting) (m : Method) : Hook where
  name := m.name
  location := m.location
  inputs := (m.params s.package).map Parameter.slot
  outputs := (m.results s.package).map Parameter.slot

end GoPages

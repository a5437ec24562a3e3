import GoPages.HostType.Render
import GoPages.Signature.Parameter

/-!
# The results of handlers

The results of a handler have roles by their names, and the error has its role by its type.

* `OutputRole.accepts` says which types a role admits.
* `HandlerOutputs.judge` gives a result its role, or says what is wrong with it. The results before
  it count: the first component of a GET is its body, and the second one its head.
* Of several results with a role the last one counts, but of several errors the first.
-/

namespace GoPages

/-- The roles of results. -/
inductive OutputRole where
  | err
  | body
  | head
  | redirect
  | redirectStatus
  | newSession
  | closeSession
  | enableBackgroundStreaming
  | disableRefreshAfterHidden
deriving DecidableEq

namespace OutputRole

/-- The name of a result with the role. -/
def text : OutputRole → String
  | err => "err"
  | body => "body"
  | head => "head"
  | redirect => "redirect"
  | redirectStatus => "redirectStatus"
  | newSession => "newSession"
  | closeSession => "closeSession"
  | enableBackgroundStreaming => "enableBackgroundStreaming"
  | disableRefreshAfterHidden => "disableRefreshAfterHidden"

/-- All roles. -/
def all : List OutputRole :=
  [err, body, head, redirect, redirectStatus, newSession, closeSession, enableBackgroundStreaming,
   disableRefreshAfterHidden]

/-- The role that a name stands for. -/
def ofName? (name : String) : Option OutputRole := all.find? fun role => role.text == name

/-- The name of a role is read back. -/
theorem ofName?_text (role : OutputRole) : ofName? role.text = some role := by
  cases role <;> decide

/-- Does the role admit the type? -/
def accepts (s : Setting) (role : OutputRole) (type : HostType) : Bool :=
  match role with
  | err => type.isError
  | body => s.conventions.componentType.accepts type
  | head => s.conventions.componentType.accepts type
  | redirect => s.package.isBasicUnderlying "string" type
  | redirectStatus => s.package.isBasicUnderlying "int" type
  | newSession => s.isSession type
  | closeSession => s.package.isBasicUnderlying "bool" type
  | enableBackgroundStreaming => s.package.isBasicUnderlying "bool" type
  | disableRefreshAfterHidden => s.package.isBasicUnderlying "bool" type

/-- The type that the role admits, as messages name it. -/
def expected (c : Conventions) : OutputRole → String
  | err => "error"
  | body => c.componentType.toHostType.render
  | head => c.componentType.toHostType.render
  | redirect => "string"
  | redirectStatus => "int"
  | newSession => c.sessionType
  | closeSession => "bool"
  | enableBackgroundStreaming => "bool"
  | disableRefreshAfterHidden => "bool"

end OutputRole

namespace HandlerOutputs

/-! ### Single results -/

/-- Is the result a component? -/
def isComponent (s : Setting) (r : Parameter) : Bool := s.conventions.componentType.accepts r.type

/-- What is wrong with the name of a component of a GET after the results `before`. -/
def componentError? (s : Setting) (m : Method) (before : List Parameter) (r : Parameter) :
    Option AnalysisError :=
  match (before.filter (isComponent s)).length with
  | 0 => if r.name = "body" then none else some (.getBodyWrongName m.receiver m.name r.name)
  | 1 => if r.name = "head" then none else some (.getHeadWrongName m.receiver m.name r.name)
  | _ => none

/-- The role of a result by its name, or what is wrong with it. -/
def judgeName (s : Setting) (m : Method) (r : Parameter) : Except AnalysisError OutputRole :=
  match OutputRole.ofName? r.name with
  | none => .error (.unknownOutput m.receiver m.name r.label)
  | some role =>
    if role.accepts s r.type then .ok role
    else .error (.outputWrongType m.receiver m.name r.name (role.expected s.conventions))

/-- The role of a result after the results `before`, or what is wrong with it. -/
def judge (s : Setting) (m : Method) (method : HttpMethod) (before : List Parameter)
    (r : Parameter) : Except AnalysisError OutputRole :=
  if r.type.isError then .ok .err
  else if method = .get && isComponent s r then
    match componentError? s m before r with
    | some e => .error e
    | none => judgeName s m r
  else judgeName s m r

/-- The findings about a result after the results `before`. The second error is noted at the
method. -/
def resultFindings (s : Setting) (m : Method) (method : HttpMethod) (before : List Parameter)
    (r : Parameter) : List Finding :=
  match judge s m method before r with
  | .error e => [r.finding e]
  | .ok .err =>
    if (before.filter fun q => q.type.isError).length = 1 then
      [m.finding (.multipleErrorResults m.receiver m.name)]
    else []
  | .ok _ => []

/-! ### All results -/

/-- What `f` says about every item, given the items before it. -/
def withEarlier {α β : Type} (f : List α → α → β) : (before items : List α) → List β
  | _, [] => []
  | before, a :: rest => f before a :: withEarlier f (before ++ [a]) rest

/-- The role of a result with the result, if nothing is wrong with it. -/
def filled? (s : Setting) (m : Method) (method : HttpMethod) (before : List Parameter)
    (r : Parameter) : Option (OutputRole × Parameter) :=
  match judge s m method before r with
  | .error _ => none
  | .ok role => some (role, r)

/-- The results that have a role, in their order. -/
def filled (s : Setting) (m : Method) (method : HttpMethod) : List (OutputRole × Parameter) :=
  (withEarlier (filled? s m method) [] (m.results s.package)).filterMap id

/-- The results of a handler by their roles. -/
def ofFilled (filled : List (OutputRole × Parameter)) : HandlerOutputs :=
  let first (role : OutputRole) : Option Slot := (filled.lookup role).map Parameter.slot
  let last (role : OutputRole) : Option Slot := (filled.reverse.lookup role).map Parameter.slot
  { err := first .err
    body := last .body
    head := last .head
    redirect := last .redirect
    redirectStatus := last .redirectStatus
    newSession := last .newSession
    closeSession := last .closeSession
    enableBackgroundStreaming := last .enableBackgroundStreaming
    disableRefreshAfterHidden := last .disableRefreshAfterHidden }

/-- The results of a method that handles requests. -/
def read (s : Setting) (m : Method) (method : HttpMethod) : HandlerOutputs :=
  ofFilled (filled s m method)

/-- Can the result be meant as the body of a GET? Every component can. -/
def isBodyAttempt (s : Setting) (r : Parameter) : Bool :=
  !r.type.isError && (isComponent s r || r.name == "body")

/-- Notes an output that is present. -/
def noteOutput (m : Method) (e : String → AnalysisError) (role : OutputRole)
    (slot : Option Slot) : List Finding :=
  if slot.isSome then [m.finding (e role.text)] else []

/-- The findings about the results together, for a handler with or without an SSE parameter. -/
def jointFindings (s : Setting) (m : Method) (method : HttpMethod) (sse : Option Slot) :
    List Finding :=
  let outputs := read s m method
  (if method = .get && !(m.results s.package).any (isBodyAttempt s) then
    [m.finding (.getMissingBody m.receiver m.name)] else []) ++
  (if outputs.redirectStatus.isSome && outputs.redirect.isNone then
    [m.finding (.redirectStatusWithoutRedirect m.receiver m.name)] else []) ++
  (if sse.isSome then
    noteOutput m (.sessionOutputWithSse m.receiver m.name) .newSession outputs.newSession ++
    noteOutput m (.sessionOutputWithSse m.receiver m.name) .closeSession outputs.closeSession
  else []) ++
  (if method = .get then []
  else
    noteOutput m (.getOnlyOutput m.receiver m.name) .enableBackgroundStreaming
      outputs.enableBackgroundStreaming ++
    noteOutput m (.getOnlyOutput m.receiver m.name) .disableRefreshAfterHidden
      outputs.disableRefreshAfterHidden)

/-- The findings about the results of a method that handles requests. -/
def findings (s : Setting) (m : Method) (method : HttpMethod) (sse : Option Slot) : List Finding :=
  (withEarlier (resultFindings s m method) [] (m.results s.package)).flatten ++
    jointFindings s m method sse

end HandlerOutputs

end GoPages

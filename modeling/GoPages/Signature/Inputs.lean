import GoPages.Signature.Shape

/-!
# The parameters of handlers

The parameters of a handler stand in a fixed order of roles, and a role may be left out.

* `Setting.recognizes` says whether a parameter can have a role: some roles are recognized by the
  type, others by the name.
* `Setting.assign` gives parameters the earliest roles in order: a role that the next parameter
  cannot have is passed over. The parameters from the first one that can have none of the roles left
  are unknown. Together the assigned and the unknown parameters are the given ones
  (`params_assign_append_rest`), and the assigned roles are some of the given roles in order
  (`roles_assign_sublist`).
* `Assignment.findings` are the findings about an assignment.
-/

namespace GoPages

/-- The roles of parameters. -/
inductive InputRole where
  | request
  | sse
  | sessionToken
  | session
  | struct (k : StructInput)
  | dispatch
deriving DecidableEq

/-- Parameters with their roles. -/
structure Assignment where
  assigned : List (InputRole × Parameter)
  /-- The parameters without a role. -/
  rest : List Parameter

/-- The assignment with one more parameter at its beginning. -/
def Assignment.cons (role : InputRole) (p : Parameter) (a : Assignment) : Assignment :=
  ⟨(role, p) :: a.assigned, a.rest⟩

namespace Setting

/-- Can the parameter have the role? -/
def recognizes (s : Setting) : InputRole → Parameter → Bool
  | .request, p => s.conventions.requestType.accepts p.type
  | .sse, p => s.conventions.sseType.accepts p.type
  | .sessionToken, p => p.name == "sessionToken"
  | .session, p => p.name == "session"
  | .struct k, p => p.name == k.name
  | .dispatch, p => p.name == "dispatch"

/-- Gives parameters the earliest of the roles, in order. -/
def assign (s : Setting) : List InputRole → List Parameter → Assignment
  | _, [] => ⟨[], []⟩
  | [], params => ⟨[], params⟩
  | role :: roles, p :: params =>
    if s.recognizes role p then (s.assign roles params).cons role p
    else s.assign roles (p :: params)

/-- The parameters with roles and the ones left over are the given parameters in order. -/
theorem params_assign_append_rest (s : Setting) (roles : List InputRole) (params : List Parameter) :
    (s.assign roles params).assigned.map Prod.snd ++ (s.assign roles params).rest = params := by
  fun_induction assign s roles params <;> simp_all [Assignment.cons]

/-- The roles that are given out are some of the given ones, in their order. -/
theorem roles_assign_sublist (s : Setting) (roles : List InputRole) (params : List Parameter) :
    ((s.assign roles params).assigned.map Prod.fst).Sublist roles := by
  fun_induction assign s roles params <;> simp_all [Assignment.cons]

/-- A parameter with a role can have it. -/
theorem recognizes_of_mem_assigned {s : Setting} {roles : List InputRole} {params : List Parameter}
    {role : InputRole} {p : Parameter} (h : (role, p) ∈ (s.assign roles params).assigned) :
    s.recognizes role p := by
  fun_induction assign s roles params <;> grind [Assignment.cons]

/-! ### Findings -/

/-- A parameter of the wrong type. -/
def wrongInput (m : Method) (p : Parameter) (expected : String) : Finding :=
  p.finding (.inputWrongType m.receiver m.name p.name expected)

/-- The findings about a parameter in its role. -/
def roleFindings (s : Setting) (m : Method) (role : InputRole) (p : Parameter) : List Finding :=
  match role with
  | .request => []
  | .sse => []
  | .sessionToken =>
    if s.package.isBasicUnderlying "string" p.type then [] else [wrongInput m p "string"]
  | .session =>
    if s.isSession p.type then [] else [wrongInput m p s.conventions.sessionType]
  | .struct k => (k.error? s.package m p).toList.map p.finding
  | .dispatch => (Dispatch.error? m p.type).toList.map p.finding

end Setting

namespace Assignment

/-- The parameter that has a role. -/
def param? (a : Assignment) (role : InputRole) : Option Parameter := a.assigned.lookup role

/-- The parameter that has a role, in the model. -/
def slot? (a : Assignment) (role : InputRole) : Option Slot := (a.param? role).map Parameter.slot

/-- The finding that a parameter has no role. -/
def unknown (m : Method) (p : Parameter) : Finding :=
  p.finding (.unknownInput m.receiver m.name p.label)

/-- The findings about the parameters in their order. -/
def findings (s : Setting) (m : Method) (a : Assignment) : List Finding :=
  (a.assigned.flatMap fun (role, p) => s.roleFindings m role p) ++ a.rest.map (unknown m)

end Assignment

/-! ### Handlers of requests -/

namespace HandlerInputs

/-- The roles after the request, in their order. -/
def roles : List InputRole :=
  [.sse, .sessionToken, .session, .struct .path, .struct .query, .struct .signals, .dispatch]

/-- The roles of the parameters of a handler, unless the first one is not the request. -/
def assign? (s : Setting) : List Parameter → Option Assignment
  | [] => none
  | p :: params =>
    if s.recognizes .request p then some ((s.assign roles params).cons .request p) else none

/-- The parameters of a handler by their roles. -/
def ofAssignment (a : Assignment) : HandlerInputs where
  request := a.slot? .request
  sse := a.slot? .sse
  sessionToken := a.slot? .sessionToken
  session := a.slot? .session
  path := a.slot? (.struct .path)
  query := a.slot? (.struct .query)
  signals := a.slot? (.struct .signals)
  dispatch := a.slot? .dispatch

/-- No parameters. -/
def empty : HandlerInputs := ⟨none, none, none, none, none, none, none, none⟩

/-- The parameters of a method that handles requests. -/
def read (s : Setting) (m : Method) : HandlerInputs :=
  match assign? s (m.params s.package) with
  | some a => ofAssignment a
  | none => empty

/-- The findings about the parameters of a method that handles requests. -/
def findings (s : Setting) (m : Method) : List Finding :=
  match assign? s (m.params s.package) with
  | some a => a.findings s m
  | none => [m.finding (.missingRequest m.receiver m.name)]

/-- The names of the types that a handler dispatches. -/
def dispatched (s : Setting) (m : Method) : List String :=
  match (assign? s (m.params s.package)).bind (·.param? .dispatch) with
  | some p => Dispatch.eventNames s.package m p.type
  | none => []

/-- Has the handler a path parameter with something wrong about it? -/
def pathIsInvalid (s : Setting) (m : Method) : Bool :=
  match (assign? s (m.params s.package)).bind (·.param? (.struct .path)) with
  | some p => (StructInput.path.error? s.package m p).isSome
  | none => false

end HandlerInputs

end GoPages

import GoPages.Proofs.Helpers.Package
import GoPages.Signature.Handler

/-!
# Signatures without other functions

What a method declares, and what is found about its signature, depends on the method and on the
types of the package, but not on its other functions (`Handler.read_withoutFuncs`,
`Handler.findings_withoutFuncs`, `EventHandler.read?_withoutFuncs`,
`EventHandler.findings_withoutFuncs`, `Hook.read_withoutFuncs`).
-/

namespace GoPages

/-! ### Methods and their parameters -/

namespace Method

/-- The method, with its file without functions. -/
def withoutFuncs (m : Method) : Method := ⟨m.receiver, m.decl.withoutFuncs⟩

variable (m : Method) (p : Package)

private theorem resolved_withoutFuncs (decls : List Param) :
    m.withoutFuncs.resolved p.withoutFuncs decls = m.resolved p decls := by
  have hdecl : m.withoutFuncs.decl = m.decl.withoutFuncs := rfl
  rw [resolved, resolved, hdecl, Package.methodScope_withoutFuncs]

private theorem params_withoutFuncs : m.withoutFuncs.params p.withoutFuncs = m.params p :=
  m.resolved_withoutFuncs p m.decl.decl.type.params

private theorem results_withoutFuncs : m.withoutFuncs.results p.withoutFuncs = m.results p :=
  m.resolved_withoutFuncs p m.decl.decl.type.results

end Method

/-! ### The roles of parameters -/

namespace Setting

variable (s : Setting) (m : Method)

/-- Which roles a parameter can have depends on types only. -/
private theorem recognizes_withoutFuncs : s.withoutFuncs.recognizes = s.recognizes := by
  funext role p
  cases role <;> rfl

private theorem assign_withoutFuncs (roles : List InputRole) (params : List Parameter) :
    s.withoutFuncs.assign roles params = s.assign roles params := by
  fun_induction assign s roles params with
  | case1 roles => rw [assign]
  | case2 params hparams => rw [assign.eq_2 _ _ hparams]
  | case3 role roles p params hrole ih => rw [assign, recognizes_withoutFuncs, if_pos hrole, ih]
  | case4 role roles p params hrole ih => rw [assign, recognizes_withoutFuncs, if_neg hrole, ih]

end Setting

/-! ### The shape of parameters -/

section Shape

variable (p : Package) (m : Method)

private theorem StructInput.fieldError?_withoutFuncs (k : StructInput) :
    k.fieldError? p.withoutFuncs m.withoutFuncs = k.fieldError? p m := by
  funext f
  rw [fieldError?, fieldError?, Package.isBasicUnderlying_withoutFuncs]
  rfl

private theorem StructInput.error?_withoutFuncs (k : StructInput) (param : Parameter) :
    k.error? p.withoutFuncs m.withoutFuncs param = k.error? p m param := by
  rw [error?, error?, fieldError?_withoutFuncs]
  rfl

private theorem Dispatch.eventNames_withoutFuncs (type : HostType) :
    eventNames p.withoutFuncs m.withoutFuncs type = eventNames p m type := by
  have hname : eventName p.withoutFuncs = eventName p := by
    funext type
    rw [eventName, eventName, Package.unalias_withoutFuncs]
  have hparams : eventParams m.withoutFuncs type = eventParams m type := rfl
  rw [eventNames, eventNames, hname, hparams]

end Shape

/-! ### Findings about parameters -/

private theorem Setting.roleFindings_withoutFuncs (s : Setting) (m : Method) :
    s.withoutFuncs.roleFindings m.withoutFuncs = s.roleFindings m := by
  funext role p
  cases role with
  | sessionToken =>
    rw [roleFindings, roleFindings, package_withoutFuncs, Package.isBasicUnderlying_withoutFuncs]
    rfl
  | session =>
    rw [roleFindings, roleFindings, isSession_withoutFuncs]
    rfl
  | struct k =>
    rw [roleFindings, roleFindings, package_withoutFuncs, StructInput.error?_withoutFuncs]
  | _ => rfl

/-- So does what is found about the parameters of a method. -/
theorem Assignment.findings_withoutFuncs (s : Setting) (m : Method) (a : Assignment) :
    a.findings s.withoutFuncs m.withoutFuncs = a.findings s m := by
  rw [findings, findings, Setting.roleFindings_withoutFuncs]
  rfl

/-! ### Inputs of handlers -/

namespace HandlerInputs

variable (s : Setting) (m : Method)

private theorem assign?_withoutFuncs (params : List Parameter) :
    assign? s.withoutFuncs params = assign? s params := by
  cases params with
  | nil => rfl
  | cons p params =>
    rw [assign?, assign?, Setting.recognizes_withoutFuncs, Setting.assign_withoutFuncs]

/-- The assignment of a method's parameters. -/
theorem assign?_params_withoutFuncs :
    assign? s.withoutFuncs (m.withoutFuncs.params s.withoutFuncs.package) =
      assign? s (m.params s.package) := by
  rw [Setting.package_withoutFuncs, Method.params_withoutFuncs, assign?_withoutFuncs]

/-- So does how the parameters are read. -/
theorem read_withoutFuncs : read s.withoutFuncs m.withoutFuncs = read s m := by
  rw [read, read, assign?_params_withoutFuncs]

theorem findings_withoutFuncs : findings s.withoutFuncs m.withoutFuncs = findings s m := by
  rw [findings, findings, assign?_params_withoutFuncs]
  simp only [Assignment.findings_withoutFuncs]
  rfl

private theorem dispatched_withoutFuncs :
    dispatched s.withoutFuncs m.withoutFuncs = dispatched s m := by
  rw [dispatched, dispatched, assign?_params_withoutFuncs]
  simp only [Setting.package_withoutFuncs, Dispatch.eventNames_withoutFuncs]

theorem pathIsInvalid_withoutFuncs :
    pathIsInvalid s.withoutFuncs m.withoutFuncs = pathIsInvalid s m := by
  rw [pathIsInvalid, pathIsInvalid, assign?_params_withoutFuncs]
  simp only [Setting.package_withoutFuncs, StructInput.error?_withoutFuncs]

end HandlerInputs

/-! ### Outputs of handlers -/

private theorem OutputRole.accepts_withoutFuncs (s : Setting) (role : OutputRole) :
    role.accepts s.withoutFuncs = role.accepts s := by
  funext type
  cases role with
  | err | body | head => rfl
  | newSession => rw [accepts, accepts, Setting.isSession_withoutFuncs]
  | _ =>
    rw [accepts, accepts, Setting.package_withoutFuncs, Package.isBasicUnderlying_withoutFuncs]

namespace HandlerOutputs

variable (s : Setting) (m : Method) (method : HttpMethod)

/-- The role of a result depends on types only. -/
private theorem judge_withoutFuncs : judge s.withoutFuncs m.withoutFuncs = judge s m := by
  funext method before r
  have hname : judgeName s.withoutFuncs m.withoutFuncs r = judgeName s m r := by
    rw [judgeName, judgeName]
    simp only [OutputRole.accepts_withoutFuncs]
    rfl
  rw [judge, judge, hname]
  rfl

private theorem resultFindings_withoutFuncs :
    resultFindings s.withoutFuncs m.withoutFuncs = resultFindings s m := by
  funext method before r
  rw [resultFindings, resultFindings, judge_withoutFuncs]
  rfl

theorem read_withoutFuncs :
    read s.withoutFuncs m.withoutFuncs method = read s m method := by
  have hfilled : filled? s.withoutFuncs m.withoutFuncs method = filled? s m method := by
    funext before r
    rw [filled?, filled?, judge_withoutFuncs]
  rw [read, read, filled, filled, hfilled, Setting.package_withoutFuncs,
    Method.results_withoutFuncs]

theorem findings_withoutFuncs (sse : Option Slot) :
    findings s.withoutFuncs m.withoutFuncs method sse = findings s m method sse := by
  have hjoint : jointFindings s.withoutFuncs m.withoutFuncs method sse =
      jointFindings s m method sse := by
    rw [jointFindings, jointFindings, read_withoutFuncs, Setting.package_withoutFuncs,
      Method.results_withoutFuncs]
    rfl
  rw [findings, findings, resultFindings_withoutFuncs, Setting.package_withoutFuncs,
    Method.results_withoutFuncs, hjoint]

end HandlerOutputs

/-! ### Handlers -/

namespace Handler

variable (s : Setting) (m : Method) (method : HttpMethod)

theorem read_withoutFuncs (name route : String) :
    read s.withoutFuncs m.withoutFuncs method name route = read s m method name route := by
  rw [read, read, HandlerInputs.read_withoutFuncs, HandlerOutputs.read_withoutFuncs,
    HandlerInputs.dispatched_withoutFuncs]
  rfl

theorem findings_withoutFuncs :
    findings s.withoutFuncs m.withoutFuncs method = findings s m method := by
  rw [findings, findings, HandlerInputs.findings_withoutFuncs, HandlerInputs.read_withoutFuncs,
    HandlerOutputs.findings_withoutFuncs]

end Handler

namespace EventHandler

variable (s : Setting) (m : Method)

private theorem event?_withoutFuncs : event? s.withoutFuncs m.withoutFuncs = event? s m := by
  rw [event?, event?, Setting.package_withoutFuncs, Method.params_withoutFuncs,
    Setting.eventOf?_withoutFuncs]
  rfl

private theorem result?_withoutFuncs : result? s.withoutFuncs m.withoutFuncs = result? s m := by
  rw [result?, result?, Setting.package_withoutFuncs, Method.results_withoutFuncs]

private theorem assign_withoutFuncs : assign s.withoutFuncs = assign s :=
  funext (s.assign_withoutFuncs [.sse, .sessionToken, .session])

theorem read?_withoutFuncs (name : String) :
    read? s.withoutFuncs m.withoutFuncs name = read? s m name := by
  rw [read?, read?, event?_withoutFuncs, assign_withoutFuncs, result?_withoutFuncs]
  rfl

theorem findings_withoutFuncs : findings s.withoutFuncs m.withoutFuncs = findings s m := by
  have hinputs : inputFindings s.withoutFuncs m.withoutFuncs = inputFindings s m := by
    rw [inputFindings, inputFindings, event?_withoutFuncs, assign_withoutFuncs]
    simp only [Assignment.findings_withoutFuncs]
    rfl
  rw [findings, findings, hinputs, result?_withoutFuncs]
  rfl

end EventHandler

/-- A hook is read without a look at other functions. -/
theorem Hook.read_withoutFuncs (s : Setting) (m : Method) :
    read s.withoutFuncs m.withoutFuncs = read s m := by
  rw [read, read, Setting.package_withoutFuncs, Method.params_withoutFuncs,
    Method.results_withoutFuncs]
  rfl

end GoPages

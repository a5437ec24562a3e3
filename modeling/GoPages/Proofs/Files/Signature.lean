import GoPages.Proofs.Files.Outline
import GoPages.Signature.Handler

/-!
# Signatures in files under other names

A method in a file under another name declares the same handler, with the parameters and results in
this file (`Handler.read_mapFile`, `EventHandler.read?_mapFile`), and the same findings come up
about its signature (`Handler.findings_mapFile`, `EventHandler.findings_mapFile`).

What a parameter is depends on its name, on the text of its type and on the type that it denotes,
and none of these depends on the file.
-/

namespace GoPages

variable (φ : String → String) (digest : String)

/-! ### The text of type expressions -/

@[simp] theorem renderParam_mapFile (name : Option Ident) (type : String) :
    renderParam (name.map (Ident.mapFile φ)) type = renderParam name type := by
  cases name <;> rfl

private theorem soleUnnamed_mapFile (ps : List Param) :
    soleUnnamed (TypeExpr.mapFileParams φ ps) = soleUnnamed ps := by
  match ps with
  | [] => rfl
  | [⟨none, _⟩] | [⟨some _, _⟩] => rfl
  | ⟨none, _⟩ :: ⟨_, _⟩ :: _ | ⟨some _, _⟩ :: ⟨_, _⟩ :: _ => rfl

@[simp] theorem renderField_mapFile (names : List Ident) (type : String) (tag : Option String) :
    renderField (names.map (Ident.mapFile φ)) type tag = renderField names type tag := by
  have hnames : (names.map (Ident.mapFile φ)).map Ident.name = names.map Ident.name := by
    rw [List.map_map]
    rfl
  unfold renderField
  rw [List.isEmpty_map, hnames]

namespace TypeExpr

mutual

/-- The text of a type expression shows no location. -/
@[simp] theorem render_mapFile : ∀ t : TypeExpr, (t.mapFile φ).render = t.render
  | ident _ | qualified _ _ | interface _ _ => rfl
  | pointer _ elem | slice _ elem | array _ _ elem | ellipsis _ elem => by
    simp only [mapFile, render, render_mapFile elem]
  | chan _ dir elem => by simp only [mapFile, render, render_mapFile elem]
  | map _ key value => by simp only [mapFile, render, render_mapFile key, render_mapFile value]
  | generic base args => by
    simp only [mapFile, render, render_mapFile base, renderArgs_mapFile args]
  | func ⟨params, results, _⟩ => by
    simp only [mapFile, render, renderParams_mapFile params, renderParams_mapFile results,
      soleUnnamed_mapFile]
  | struct _ fields => by simp only [mapFile, render, renderFields_mapFile fields]

private theorem renderArgs_mapFile : ∀ ts, renderArgs (mapFileList φ ts) = renderArgs ts
  | [] => rfl
  | t :: ts => by simp only [mapFileList, renderArgs, render_mapFile t, renderArgs_mapFile ts]

/-- The text of a type expression shows no places. -/
theorem renderParams_mapFile : ∀ ps, renderParams (mapFileParams φ ps) = renderParams ps
  | [] => rfl
  | ⟨_, type⟩ :: ps => by
    simp only [mapFileParams, renderParams, render_mapFile type, renderParams_mapFile ps,
      GoPages.renderParam_mapFile]

theorem renderFields_mapFile : ∀ fs, renderFields (mapFileFields φ fs) = renderFields fs
  | [] => rfl
  | ⟨_, type, _⟩ :: fs => by
    simp only [mapFileFields, renderFields, render_mapFile type, renderFields_mapFile fs,
      GoPages.renderField_mapFile]

end

end TypeExpr

/-! ### Methods and their parameters -/

/-- The method in another file. -/
def Method.mapFile (m : Method) : Method := ⟨m.receiver, m.decl.mapFile φ⟩

/-- The parameter in another file. -/
def Parameter.mapFile (p : Parameter) : Parameter := ⟨p.decl.mapFile φ, p.type.mapFile φ⟩

namespace Parameter

variable (p : Parameter)

@[simp] theorem name_mapFile : (p.mapFile φ).name = p.name := by
  obtain ⟨⟨name, type⟩, resolved⟩ := p
  cases name <;> rfl

@[simp] theorem location_mapFile : (p.mapFile φ).location = p.location.mapFile φ := by
  obtain ⟨⟨name, type⟩, resolved⟩ := p
  cases name with
  | none => exact type.location_mapFile φ
  | some id => rfl

@[simp] theorem expr_mapFile : (p.mapFile φ).expr = p.expr := p.decl.type.render_mapFile φ

@[simp] theorem label_mapFile : (p.mapFile φ).label = p.label := by
  rw [label, label, name_mapFile, expr_mapFile]

@[simp] theorem type_mapFile : (p.mapFile φ).type = p.type.mapFile φ := rfl

/-- The slot of a parameter stands in the other file. -/
private theorem slot_mapFile : (p.mapFile φ).slot = p.slot.mapFile φ := by
  rw [slot, slot, name_mapFile, expr_mapFile, location_mapFile]
  rfl

private theorem finding_mapFile (e : AnalysisError) :
    (p.mapFile φ).finding (e.mapPrevious φ) = (p.finding e).mapFile φ := by
  rw [finding, finding, location_mapFile, Finding.mapFile]

end Parameter

namespace Method

variable (s : Setting) (m : Method)

@[simp] theorem name_mapFile : (m.mapFile φ).name = m.name := rfl

@[simp] theorem receiver_mapFile : (m.mapFile φ).receiver = m.receiver := rfl

private theorem finding_mapFile (e : AnalysisError) :
    (m.mapFile φ).finding (e.mapPrevious φ) = (m.finding e).mapFile φ := rfl

/-- Parameters keep their names, their types and their order. -/
private theorem resolved_mapFile (p : Package) (decls : List Param) :
    (m.mapFile φ).resolved (p.mapFile φ digest) (decls.map (ParamOf.mapFile φ)) =
      (m.resolved p decls).map (Parameter.mapFile φ) := by
  rw [resolved, resolved, List.map_map, List.map_map]
  refine congrArg (List.map · decls) (funext fun decl => ?_)
  have hdecl : (m.mapFile φ).decl = m.decl.mapFile φ := rfl
  have htype : (decl.mapFile φ).type = decl.type.mapFile φ := rfl
  rw [Function.comp_apply, hdecl, htype, Package.methodScope_mapFile, Scope.resolve_mapFile]
  rfl

private theorem params_mapFile :
    (m.mapFile φ).params (s.mapFile φ digest).package =
      (m.params s.package).map (Parameter.mapFile φ) :=
  m.resolved_mapFile φ digest s.package m.decl.decl.type.params

private theorem results_mapFile :
    (m.mapFile φ).results (s.mapFile φ digest).package =
      (m.results s.package).map (Parameter.mapFile φ) :=
  m.resolved_mapFile φ digest s.package m.decl.decl.type.results

end Method

/-! ### The roles of parameters -/

private theorem QualifiedType.accepts_mapFile (q : QualifiedType) (type : HostType) :
    q.accepts (type.mapFile φ) = q.accepts type := by
  obtain ⟨package, name, pointer⟩ := q
  cases pointer with
  | false => exact type.isNamed_mapFile φ package name
  | true =>
    cases type with
    | pointer elem => exact elem.isNamed_mapFile φ package name
    | _ => rfl

/-- The assignment in another file. -/
def Assignment.mapFile (a : Assignment) : Assignment :=
  ⟨a.assigned.map (Prod.map id (Parameter.mapFile φ)), a.rest.map (Parameter.mapFile φ)⟩

namespace Setting

variable (s : Setting) (m : Method)

/-- A parameter can have the same roles. -/
private theorem recognizes_mapFile (role : InputRole) (p : Parameter) :
    (s.mapFile φ digest).recognizes role (p.mapFile φ) = s.recognizes role p := by
  cases role with
  | request => exact s.conventions.requestType.accepts_mapFile φ p.type
  | sse => exact s.conventions.sseType.accepts_mapFile φ p.type
  | _ => simp only [recognizes, Parameter.name_mapFile]

/-- So roles are given out alike. -/
private theorem assign_mapFile (roles : List InputRole) (params : List Parameter) :
    (s.mapFile φ digest).assign roles (params.map (Parameter.mapFile φ)) =
      (s.assign roles params).mapFile φ := by
  fun_induction assign s roles params with
  | case1 roles => rw [List.map_nil, assign]; rfl
  | case2 params hparams =>
    cases params with
    | nil => rfl
    | cons p params => rfl
  | case3 role roles p params hrole ih =>
    rw [List.map_cons, assign, recognizes_mapFile, if_pos hrole, ih]
    rfl
  | case4 role roles p params hrole ih =>
    rw [List.map_cons, assign, recognizes_mapFile, if_neg hrole, ← List.map_cons, ih]

end Setting

/-! ### The shape of parameters -/

section Shape

variable (p : Package) (m : Method)

private theorem StructInput.fieldError?_mapFile (k : StructInput) (f : StructField) :
    k.fieldError? (p.mapFile φ digest) (m.mapFile φ) (f.mapFile φ) =
      (k.fieldError? p m f).map (AnalysisError.mapPrevious φ) := by
  have hstring : (p.mapFile φ digest).isBasicUnderlying "string" (f.mapFile φ).type =
      p.isBasicUnderlying "string" f.type := p.isBasicUnderlying_mapFile φ digest "string" f.type
  have hexported : (f.mapFile φ).isExported = f.isExported := rfl
  have htag : (f.mapFile φ).tag = f.tag := rfl
  rw [fieldError?, fieldError?, hstring, hexported, htag]
  split
  · rfl
  · split
    · rfl
    · split <;> rfl

/-- What is wrong with a structured parameter is said without places. -/
private theorem StructInput.error?_mapFile (k : StructInput) (param : Parameter) :
    k.error? (p.mapFile φ digest) (m.mapFile φ) (param.mapFile φ) =
      (k.error? p m param).map (AnalysisError.mapPrevious φ) := by
  obtain ⟨⟨name, expr⟩, type⟩ := param
  cases expr with
  | struct l decls =>
    cases type with
    | struct fields =>
      have hfields : (fields.map (StructFieldOf.mapFile φ)).findSome?
          (k.fieldError? (p.mapFile φ digest) (m.mapFile φ)) =
          (fields.findSome? (k.fieldError? p m)).map (AnalysisError.mapPrevious φ) := by
        rw [List.findSome?_map, List.map_findSome?]
        exact congrArg (List.findSome? · fields) (funext (k.fieldError?_mapFile φ digest p m))
      rw [Parameter.mapFile, HostType.mapFile_struct]
      exact hfields
    | _ => rfl
  | _ => rfl

private theorem Dispatch.eventParams_mapFile (type : HostType) :
    eventParams (m.mapFile φ) (type.mapFile φ) =
      ((eventParams m type).map (List.map (HostType.mapFile φ))).mapError
        (AnalysisError.mapPrevious φ) := by
  cases type with
  | func params results variadic =>
    rw [HostType.mapFile_func]
    match results with
    | [] => rfl
    | [result] =>
      rw [List.map_cons, List.map_nil, eventParams, eventParams, HostType.isError_mapFile,
        List.isEmpty_map]
      split
      · rfl
      · split <;> rfl
    | _ :: _ :: _ => rfl
  | _ => rfl

private theorem Dispatch.error?_mapFile (type : HostType) :
    error? (m.mapFile φ) (type.mapFile φ) =
      (error? m type).map (AnalysisError.mapPrevious φ) := by
  rw [error?, error?, eventParams_mapFile]
  cases eventParams m type <;> rfl

private theorem Dispatch.eventName_mapFile (type : HostType) :
    eventName (p.mapFile φ digest) (type.mapFile φ) = eventName p type := by
  rw [eventName, eventName, HostType.stripPointer_mapFile, Package.unalias_mapFile]
  simp only [HostType.localName_mapFile, HostType.render_mapFile]

private theorem Dispatch.eventNames_mapFile (type : HostType) :
    eventNames (p.mapFile φ digest) (m.mapFile φ) (type.mapFile φ) = eventNames p m type := by
  rw [eventNames, eventNames, eventParams_mapFile]
  cases eventParams m type with
  | error e => rfl
  | ok params =>
    have hname : eventName (p.mapFile φ digest) ∘ HostType.mapFile φ = eventName p :=
      funext (eventName_mapFile φ digest p)
    simp only [Except.map, mapError_ok, List.map_map, hname]

end Shape

/-! ### The parameters of handlers -/

namespace Assignment

variable (s : Setting) (m : Method) (a : Assignment)

private theorem param?_mapFile (role : InputRole) :
    (a.mapFile φ).param? role = (a.param? role).map (Parameter.mapFile φ) := by
  rw [param?, param?, mapFile, lookup_map_snd]

private theorem slot?_mapFile (role : InputRole) :
    (a.mapFile φ).slot? role = (a.slot? role).map (Slot.mapFile φ) := by
  rw [slot?, slot?, param?_mapFile, Option.map_map, Option.map_map]
  exact congrArg (Option.map · (a.param? role)) (funext (Parameter.slot_mapFile φ))

end Assignment

namespace Setting

variable (s : Setting) (m : Method) (p : Parameter)

private theorem wrongInput_mapFile (expected : String) :
    wrongInput (m.mapFile φ) (p.mapFile φ) expected = (wrongInput m p expected).mapFile φ := by
  have hname : (p.mapFile φ).name = p.name := p.name_mapFile φ
  rw [wrongInput, wrongInput, hname]
  exact p.finding_mapFile φ (.inputWrongType m.receiver m.name p.name expected)

private theorem map_finding_mapFile (e : Option AnalysisError) :
    (e.map (AnalysisError.mapPrevious φ)).toList.map (p.mapFile φ).finding =
      (e.toList.map p.finding).map (Finding.mapFile φ) := by
  cases e with
  | none => rfl
  | some e => exact congrArg (fun found => [found]) (p.finding_mapFile φ e)

private theorem roleFindings_mapFile (role : InputRole) :
    (s.mapFile φ digest).roleFindings (m.mapFile φ) role (p.mapFile φ) =
      (s.roleFindings m role p).map (Finding.mapFile φ) := by
  cases role with
  | request => rfl
  | sse => rfl
  | sessionToken =>
    have hstring : (s.mapFile φ digest).package.isBasicUnderlying "string" (p.mapFile φ).type =
        s.package.isBasicUnderlying "string" p.type :=
      s.package.isBasicUnderlying_mapFile φ digest "string" p.type
    rw [roleFindings, roleFindings, hstring, wrongInput_mapFile]
    split <;> rfl
  | session =>
    have hsession : (s.mapFile φ digest).isSession (p.mapFile φ).type = s.isSession p.type :=
      s.isSession_mapFile φ digest p.type
    rw [roleFindings, roleFindings, hsession, wrongInput_mapFile]
    split <;> rfl
  | struct k =>
    have herror : k.error? (s.mapFile φ digest).package (m.mapFile φ) (p.mapFile φ) =
        (k.error? s.package m p).map (AnalysisError.mapPrevious φ) :=
      k.error?_mapFile φ digest s.package m p
    rw [roleFindings, roleFindings, herror, map_finding_mapFile]
  | dispatch =>
    have herror : Dispatch.error? (m.mapFile φ) (p.mapFile φ).type =
        (Dispatch.error? m p.type).map (AnalysisError.mapPrevious φ) :=
      Dispatch.error?_mapFile φ m p.type
    rw [roleFindings, roleFindings, herror, map_finding_mapFile]

end Setting

namespace Assignment

variable (s : Setting) (m : Method) (a : Assignment)

private theorem unknown_mapFile (p : Parameter) :
    unknown (m.mapFile φ) (p.mapFile φ) = (unknown m p).mapFile φ := by
  have hlabel : (p.mapFile φ).label = p.label := p.label_mapFile φ
  rw [unknown, unknown, hlabel]
  exact p.finding_mapFile φ (.unknownInput m.receiver m.name p.label)

theorem findings_mapFile :
    (a.mapFile φ).findings (s.mapFile φ digest) (m.mapFile φ) =
      (a.findings s m).map (Finding.mapFile φ) := by
  have hrole : (fun rp : InputRole × Parameter =>
      (s.mapFile φ digest).roleFindings (m.mapFile φ) rp.1 (rp.2.mapFile φ)) =
      fun rp => (s.roleFindings m rp.1 rp.2).map (Finding.mapFile φ) :=
    funext fun rp => s.roleFindings_mapFile φ digest m rp.2 rp.1
  have hunknown : unknown (m.mapFile φ) ∘ Parameter.mapFile φ = Finding.mapFile φ ∘ unknown m :=
    funext (unknown_mapFile φ m)
  simp only [findings, mapFile, List.flatMap_map, List.map_append, List.map_flatMap, List.map_map,
    Prod.map, id_eq, hrole, hunknown]

end Assignment

namespace HandlerInputs

variable (s : Setting) (m : Method)

private theorem assign?_mapFile (params : List Parameter) :
    assign? (s.mapFile φ digest) (params.map (Parameter.mapFile φ)) =
      (assign? s params).map (Assignment.mapFile φ) := by
  cases params with
  | nil => rfl
  | cons p params =>
    rw [List.map_cons, assign?, assign?, Setting.recognizes_mapFile, Setting.assign_mapFile]
    split <;> rfl

private theorem assign?_params_mapFile :
    assign? (s.mapFile φ digest) ((m.mapFile φ).params (s.mapFile φ digest).package) =
      (assign? s (m.params s.package)).map (Assignment.mapFile φ) := by
  rw [Method.params_mapFile, assign?_mapFile]

private theorem ofAssignment_mapFile (a : Assignment) :
    ofAssignment (a.mapFile φ) = (ofAssignment a).mapFile φ := by
  simp only [ofAssignment, mapFile, Assignment.slot?_mapFile]

/-- The parameters of a handler stand in the other file. -/
theorem read_mapFile :
    read (s.mapFile φ digest) (m.mapFile φ) = (read s m).mapFile φ := by
  rw [read, read, assign?_params_mapFile]
  cases assign? s (m.params s.package) with
  | none => rfl
  | some a => exact ofAssignment_mapFile φ a

theorem findings_mapFile :
    findings (s.mapFile φ digest) (m.mapFile φ) = (findings s m).map (Finding.mapFile φ) := by
  rw [findings, findings, assign?_params_mapFile]
  cases assign? s (m.params s.package) with
  | none => rfl
  | some a => exact a.findings_mapFile φ digest s m

/-- The parameter that has a role, in another file. -/
theorem bind_param?_mapFile (role : InputRole) :
    (assign? (s.mapFile φ digest) ((m.mapFile φ).params (s.mapFile φ digest).package)).bind
      (·.param? role) =
      ((assign? s (m.params s.package)).bind (·.param? role)).map (Parameter.mapFile φ) := by
  rw [assign?_params_mapFile, Option.bind_map, Option.map_bind]
  exact congrArg (assign? s (m.params s.package)).bind
    (funext fun a => a.param?_mapFile φ role)

private theorem dispatched_mapFile :
    dispatched (s.mapFile φ digest) (m.mapFile φ) = dispatched s m := by
  rw [dispatched, dispatched, bind_param?_mapFile]
  cases (assign? s (m.params s.package)).bind (·.param? .dispatch) with
  | none => rfl
  | some p => exact Dispatch.eventNames_mapFile φ digest s.package m p.type

/-- The path is passed over or not, whatever the file is called. -/
theorem pathIsInvalid_mapFile :
    pathIsInvalid (s.mapFile φ digest) (m.mapFile φ) = pathIsInvalid s m := by
  rw [pathIsInvalid, pathIsInvalid, bind_param?_mapFile]
  cases (assign? s (m.params s.package)).bind (·.param? (.struct .path)) with
  | none => rfl
  | some p =>
    have herror := StructInput.path.error?_mapFile φ digest s.package m p
    exact (congrArg Option.isSome herror).trans Option.isSome_map

end HandlerInputs

/-! ### The results of handlers -/

namespace HandlerOutputs

variable (s : Setting) (m : Method) (r : Parameter)

private theorem accepts_mapFile (role : OutputRole) (type : HostType) :
    role.accepts (s.mapFile φ digest) (type.mapFile φ) = role.accepts s type := by
  cases role with
  | err => exact type.isError_mapFile φ
  | body | head => exact s.conventions.componentType.accepts_mapFile φ type
  | redirect => exact s.package.isBasicUnderlying_mapFile φ digest "string" type
  | redirectStatus => exact s.package.isBasicUnderlying_mapFile φ digest "int" type
  | newSession => exact s.isSession_mapFile φ digest type
  | closeSession | enableBackgroundStreaming | disableRefreshAfterHidden =>
    exact s.package.isBasicUnderlying_mapFile φ digest "bool" type

private theorem isComponent_mapFile :
    isComponent (s.mapFile φ digest) (r.mapFile φ) = isComponent s r :=
  s.conventions.componentType.accepts_mapFile φ r.type

private theorem componentError?_mapFile (before : List Parameter) :
    componentError? (s.mapFile φ digest) (m.mapFile φ) (before.map (Parameter.mapFile φ))
      (r.mapFile φ) = (componentError? s m before r).map (AnalysisError.mapPrevious φ) := by
  have hcomponent : isComponent (s.mapFile φ digest) ∘ Parameter.mapFile φ = isComponent s :=
    funext (isComponent_mapFile φ digest s)
  rw [componentError?, componentError?, List.filter_map, List.length_map, hcomponent,
    Parameter.name_mapFile]
  split
  · split <;> rfl
  · split <;> rfl
  · rfl

private theorem judgeName_mapFile :
    judgeName (s.mapFile φ digest) (m.mapFile φ) (r.mapFile φ) =
      (judgeName s m r).mapError (AnalysisError.mapPrevious φ) := by
  rw [judgeName, judgeName, Parameter.name_mapFile, Parameter.label_mapFile, Parameter.type_mapFile]
  cases OutputRole.ofName? r.name with
  | none => rfl
  | some role =>
    simp only [accepts_mapFile]
    split <;> rfl

/-- A result has the same role, or the same is wrong with it. -/
private theorem judge_mapFile (method : HttpMethod) (before : List Parameter) :
    judge (s.mapFile φ digest) (m.mapFile φ) method (before.map (Parameter.mapFile φ))
      (r.mapFile φ) = (judge s m method before r).mapError (AnalysisError.mapPrevious φ) := by
  have herror : (r.mapFile φ).type.isError = r.type.isError := r.type.isError_mapFile φ
  rw [judge, judge, herror, isComponent_mapFile, componentError?_mapFile, judgeName_mapFile]
  split
  · rfl
  · split
    · cases componentError? s m before r <;> rfl
    · rfl

private theorem resultFindings_mapFile (method : HttpMethod) (before : List Parameter) :
    resultFindings (s.mapFile φ digest) (m.mapFile φ) method (before.map (Parameter.mapFile φ))
      (r.mapFile φ) = (resultFindings s m method before r).map (Finding.mapFile φ) := by
  have hcount : ((before.map (Parameter.mapFile φ)).filter fun q => q.type.isError).length =
      (before.filter fun q => q.type.isError).length := by
    rw [List.filter_map, List.length_map]
    exact congrArg (fun f => (before.filter f).length)
      (funext fun q => q.type.isError_mapFile φ)
  rw [resultFindings, resultFindings, judge_mapFile, hcount]
  cases judge s m method before r with
  | error e => exact congrArg (fun found => [found]) (r.finding_mapFile φ e)
  | ok role =>
    cases role with
    | err =>
      simp only [mapError_ok]
      split <;> rfl
    | _ => rfl

private theorem filled?_mapFile (method : HttpMethod) (before : List Parameter) :
    filled? (s.mapFile φ digest) (m.mapFile φ) method (before.map (Parameter.mapFile φ))
      (r.mapFile φ) =
      (filled? s m method before r).map (Prod.map id (Parameter.mapFile φ)) := by
  rw [filled?, filled?, judge_mapFile]
  cases judge s m method before r <;> rfl

/-- What is said about every item does not change if this holds for one item after others. -/
theorem withEarlier_map {α β : Type} {f f' : List α → α → β} (g : α → α) (h : β → β)
    (hf : ∀ before a, f' (before.map g) (g a) = h (f before a)) (items : List α) :
    ∀ before, withEarlier f' (before.map g) (items.map g) = (withEarlier f before items).map h := by
  induction items with
  | nil => intro before; rfl
  | cons a items ih =>
    intro before
    have hbefore : before.map g ++ [g a] = (before ++ [a]).map g := by
      rw [List.map_append, List.map_cons, List.map_nil]
    rw [List.map_cons, withEarlier, withEarlier, hf, hbefore, ih, List.map_cons]

private theorem filled_mapFile (method : HttpMethod) :
    filled (s.mapFile φ digest) (m.mapFile φ) method =
      (filled s m method).map (Prod.map id (Parameter.mapFile φ)) := by
  -- A result is judged after those before it, all of them in the other file.
  have hresults := withEarlier_map (Parameter.mapFile φ)
    (Option.map (Prod.map id (Parameter.mapFile φ)))
    (fun before r => filled?_mapFile φ digest s m r method before) (m.results s.package) []
  rw [List.map_nil] at hresults
  rw [filled, filled, Method.results_mapFile, hresults, List.filterMap_map, List.map_filterMap]
  rfl

private theorem ofFilled_mapFile (entries : List (OutputRole × Parameter)) :
    ofFilled (entries.map (Prod.map id (Parameter.mapFile φ))) =
      (ofFilled entries).mapFile φ := by
  have hslot : Parameter.slot ∘ Parameter.mapFile φ = Slot.mapFile φ ∘ Parameter.slot :=
    funext (Parameter.slot_mapFile φ)
  simp only [ofFilled, mapFile, ← List.map_reverse, lookup_map_snd, Option.map_map, hslot]

/-- The results of a handler stand in the other file. -/
theorem read_mapFile (method : HttpMethod) :
    read (s.mapFile φ digest) (m.mapFile φ) method = (read s m method).mapFile φ := by
  rw [read, read, filled_mapFile, ofFilled_mapFile]

private theorem isBodyAttempt_mapFile :
    isBodyAttempt (s.mapFile φ digest) (r.mapFile φ) = isBodyAttempt s r := by
  rw [isBodyAttempt, isBodyAttempt, isComponent_mapFile, Parameter.name_mapFile,
    Parameter.type_mapFile, HostType.isError_mapFile]

private theorem noteOutput_mapFile (e : String → AnalysisError)
    (he : ∀ name, (e name).mapPrevious φ = e name) (role : OutputRole) (slot : Option Slot) :
    noteOutput (m.mapFile φ) e role (slot.map (Slot.mapFile φ)) =
      (noteOutput m e role slot).map (Finding.mapFile φ) := by
  rw [noteOutput, noteOutput, Option.isSome_map]
  split
  · have hfinding := m.finding_mapFile φ (e role.text)
    rw [he] at hfinding
    exact congrArg (fun found => [found]) hfinding
  · rfl

private theorem jointFindings_mapFile (method : HttpMethod) (sse : Option Slot) :
    jointFindings (s.mapFile φ digest) (m.mapFile φ) method (sse.map (Slot.mapFile φ)) =
      (jointFindings s m method sse).map (Finding.mapFile φ) := by
  have hbody : ((m.mapFile φ).results (s.mapFile φ digest).package).any
      (isBodyAttempt (s.mapFile φ digest)) = (m.results s.package).any (isBodyAttempt s) := by
    rw [Method.results_mapFile, List.any_map]
    exact congrArg (m.results s.package).any (funext (isBodyAttempt_mapFile φ digest s))
  -- All of these are at the name of the method.
  have hsession := noteOutput_mapFile φ m (.sessionOutputWithSse m.receiver m.name) fun _ => rfl
  have hget := noteOutput_mapFile φ m (.getOnlyOutput m.receiver m.name) fun _ => rfl
  have hmissing := m.finding_mapFile φ (.getMissingBody m.receiver m.name)
  have hredirect := m.finding_mapFile φ (.redirectStatusWithoutRedirect m.receiver m.name)
  simp only [AnalysisError.mapPrevious] at hmissing hredirect
  simp only [jointFindings, read_mapFile, hbody, mapFile, Method.name_mapFile,
    Method.receiver_mapFile, Option.isSome_map, Option.isNone_map, hsession, hget, hmissing,
    hredirect, List.map_append, apply_ite (List.map (Finding.mapFile φ)), List.map_nil,
    List.map_cons]

theorem findings_mapFile (method : HttpMethod) (sse : Option Slot) :
    findings (s.mapFile φ digest) (m.mapFile φ) method (sse.map (Slot.mapFile φ)) =
      (findings s m method sse).map (Finding.mapFile φ) := by
  have hresults := withEarlier_map (Parameter.mapFile φ) (List.map (Finding.mapFile φ))
    (fun before r => resultFindings_mapFile φ digest s m r method before) (m.results s.package) []
  rw [List.map_nil] at hresults
  rw [findings, findings, Method.results_mapFile, hresults, jointFindings_mapFile, List.map_append,
    List.map_flatten]

end HandlerOutputs

/-! ### Handlers -/

/-- A method in another file declares the same handler. -/
theorem Handler.read_mapFile (s : Setting) (m : Method) (method : HttpMethod)
    (name route : String) :
    read (s.mapFile φ digest) (m.mapFile φ) method name route =
      (read s m method name route).mapFile φ := by
  rw [read, read, HandlerInputs.read_mapFile, HandlerOutputs.read_mapFile,
    HandlerInputs.dispatched_mapFile]
  rfl

/-- The findings about the signature of a method in another file. -/
theorem Handler.findings_mapFile (s : Setting) (m : Method) (method : HttpMethod) :
    findings (s.mapFile φ digest) (m.mapFile φ) method =
      (findings s m method).map (Finding.mapFile φ) := by
  have hsse : ((HandlerInputs.read s m).mapFile φ).sse =
      (HandlerInputs.read s m).sse.map (Slot.mapFile φ) := rfl
  rw [findings, findings, HandlerInputs.findings_mapFile, HandlerInputs.read_mapFile, hsse,
    HandlerOutputs.findings_mapFile, List.map_append]

namespace EventHandler

variable (s : Setting) (m : Method)

private theorem eventParam?_mapFile (params : List Parameter) :
    eventParam? (params.map (Parameter.mapFile φ)) =
      (eventParam? params).map
        (Prod.map (Parameter.mapFile φ) (List.map (Parameter.mapFile φ))) := by
  cases params with
  | nil => rfl
  | cons p params =>
    rw [List.map_cons, eventParam?, eventParam?, Parameter.name_mapFile]
    split <;> rfl

private theorem event?_mapFile :
    event? (s.mapFile φ digest) (m.mapFile φ) =
      ((event? s m).map
        (Prod.map id (Prod.map (Parameter.mapFile φ) (List.map (Parameter.mapFile φ))))).mapError
        (Finding.mapFile φ) := by
  rw [event?, event?, Method.params_mapFile, eventParam?_mapFile]
  cases eventParam? (m.params s.package) with
  | none => rfl
  | some p =>
    obtain ⟨p, params⟩ := p
    have hrender : (p.mapFile φ).type.render = p.type.render := p.type.render_mapFile φ
    have hevent : (s.mapFile φ digest).eventOf? (p.mapFile φ).type = s.eventOf? p.type :=
      s.eventOf?_mapFile φ digest p.type
    simp only [Option.map_some, Prod.map_apply, hevent, hrender]
    cases s.eventOf? p.type with
    | none =>
      have hfinding := p.finding_mapFile φ
        (.eventHandlerFirstArgTypeNotEvent m.receiver m.name p.type.render)
      exact congrArg Except.error hfinding
    | some event => rfl

private theorem result?_mapFile :
    result? (s.mapFile φ digest) (m.mapFile φ) = (result? s m).map (Parameter.mapFile φ) := by
  rw [result?, result?, Method.results_mapFile]
  match m.results s.package with
  | [] => rfl
  | [r] =>
    have herror : (r.mapFile φ).type.isError = r.type.isError := r.type.isError_mapFile φ
    simp only [List.map_cons, List.map_nil, herror]
    split <;> rfl
  | _ :: _ :: _ => rfl

private theorem assign_mapFile (params : List Parameter) :
    assign (s.mapFile φ digest) (params.map (Parameter.mapFile φ)) =
      (assign s params).mapFile φ :=
  s.assign_mapFile φ digest _ params

/-- A method in another file declares the same event handler. -/
theorem read?_mapFile (name : String) :
    read? (s.mapFile φ digest) (m.mapFile φ) name =
      (read? s m name).map (EventHandler.mapFile φ) := by
  rw [read?, read?, event?_mapFile]
  cases event? s m with
  | error found => rfl
  | ok e =>
    obtain ⟨event, p, params⟩ := e
    have herr : (result? (s.mapFile φ digest) (m.mapFile φ)).map Parameter.slot =
        ((result? s m).map Parameter.slot).map (Slot.mapFile φ) := by
      rw [result?_mapFile, Option.map_map, Option.map_map]
      exact congrArg (Option.map · (result? s m)) (funext (Parameter.slot_mapFile φ))
    simp only [Except.map, mapError_ok, Prod.map_apply, assign_mapFile, Assignment.slot?_mapFile,
      herr, Parameter.slot_mapFile]
    rfl

private theorem inputFindings_mapFile :
    inputFindings (s.mapFile φ digest) (m.mapFile φ) =
      (inputFindings s m).map (Finding.mapFile φ) := by
  rw [inputFindings, inputFindings, event?_mapFile]
  cases event? s m with
  | error found => rfl
  | ok e =>
    obtain ⟨event, p, params⟩ := e
    simp only [Except.map, mapError_ok, Prod.map_apply, assign_mapFile, Assignment.slot?_mapFile,
      Assignment.findings_mapFile, Option.isSome_map, List.map_append]
    split <;> rfl

/-- The findings about the signature of a method in another file. -/
theorem findings_mapFile :
    findings (s.mapFile φ digest) (m.mapFile φ) = (findings s m).map (Finding.mapFile φ) := by
  rw [findings, findings, inputFindings_mapFile, result?_mapFile, Option.isSome_map,
    List.map_append]
  split <;> rfl

end EventHandler

end GoPages

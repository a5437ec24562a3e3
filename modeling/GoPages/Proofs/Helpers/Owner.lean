import GoPages.Owner.Attach
import GoPages.Proofs.Helpers.Signature

/-!
# Owners and the methods that they heed

An owner makes nothing of a method whose name says nothing: `Setting.heeded` are the others. What
the owner declares, and what is found about its methods, depends on the methods that are heeded and
on the types of the package, but not on other functions (`Owner.handlers_eq_heeded`,
`Owner.findings_eq_heeded`, `Setting.invalidPaths_eq_heeded`).
-/

namespace GoPages

/-! ### Names that say nothing -/

namespace Setting

variable {s : Setting}

/-- A name that says nothing is not the name of a request. -/
private theorem request?_of_ignored {name : String} (h : s.conventions.methodKind name = .ignored) :
    s.request? name = none := by
  rw [request?, h]

private theorem eventSuffix?_of_ignored {name : String}
    (h : s.conventions.methodKind name = .ignored) : s.eventSuffix? name = none := by
  rw [eventSuffix?, h]

private theorem nameFindings_of_ignored {m : Method}
    (h : s.conventions.methodKind m.name = .ignored) : s.nameFindings m = [] := by
  rw [nameFindings, h]

/-- The methods among others whose names say something. -/
def heededOf (s : Setting) (ms : List Method) : List Method :=
  ms.filter fun m => s.conventions.methodKind m.name ≠ .ignored

/-- The methods of a type whose names say something. -/
def heeded (s : Setting) (receiver : String) : List Method := s.heededOf (s.methodsOf receiver)

private theorem heededOf_cons_of_ignored {m : Method} (ms : List Method)
    (h : s.conventions.methodKind m.name = .ignored) : s.heededOf (m :: ms) = s.heededOf ms :=
  List.filter_cons_of_neg (by simp [h])

/-- A method whose name says something is heeded. -/
private theorem heededOf_cons {m : Method} (ms : List Method)
    (h : s.conventions.methodKind m.name ≠ .ignored) :
    s.heededOf (m :: ms) = m :: s.heededOf ms :=
  List.filter_cons_of_pos (by simp [h])

end Setting

namespace Owner

variable (s : Setting) (plugins : List Plugin) (o : Owner)

/-- A method whose name says nothing declares no handler. -/
private theorem attach_of_ignored {m : Method} (hs : OwnHandlers)
    (h : s.conventions.methodKind m.name = .ignored) : o.attach s plugins hs m = hs := by
  rw [attach, Setting.request?_of_ignored h, eventHandler?, Setting.eventSuffix?_of_ignored h]
  rfl

/-- And nothing is found about it. -/
private theorem methodFindings_of_ignored {m : Method} (hs : OwnHandlers)
    (h : s.conventions.methodKind m.name = .ignored) : o.methodFindings s hs m = [] := by
  rw [methodFindings, Setting.nameFindings_of_ignored h, Setting.request?_of_ignored h,
    Setting.eventSuffix?_of_ignored h]
  rfl

/-- Only the methods that are heeded matter to what an owner declares. -/
private theorem foldl_attach_heededOf (hs : OwnHandlers) (ms : List Method) :
    (s.heededOf ms).foldl (o.attach s plugins) hs = ms.foldl (o.attach s plugins) hs := by
  induction ms generalizing hs with
  | nil => rfl
  | cons m ms ih =>
    by_cases h : s.conventions.methodKind m.name = .ignored
    · rw [s.heededOf_cons_of_ignored ms h, List.foldl_cons, o.attach_of_ignored s plugins hs h, ih]
    · rw [s.heededOf_cons ms h, List.foldl_cons, List.foldl_cons, ih]

/-- So it is with what is found about them. -/
private theorem findingsAfter_heededOf (hs : OwnHandlers) (ms : List Method) :
    o.findingsAfter s plugins hs (s.heededOf ms) = o.findingsAfter s plugins hs ms := by
  induction ms generalizing hs with
  | nil => rfl
  | cons m ms ih =>
    by_cases h : s.conventions.methodKind m.name = .ignored
    · rw [s.heededOf_cons_of_ignored ms h, findingsAfter, o.attach_of_ignored s plugins hs h,
        o.methodFindings_of_ignored s hs h, ih, List.nil_append]
    · rw [s.heededOf_cons ms h, findingsAfter, findingsAfter, ih]

/-! ### Without other functions -/

variable (m : Method)

private theorem eventHandler?_withoutFuncs :
    eventHandler? s.withoutFuncs m.withoutFuncs = eventHandler? s m := by
  have hsuffix : s.withoutFuncs.eventSuffix? m.withoutFuncs.name = s.eventSuffix? m.name := rfl
  rw [eventHandler?, eventHandler?, hsuffix]
  exact congrArg (s.eventSuffix? m.name).bind (funext (EventHandler.read?_withoutFuncs s m))

private theorem attach_withoutFuncs (hs : OwnHandlers) :
    o.attach s.withoutFuncs plugins hs m.withoutFuncs = o.attach s plugins hs m := by
  have hrequest : s.withoutFuncs.request? m.withoutFuncs.name = s.request? m.name := rfl
  rw [attach, attach, eventHandler?_withoutFuncs, hrequest]
  cases s.request? m.name with
  | some r =>
    simp only [Handler.read_withoutFuncs]
    rfl
  | none => rfl

/-- The findings about a method do not depend on other functions. -/
private theorem methodFindings_withoutFuncs (hs : OwnHandlers) :
    o.methodFindings s.withoutFuncs hs m.withoutFuncs = o.methodFindings s hs m := by
  have hname : s.withoutFuncs.nameFindings m.withoutFuncs = s.nameFindings m := rfl
  have hrequest : s.withoutFuncs.request? m.withoutFuncs.name = s.request? m.name := rfl
  have hsuffix : s.withoutFuncs.eventSuffix? m.withoutFuncs.name = s.eventSuffix? m.name := rfl
  have hduplicate : duplicateFindings s.withoutFuncs hs m.withoutFuncs =
      duplicateFindings s hs m := by
    rw [duplicateFindings, duplicateFindings, eventHandler?_withoutFuncs]
    rfl
  rw [methodFindings, methodFindings, hname, hrequest, hsuffix, hduplicate,
    EventHandler.findings_withoutFuncs]
  cases s.request? m.name with
  | some r =>
    simp only [Handler.findings_withoutFuncs]
    rfl
  | none => rfl

private theorem foldl_attach_withoutFuncs (hs : OwnHandlers) (ms : List Method) :
    (ms.map Method.withoutFuncs).foldl (o.attach s.withoutFuncs plugins) hs =
      ms.foldl (o.attach s plugins) hs := by
  rw [List.foldl_map]
  simp only [attach_withoutFuncs]

private theorem findingsAfter_withoutFuncs (hs : OwnHandlers) (ms : List Method) :
    o.findingsAfter s.withoutFuncs plugins hs (ms.map Method.withoutFuncs) =
      o.findingsAfter s plugins hs ms := by
  induction ms generalizing hs with
  | nil => rfl
  | cons m ms ih =>
    rw [List.map_cons, findingsAfter, findingsAfter, methodFindings_withoutFuncs,
      attach_withoutFuncs, ih]

/-! ### Methods that are heeded -/

/-- The handlers that an owner declares are those of the methods that it heeds. -/
theorem handlers_eq_heeded :
    o.handlers s plugins = ((s.heeded o.typeName).map Method.withoutFuncs).foldl
      (o.attach s.withoutFuncs plugins) .empty := by
  rw [foldl_attach_withoutFuncs, Setting.heeded, foldl_attach_heededOf, handlers]

/-- The findings about the methods of an owner are those about the methods that it heeds. -/
theorem findings_eq_heeded :
    o.findings s plugins = o.findingsAfter s.withoutFuncs plugins .empty
      ((s.heeded o.typeName).map Method.withoutFuncs) := by
  rw [findingsAfter_withoutFuncs, Setting.heeded, findingsAfter_heededOf, findings]

end Owner

/-- The path parameters that count are those of methods that are heeded. -/
theorem Setting.invalidPaths_eq_heeded (s : Setting) (receiver : String) :
    s.invalidPaths receiver = (((s.heeded receiver).map Method.withoutFuncs).filter fun m =>
      (s.withoutFuncs.request? m.name).isSome &&
        HandlerInputs.pathIsInvalid s.withoutFuncs m).map Method.location := by
  have hheeded : (s.methodsOf receiver).filter (fun m => (s.request? m.name).isSome &&
      HandlerInputs.pathIsInvalid s m) = (s.heeded receiver).filter fun m =>
        (s.request? m.name).isSome && HandlerInputs.pathIsInvalid s m := by
    rw [heeded, heededOf, List.filter_filter]
    refine List.filter_congr fun m _ => ?_
    by_cases h : s.conventions.methodKind m.name = .ignored
    · simp [request?_of_ignored h]
    · simp [h]
  rw [invalidPaths, hheeded, List.filter_map, List.map_map]
  simp only [Function.comp_def, HandlerInputs.pathIsInvalid_withoutFuncs]
  rfl

end GoPages

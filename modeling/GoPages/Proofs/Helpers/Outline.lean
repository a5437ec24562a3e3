import GoPages.Outline.Findings
import GoPages.Proofs.Helpers.Package

/-!
# Outlines without functions

The outline of an application and the findings about its types do not depend on the functions of the
package, but for the problems that a check of the package finds
(`Setting.outlineFindings_eq`).
-/

namespace GoPages

/-! ### Roles -/

namespace Setting

variable (s : Setting)

private theorem isAppField_withoutFuncs (file : SourceFile) :
    s.withoutFuncs.isAppField file.withoutFuncs = s.isAppField file := by
  funext f
  rw [isAppField, isAppField, package_withoutFuncs, Package.scope_withoutFuncs]
  rfl

private theorem declaresApp_withoutFuncs (file : SourceFile) :
    s.withoutFuncs.declaresApp file.withoutFuncs = s.declaresApp file := by
  funext f
  rw [declaresApp, declaresApp, isAppField_withoutFuncs]
  rfl

private theorem typeRole_withoutFuncs (d : TypeDecl) :
    s.withoutFuncs.typeRole d.withoutFuncs = s.typeRole d := by
  have hfile : d.withoutFuncs.file = d.file.withoutFuncs := rfl
  rw [typeRole, typeRole, isEventType_withoutFuncs, hfile, declaresApp_withoutFuncs]
  rfl

private theorem isAbstractName_withoutFuncs : s.withoutFuncs.isAbstractName = s.isAbstractName := by
  funext name
  rw [isAbstractName, isAbstractName, package_withoutFuncs, Package.typeDecl?_withoutFuncs]
  cases s.package.typeDecl? name with
  | none => rfl
  | some d =>
    simp only [Option.map_some, isAbstractPage, typeRole_withoutFuncs]

end Setting

/-! ### Payloads -/

namespace Payload

variable (p : Package)

private theorem candidates_withoutFuncs : candidates p.withoutFuncs = candidates p := by
  funext type
  rw [candidates, candidates, Package.typeDecls_withoutFuncs, List.flatMap_map]
  simp only [Package.declScope_withoutFuncs]
  rfl

private theorem inside_withoutFuncs : inside p.withoutFuncs = inside p := by
  funext type
  cases type with
  | named package name args => rw [inside, inside, Package.underlying_withoutFuncs]
  | _ => rfl

/-- A walk through a payload looks at types only. -/
private theorem walk_withoutFuncs (event : String) (fresh : List String) (items : List Item) :
    walk p.withoutFuncs event fresh items = walk p event fresh items := by
  fun_induction walk p event fresh items with
  | case1 => rw [walk]
  | case2 fresh f rest ih => rw [walk, ih]
  | case3 fresh t rest hfresh ih => rw [walk, if_pos hfresh, inside_withoutFuncs, ih]
  | case4 fresh t rest hfresh ih => rw [walk, if_neg hfresh, ih]

private theorem check_withoutFuncs (event : String) (type : HostType) :
    check p.withoutFuncs event type = check p event type := by
  rw [check, check, candidates_withoutFuncs, walk_withoutFuncs]

private theorem namesUsers_withoutFuncs (field : String) (type : HostType) :
    namesUsers p.withoutFuncs field type = namesUsers p field type := by
  rw [namesUsers, namesUsers, Package.underlying_withoutFuncs]

end Payload

namespace Setting

variable (s : Setting)

/-! ### Session and events -/

private theorem sessionShape?_withoutFuncs (d : TypeDecl) :
    s.withoutFuncs.sessionShape? d.withoutFuncs = s.sessionShape? d := by
  rw [sessionShape?, sessionShape?, package_withoutFuncs, Package.underlying_withoutFuncs]
  rfl

/-- The session is a type, whatever functions there are. -/
theorem session?_withoutFuncs : s.withoutFuncs.session? = s.session? := by
  rw [session?, session?, package_withoutFuncs, Package.types_withoutFuncs]
  simp only [List.findSome?_map, Function.comp_def, typeRole_withoutFuncs,
    sessionShape?_withoutFuncs]

private theorem eventShape?_withoutFuncs (d : TypeDecl) :
    s.withoutFuncs.eventShape? d.withoutFuncs = s.eventShape? d := by
  rw [eventShape?, eventShape?, package_withoutFuncs, Payload.namesUsers_withoutFuncs]
  rfl

/-- So are the events. -/
theorem events_withoutFuncs : s.withoutFuncs.events = s.events := by
  rw [events, events, package_withoutFuncs, Package.types_withoutFuncs]
  simp only [List.filterMap_map, Function.comp_def, typeRole_withoutFuncs,
    eventShape?_withoutFuncs]

/-! ### Pages -/

private theorem embeds_withoutFuncs : s.withoutFuncs.embeds = s.embeds := by
  funext fields
  rw [embeds, embeds, isAbstractName_withoutFuncs]

private theorem page?_withoutFuncs (d : TypeDecl) :
    s.withoutFuncs.page? d.withoutFuncs = s.page? d := by
  rw [page?, page?, typeRole_withoutFuncs, embeds_withoutFuncs]
  rfl

/-- Pages are known by their types, and have no handlers in the outline. -/
theorem pages_withoutFuncs : s.withoutFuncs.pages = s.pages := by
  rw [pages, pages, package_withoutFuncs, Package.types_withoutFuncs]
  simp only [List.filterMap_map, Function.comp_def, page?_withoutFuncs]

private theorem abstractPage?_withoutFuncs (d : TypeDecl) :
    s.withoutFuncs.abstractPage? d.withoutFuncs = s.abstractPage? d := by
  rw [abstractPage?, abstractPage?, typeRole_withoutFuncs, embeds_withoutFuncs]
  rfl

/-- Abstract pages, too, are known by their types. -/
theorem abstractPages_withoutFuncs : s.withoutFuncs.abstractPages = s.abstractPages := by
  rw [abstractPages, abstractPages, package_withoutFuncs, Package.types_withoutFuncs]
  simp only [List.filterMap_map, Function.comp_def, abstractPage?_withoutFuncs]

/-! ### Findings -/

private theorem appFindings_withoutFuncs : s.withoutFuncs.appFindings = s.appFindings := by
  rw [appFindings, appFindings, package_withoutFuncs, Package.isSome_typeDecl?_withoutFuncs,
    Package.location_withoutFuncs]
  rfl

private theorem sessionFindings_withoutFuncs (d : TypeDecl) :
    s.withoutFuncs.sessionFindings d.withoutFuncs = s.sessionFindings d := by
  rw [sessionFindings, sessionFindings, sessionShape?_withoutFuncs]
  rfl

private theorem pageFindings_withoutFuncs (d : TypeDecl) (fields : List FieldDecl) :
    s.withoutFuncs.pageFindings d.withoutFuncs fields = s.pageFindings d fields := by
  have hfile : d.withoutFuncs.file = d.file.withoutFuncs := rfl
  rw [pageFindings, pageFindings, extraFields, extraFields, hfile, declaresApp_withoutFuncs,
    isAppField_withoutFuncs]
  rfl

private theorem roleOfTypeFindings_withoutFuncs (d : TypeDecl) :
    s.withoutFuncs.roleOfTypeFindings d.withoutFuncs = s.roleOfTypeFindings d := by
  rw [roleOfTypeFindings, roleOfTypeFindings, typeRole_withoutFuncs]
  cases s.typeRole d with
  | session => exact s.sessionFindings_withoutFuncs d
  | page fields => exact s.pageFindings_withoutFuncs d fields
  | _ => rfl

private theorem payloadFindings_withoutFuncs :
    s.withoutFuncs.payloadFindings = s.payloadFindings := by
  rw [payloadFindings, payloadFindings, eventTypes_withoutFuncs, List.flatMap_map]
  simp only [package_withoutFuncs, Payload.check_withoutFuncs]
  rfl

private theorem embedFindings_withoutFuncs : s.withoutFuncs.embedFindings = s.embedFindings := by
  funext owner fields
  rw [embedFindings, embedFindings, isAbstractName_withoutFuncs]

private theorem pageEmbedFindings_withoutFuncs :
    s.withoutFuncs.pageEmbedFindings = s.pageEmbedFindings := by
  rw [pageEmbedFindings, pageEmbedFindings, package_withoutFuncs, Package.types_withoutFuncs,
    List.flatMap_map, embedFindings_withoutFuncs]
  simp only [typeRole_withoutFuncs]
  rfl

private theorem abstractEmbedFindings_withoutFuncs :
    s.withoutFuncs.abstractEmbedFindings = s.abstractEmbedFindings := by
  rw [abstractEmbedFindings, abstractEmbedFindings, package_withoutFuncs,
    Package.types_withoutFuncs, List.flatMap_map, embedFindings_withoutFuncs]
  simp only [typeRole_withoutFuncs]
  rfl

/-- Apart from the problems that the check of the package finds, the findings about types do not
depend on functions. -/
theorem outlineFindings_eq :
    s.outlineFindings = s.typeProblems ++ (s.withoutFuncs.appFindings ++
      s.withoutFuncs.package.types.flatMap s.withoutFuncs.roleOfTypeFindings ++
      s.withoutFuncs.payloadFindings ++ s.withoutFuncs.pageEmbedFindings ++
      s.withoutFuncs.abstractEmbedFindings) := by
  have hroles : s.withoutFuncs.package.types.flatMap s.withoutFuncs.roleOfTypeFindings =
      s.package.types.flatMap s.roleOfTypeFindings := by
    rw [package_withoutFuncs, Package.types_withoutFuncs, List.flatMap_map]
    simp only [roleOfTypeFindings_withoutFuncs]
  rw [outlineFindings, appFindings_withoutFuncs, hroles, payloadFindings_withoutFuncs,
    pageEmbedFindings_withoutFuncs, abstractEmbedFindings_withoutFuncs]
  simp only [List.append_assoc]

end Setting

end GoPages

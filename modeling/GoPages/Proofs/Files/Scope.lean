import GoPages.HostType.Render
import GoPages.Event.Payload
import GoPages.Proofs.Files.SourceFile
import GoPages.Scope
import GoPages.Signature.Shape

/-!
# Resolved types in files under another name

A scope does not depend on the names of files, so a type expression in a file under another name
denotes the same type, but for the locations of struct fields (`Scope.resolve_mapFile`), and the
same names in it have no meaning (`Scope.problems_mapFile`). What is asked of a resolved type does
not depend on these locations.
-/

namespace GoPages

variable (φ : String → String)

/-! ### Resolved types -/

namespace HostType

mutual

/-- The type with the locations of its fields in another file. -/
def mapFile : HostType → HostType
  | basic name => basic name
  | error => error
  | named package name args => named package name (mapFileList args)
  | typeParam name => typeParam name
  | pointer elem => pointer (mapFile elem)
  | slice elem => slice (mapFile elem)
  | array len elem => array len (mapFile elem)
  | map key value => map (mapFile key) (mapFile value)
  | chan elem => chan (mapFile elem)
  | func params results variadic => func (mapFileList params) (mapFileList results) variadic
  | struct fields => struct (mapFileFields fields)
  | interface empty => interface empty
  | invalid => invalid

/-- Types with the locations of their fields in another file. -/
def mapFileList : List HostType → List HostType
  | [] => []
  | t :: ts => mapFile t :: mapFileList ts

/-- Fields in another file. -/
def mapFileFields : List (StructFieldOf HostType) → List (StructFieldOf HostType)
  | [] => []
  | ⟨name, embedded, type, tag, l⟩ :: fields =>
    ⟨name, embedded, mapFile type, tag, l.mapFile φ⟩ :: mapFileFields fields

end

end HostType

/-- The field in another file. -/
def StructFieldOf.mapFile (f : StructField) : StructField :=
  ⟨f.name, f.embedded, f.type.mapFile φ, f.tag, f.location.mapFile φ⟩

namespace HostType

theorem mapFileList_eq (ts : List HostType) : mapFileList φ ts = ts.map (mapFile φ) := by
  induction ts with
  | nil => rfl
  | cons t ts ih => rw [mapFileList, ih, List.map_cons]

theorem mapFileFields_eq (fs : List StructField) :
    mapFileFields φ fs = fs.map (StructFieldOf.mapFile φ) := by
  induction fs with
  | nil => rfl
  | cons f fs ih => rw [mapFileFields, ih, List.map_cons, StructFieldOf.mapFile]

@[simp] theorem mapFile_named (package name : String) (args : List HostType) :
    (named package name args).mapFile φ = named package name (args.map (mapFile φ)) := by
  rw [mapFile, mapFileList_eq]

@[simp] theorem mapFile_func (params results : List HostType) (variadic : Bool) :
    (func params results variadic).mapFile φ =
      func (params.map (mapFile φ)) (results.map (mapFile φ)) variadic := by
  rw [mapFile, mapFileList_eq, mapFileList_eq]

@[simp] theorem mapFile_struct (fields : List StructField) :
    (struct fields).mapFile φ = struct (fields.map (StructFieldOf.mapFile φ)) := by
  rw [mapFile, mapFileFields_eq]

variable (t : HostType)

@[simp] theorem isBasic_mapFile (expected : String) :
    (t.mapFile φ).isBasic expected = t.isBasic expected := by
  cases t <;> rfl

@[simp] theorem isError_mapFile : (t.mapFile φ).isError = t.isError := by
  cases t <;> rfl

@[simp] theorem isInvalid_mapFile : (t.mapFile φ).isInvalid = t.isInvalid := by
  cases t <;> rfl

@[simp] theorem isNamed_mapFile (package expected : String) :
    (t.mapFile φ).isNamed package expected = t.isNamed package expected := by
  cases t <;> rfl

@[simp] theorem localName_mapFile : (t.mapFile φ).localName = t.localName := by
  cases t <;> rfl

@[simp] theorem isSlice_mapFile : (t.mapFile φ).isSlice = t.isSlice := by
  cases t <;> rfl

/-- What a pointer points to is moved with it. -/
theorem stripPointer_mapFile : (t.mapFile φ).stripPointer = t.stripPointer.mapFile φ := by
  cases t <;> rfl

mutual

/-- The text of a type shows no location. -/
@[simp] theorem render_mapFile : ∀ t : HostType, (t.mapFile φ).render = t.render
  | basic _ | error | typeParam _ | interface _ | invalid => rfl
  | pointer elem | slice elem | array _ elem | chan elem => by
    simp only [mapFile, render, render_mapFile elem]
  | map key value => by simp only [mapFile, render, render_mapFile key, render_mapFile value]
  | named _ _ args => by simp only [mapFile, render, renderList_mapFile args]
  | func params results variadic => by
    simp only [mapFile, render, renderParams_mapFile variadic params, renderList_mapFile results]
  | struct fields => by simp only [mapFile, render, renderFields_mapFile fields]

private theorem renderList_mapFile : ∀ ts, renderList (mapFileList φ ts) = renderList ts
  | [] => rfl
  | t :: ts => by simp only [mapFileList, renderList, render_mapFile t, renderList_mapFile ts]

/-- The text of a type shows no places. -/
theorem renderParams_mapFile (variadic : Bool) :
    ∀ ts, renderParams variadic (mapFileList φ ts) = renderParams variadic ts
  | [] => rfl
  | t :: ts => by
    have hempty : (mapFileList φ ts).isEmpty = ts.isEmpty := by cases ts <;> rfl
    simp only [mapFileList, renderParams, hempty, variadicText, isSlice_mapFile, render_mapFile t,
      renderParams_mapFile variadic ts]

theorem renderFields_mapFile : ∀ fs, renderFields (mapFileFields φ fs) = renderFields fs
  | [] => rfl
  | ⟨_, _, type, _, _⟩ :: fields => by
    simp only [mapFileFields, renderFields, render_mapFile type, renderFields_mapFile fields]

end

/-- The names in tags are the same. -/
theorem tagNames_mapFile (key : String) : (t.mapFile φ).tagNames key = t.tagNames key := by
  cases t with
  | struct fields =>
    rw [mapFile_struct, tagNames, tagNames, List.filterMap_map]
    rfl
  | _ => rfl

mutual

/-- The parts of a type are moved with it. -/
theorem parts_mapFile : ∀ t : HostType, (t.mapFile φ).parts = t.parts.map (mapFile φ)
  | basic _ | error | typeParam _ | interface _ | invalid => rfl
  | pointer elem | slice elem | array _ elem | chan elem => by
    simp only [mapFile, parts, parts_mapFile elem, List.map_cons]
  | map key value => by
    simp only [mapFile, parts, parts_mapFile key, parts_mapFile value, List.map_cons,
      List.map_append]
  | named _ _ args => by simp only [mapFile, parts, partsList_mapFile args, List.map_cons]
  | func params results variadic => by
    simp only [mapFile, parts, partsList_mapFile params, partsList_mapFile results, List.map_cons,
      List.map_append]
  | struct fields => by simp only [mapFile, parts, partsFields_mapFile fields, List.map_cons]

private theorem partsList_mapFile :
    ∀ ts, partsList (mapFileList φ ts) = (partsList ts).map (mapFile φ)
  | [] => rfl
  | t :: ts => by
    simp only [mapFileList, partsList, parts_mapFile t, partsList_mapFile ts, List.map_append]

private theorem partsFields_mapFile :
    ∀ fs, partsFields (mapFileFields φ fs) = (partsFields fs).map (mapFile φ)
  | [] => rfl
  | ⟨_, _, type, _, _⟩ :: fields => by
    simp only [mapFileFields, partsFields, parts_mapFile type, partsFields_mapFile fields,
      List.map_append]

end

end HostType

/-! ### Scopes -/

namespace Scope

/-- The names of imports do not depend on the file. -/
theorem ofImports_mapFile (localTypes : List String) (imports : List Import) :
    ofImports localTypes (imports.map (Import.mapFile φ)) = ofImports localTypes imports := by
  rw [ofImports, ofImports, List.filterMap_map, List.filter_map, List.getLast?_map, Option.map_map]
  rfl

variable (s : Scope)

private theorem mapFile_predeclared? (name : String) :
    (predeclared? name).map (HostType.mapFile φ) = predeclared? name := by
  unfold predeclared?
  split
  case h_6 => split <;> rfl
  all_goals rfl

/-- The type of a name has no fields, and so no locations. -/
theorem mapFile_typeOfName? (name : String) :
    (s.typeOfName? name).map (HostType.mapFile φ) = s.typeOfName? name := by
  rw [typeOfName?]
  split
  · rfl
  split
  · rfl
  split
  · next type htype => rw [← htype, mapFile_predeclared?]
  · rw [Option.map_map]
    rfl

/-- Type arguments are put in alike. -/
private theorem instantiate_mapFile (args : List HostType) (type : HostType) :
    instantiate (args.map (HostType.mapFile φ)) (type.mapFile φ) =
      (instantiate args type).mapFile φ := by
  cases type with
  | named package name _ => simp [instantiate]
  | func params results variadic => simp [instantiate]
  | struct fields => simp [instantiate]
  | _ => rfl

private theorem isVariadic_mapFile (params : List Param) :
    isVariadic (params.map (ParamOf.mapFile φ)) = isVariadic params := by
  rw [isVariadic, isVariadic, List.getLast?_map]
  cases params.getLast? with
  | none => rfl
  | some p =>
    obtain ⟨name, type⟩ := p
    cases type <;> rfl

/-- The fields of a declaration stand at its names. -/
private theorem fieldsOf_mapFile (names : List Ident) (expr : TypeExpr) (tag : Option String)
    (type : HostType) :
    fieldsOf (names.map (Ident.mapFile φ)) (expr.mapFile φ) tag (type.mapFile φ) =
      (fieldsOf names expr tag type).map (StructFieldOf.mapFile φ) := by
  have hempty : (names.map (Ident.mapFile φ)).isEmpty = names.isEmpty := by cases names <;> rfl
  simp only [fieldsOf, hempty, TypeExpr.embeddedName_mapFile, TypeExpr.location_mapFile]
  split
  · cases expr.embeddedName <;> rfl
  · simp [StructFieldOf.mapFile, Ident.mapFile]

mutual

/-- A type expression denotes the same type in a file under another name. -/
theorem resolve_mapFile : ∀ e : TypeExpr, s.resolve (e.mapFile φ) = (s.resolve e).mapFile φ
  | .ident id => by
    have hname : (id.mapFile φ).name = id.name := rfl
    have hinvalid : HostType.mapFile φ .invalid = .invalid := rfl
    rw [TypeExpr.mapFile, resolve, resolve, hname, ← Option.getD_map (HostType.mapFile φ), hinvalid,
      mapFile_typeOfName?]
  | .qualified package id => by
    have hpackage : (package.mapFile φ).name = package.name := rfl
    rw [TypeExpr.mapFile, resolve, resolve, hpackage]
    cases s.importPath? package.name <;> rfl
  | .generic base args => by
    simp only [TypeExpr.mapFile, resolve, resolve_mapFile base, resolveList_mapFile args,
      HostType.mapFileList_eq, instantiate_mapFile]
  | .pointer _ elem | .slice _ elem | .ellipsis _ elem | .array _ _ elem | .chan _ _ elem => by
    simp only [TypeExpr.mapFile, resolve, resolve_mapFile elem, HostType.mapFile]
  | .map _ key value => by
    simp only [TypeExpr.mapFile, resolve, resolve_mapFile key, resolve_mapFile value,
      HostType.mapFile]
  | .func ⟨params, results, _⟩ => by
    have hvariadic : isVariadic (TypeExpr.mapFileParams φ params) = isVariadic params := by
      rw [TypeExpr.mapFileParams_eq, isVariadic_mapFile]
    simp only [TypeExpr.mapFile, resolve, resolveParams_mapFile params,
      resolveParams_mapFile results, HostType.mapFile, hvariadic]
  | .struct _ fields => by
    simp only [TypeExpr.mapFile, resolve, resolveFields_mapFile fields, HostType.mapFile]
  | .interface _ _ => rfl

private theorem resolveList_mapFile :
    ∀ es, s.resolveList (TypeExpr.mapFileList φ es) = HostType.mapFileList φ (s.resolveList es)
  | [] => rfl
  | e :: es => by
    simp only [TypeExpr.mapFileList, resolveList, resolve_mapFile e, resolveList_mapFile es,
      HostType.mapFileList]

private theorem resolveParams_mapFile :
    ∀ ps, s.resolveParams (TypeExpr.mapFileParams φ ps) =
      HostType.mapFileList φ (s.resolveParams ps)
  | [] => rfl
  | ⟨_, type⟩ :: ps => by
    simp only [TypeExpr.mapFileParams, resolveParams, resolve_mapFile type,
      resolveParams_mapFile ps, HostType.mapFileList]

private theorem resolveFields_mapFile :
    ∀ fs, s.resolveFields (TypeExpr.mapFileFields φ fs) =
      HostType.mapFileFields φ (s.resolveFields fs)
  | [] => rfl
  | ⟨names, type, tag⟩ :: fs => by
    simp only [TypeExpr.mapFileFields, resolveFields, resolve_mapFile type,
      resolveFields_mapFile fs, HostType.mapFileFields_eq, fieldsOf_mapFile, List.map_append]

end

end Scope

/-! ### Names without a meaning -/

/-- The fault with the place of a first declaration in another file. -/
def TypeFault.mapFile : TypeFault → TypeFault
  | undefined name => undefined name
  | typeRedeclared name previous => typeRedeclared name (previous.mapFile φ)
  | methodRedeclared receiver method previous =>
    methodRedeclared receiver method (previous.mapFile φ)
  | receiverNotLocal type => receiverNotLocal type

/-- The problem in another file. -/
def TypeProblem.mapFile (problem : TypeProblem) : TypeProblem :=
  ⟨problem.location.mapFile φ, problem.fault.mapFile φ⟩

namespace Scope

variable (s : Scope)

mutual

/-- The problems of a type expression are found at the same names, which stand in the other file. -/
theorem problems_mapFile :
    ∀ e : TypeExpr, s.problems (e.mapFile φ) = (s.problems e).map (TypeProblem.mapFile φ)
  | .ident id => by
    have hname : (id.mapFile φ).name = id.name := rfl
    rw [TypeExpr.mapFile, problems, problems, hname]
    split <;> rfl
  | .qualified package _ => by
    have hpackage : (package.mapFile φ).name = package.name := rfl
    rw [TypeExpr.mapFile, problems, problems, hpackage]
    split <;> rfl
  | .generic base args => by
    simp only [TypeExpr.mapFile, problems, problems_mapFile base, problemsList_mapFile args,
      List.map_append]
  | .pointer _ elem | .slice _ elem | .ellipsis _ elem | .array _ _ elem | .chan _ _ elem => by
    simp only [TypeExpr.mapFile, problems, problems_mapFile elem]
  | .map _ key value => by
    simp only [TypeExpr.mapFile, problems, problems_mapFile key, problems_mapFile value,
      List.map_append]
  | .func ⟨params, results, _⟩ => by
    simp only [TypeExpr.mapFile, problems, TypeExpr.mapFileParams_eq,
      problemsParams_mapFile params, problemsParams_mapFile results, List.map_append]
  | .struct _ fields => by
    simp only [TypeExpr.mapFile, problems, problemsFields_mapFile fields]
  | .interface _ _ => rfl

private theorem problemsList_mapFile :
    ∀ es, s.problemsList (TypeExpr.mapFileList φ es) =
      (s.problemsList es).map (TypeProblem.mapFile φ)
  | [] => rfl
  | e :: es => by
    simp only [TypeExpr.mapFileList, problemsList, problems_mapFile e, problemsList_mapFile es,
      List.map_append]

theorem problemsParams_mapFile :
    ∀ ps : List Param, s.problemsParams (ps.map (ParamOf.mapFile φ)) =
      (s.problemsParams ps).map (TypeProblem.mapFile φ)
  | [] => rfl
  | ⟨_, type⟩ :: ps => by
    simp only [List.map_cons, ParamOf.mapFile, problemsParams, problems_mapFile type,
      problemsParams_mapFile ps, List.map_append]

private theorem problemsFields_mapFile :
    ∀ fs, s.problemsFields (TypeExpr.mapFileFields φ fs) =
      (s.problemsFields fs).map (TypeProblem.mapFile φ)
  | [] => rfl
  | ⟨_, type, _⟩ :: fs => by
    simp only [TypeExpr.mapFileFields, problemsFields, problems_mapFile type,
      problemsFields_mapFile fs, List.map_append]

end

end Scope

end GoPages

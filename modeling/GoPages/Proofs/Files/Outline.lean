import GoPages.Outline.Findings
import GoPages.Proofs.Files.Model

/-!
# Outlines of packages in files under other names

The roles of declared types and the outline of an application are those of the package, in files
under other names. So are the findings about types (`Setting.outlineFindings_mapFile`), as long as
base names are kept: the messages about redeclared types and methods show places.
-/

namespace GoPages

variable (φ : String → String) (digest : String)

/-! ### Doc comments -/

/-- The subject of an event is read from the text of its comment. -/
theorem Subject.ofComment_mapFile (name : String) (doc : Option CommentGroup) :
    ofComment name (doc.map (CommentGroup.mapFile φ)) = ofComment name doc := by
  cases doc <;> rfl

/-- So is the route of a page or an action. -/
theorem Route.ofComment_mapFile (name : String) (doc : Option CommentGroup) :
    ofComment name (doc.map (CommentGroup.mapFile φ)) = ofComment name doc := by
  cases doc <;> rfl

/-! ### Type problems -/

/-- A message shows the base names of files alone. -/
theorem TypeFault.message_mapFile {φ : String → String} (hφ : Location.KeepsBaseNames φ)
    (fault : TypeFault) : (fault.mapFile φ).message = fault.message := by
  unfold mapFile message
  cases fault with
  | typeRedeclared name previous => simp only [Location.normalized_mapFile hφ]
  | methodRedeclared receiver method previous => simp only [Location.normalized_mapFile hφ]
  | _ => rfl

/-! ### Payloads -/

namespace Payload

/-- The item in another file. -/
def Item.mapFile : Item → Item
  | field f => field (f.mapFile φ)
  | type t => type (t.mapFile φ)

variable (p : Package)

private theorem map_render_candidates_mapFile (type : HostType) :
    (candidates (p.mapFile φ digest) (type.mapFile φ)).map HostType.render =
      (candidates p type).map HostType.render := by
  have hrender : HostType.render ∘ HostType.mapFile φ = HostType.render :=
    funext (HostType.render_mapFile φ)
  have hdecls : (p.mapFile φ digest).typeDecls.flatMap (fun d =>
      (((p.mapFile φ digest).declScope d).resolve d.spec.type).parts) =
      (p.typeDecls.flatMap fun d => ((p.declScope d).resolve d.spec.type).parts).map
        (HostType.mapFile φ) := by
    rw [Package.typeDecls_mapFile]
    refine flatMap_map_of_comm (fun d => ?_) p.typeDecls
    have htype : (d.mapFile φ).spec.type = d.spec.type.mapFile φ := rfl
    rw [Package.declScope_mapFile, htype, Scope.resolve_mapFile, HostType.parts_mapFile]
  rw [candidates, candidates, hdecls, HostType.parts_mapFile, ← List.map_append, List.map_map,
    hrender]

private theorem inside_mapFile (t : HostType) :
    inside (p.mapFile φ digest) (t.mapFile φ) = (inside p t).map (Item.mapFile φ) := by
  have hfields (fields : List StructField) :
      (fields.map (StructFieldOf.mapFile φ)).map Item.field =
        (fields.map Item.field).map (Item.mapFile φ) := by
    rw [List.map_map, List.map_map]
    rfl
  cases t with
  | pointer elem => rfl
  | struct fields =>
    rw [HostType.mapFile_struct]
    exact hfields fields
  | named package name args =>
    have hunder := p.underlying_mapFile φ digest (.named package name args)
    rw [HostType.mapFile_named] at hunder ⊢
    rw [inside, inside, hunder]
    cases p.underlying (.named package name args) with
    | struct fields =>
      rw [HostType.mapFile_struct]
      exact hfields fields
    | _ => rfl
  | func params results variadic =>
    rw [HostType.mapFile_func]
    rfl
  | _ => rfl

private theorem fieldErrors_mapFile (event : String) (f : StructField) :
    fieldErrors event (f.mapFile φ) = (fieldErrors event f).map (AnalysisError.mapPrevious φ) := by
  have hexported : (f.mapFile φ).isExported = f.isExported := rfl
  have htag : (f.mapFile φ).tag = f.tag := rfl
  rw [fieldErrors, fieldErrors, hexported, htag, List.map_append]
  split <;> split <;> rfl

/-- A walk through a payload goes the same way, since types keep their texts. -/
private theorem walk_mapFile (event : String) (fresh : List String) (items : List Item) :
    walk (p.mapFile φ digest) event fresh (items.map (Item.mapFile φ)) =
      (walk p event fresh items).map (AnalysisError.mapPrevious φ) := by
  fun_induction walk p event fresh items with
  | case1 => rw [List.map_nil, walk, List.map_nil]
  | case2 fresh f rest ih =>
    rw [List.map_cons, Item.mapFile, walk, fieldErrors_mapFile, List.map_append, ← ih]
    rfl
  | case3 fresh t rest hfresh ih =>
    rw [List.map_cons, Item.mapFile, walk, HostType.render_mapFile, if_pos hfresh, inside_mapFile,
      ← List.map_append, ih]
  | case4 fresh t rest hfresh ih =>
    rw [List.map_cons, Item.mapFile, walk, HostType.render_mapFile, if_neg hfresh, ih]

/-- The payload of an event is checked alike. -/
theorem check_mapFile (event : String) (type : HostType) :
    check (p.mapFile φ digest) event (type.mapFile φ) =
      (check p event type).map (AnalysisError.mapPrevious φ) := by
  rw [check, check, map_render_candidates_mapFile]
  exact walk_mapFile φ digest p event _ [.type type]

end Payload

/-! ### Roles -/

/-- The role with its field declarations in another file. -/
def TypeRole.mapFile : TypeRole → TypeRole
  | page fields => page (fields.map (FieldOf.mapFile φ))
  | abstractPage fields => abstractPage (fields.map (FieldOf.mapFile φ))
  | role => role

namespace Setting

variable (s : Setting)

private theorem isAppField_mapFile (file : SourceFile) (f : FieldDecl) :
    (s.mapFile φ digest).isAppField (file.mapFile φ) (f.mapFile φ) = s.isAppField file f := by
  have hscope : (s.mapFile φ digest).package.scope (file.mapFile φ) = s.package.scope file :=
    s.package.scope_mapFile φ digest file
  have htype : (f.mapFile φ).type = f.type.mapFile φ := rfl
  rw [isAppField, isAppField, hscope, htype, Scope.resolve_mapFile, isAppPointer_mapFile]

private theorem declaresApp_mapFile (file : SourceFile) (f : FieldDecl) :
    (s.mapFile φ digest).declaresApp (file.mapFile φ) (f.mapFile φ) = s.declaresApp file f := by
  have hfield := s.isAppField_mapFile φ digest file f
  obtain ⟨names, type, tag⟩ := f
  rw [declaresApp, declaresApp, hfield]
  match names with
  | [] => rfl
  | [id] => rfl
  | _ :: _ :: _ => rfl

private theorem any_declaresApp_mapFile (file : SourceFile) (fields : List FieldDecl) :
    (fields.map (FieldOf.mapFile φ)).any ((s.mapFile φ digest).declaresApp (file.mapFile φ)) =
      fields.any (s.declaresApp file) := by
  rw [List.any_map]
  exact congrArg fields.any (funext (s.declaresApp_mapFile φ digest file))

private theorem typeRole_mapFile (d : TypeDecl) :
    (s.mapFile φ digest).typeRole (d.mapFile φ) = (s.typeRole d).mapFile φ := by
  have hname : (d.mapFile φ).name = d.name := rfl
  have hfile : (d.mapFile φ).file = d.file.mapFile φ := rfl
  have hconventions : (s.mapFile φ digest).conventions = s.conventions := rfl
  simp only [typeRole, hname, hfile, hconventions, isEventType_mapFile,
    TypeDecl.structFields?_mapFile]
  split
  · rfl
  · rfl
  · split
    · rfl
    · cases d.structFields? with
      | none => rfl
      | some fields =>
        simp only [Option.map_some, any_declaresApp_mapFile]
        split
        · rfl
        · split <;> rfl

private theorem isAbstractPage_mapFile (d : TypeDecl) :
    (s.mapFile φ digest).isAbstractPage (d.mapFile φ) = s.isAbstractPage d := by
  rw [isAbstractPage, isAbstractPage, typeRole_mapFile]
  cases s.typeRole d <;> rfl

private theorem isAbstractName_mapFile (name : String) :
    (s.mapFile φ digest).isAbstractName name = s.isAbstractName name := by
  have hdecl : (s.mapFile φ digest).package.typeDecl? name =
      (s.package.typeDecl? name).map (TypeDecl.mapFile φ) :=
    s.package.typeDecl?_mapFile φ digest name
  rw [isAbstractName, isAbstractName, hdecl]
  cases s.package.typeDecl? name with
  | none => rfl
  | some d => exact s.isAbstractPage_mapFile φ digest d

/-- The declared types are those of the other files, in the same order. -/
theorem types_mapFile :
    (s.mapFile φ digest).package.types = s.package.types.map (TypeDecl.mapFile φ) :=
  s.package.types_mapFile φ digest

/-! ### Pages -/

private theorem embeddings_mapFile (fields : List FieldDecl) :
    embeddings (fields.map (FieldOf.mapFile φ)) =
      (embeddings fields).map (EmbedRef.mapFile φ) := by
  have hembedded : FieldOf.isEmbedded ∘ FieldOf.mapFile φ = FieldOf.isEmbedded :=
    funext fun f => by simp [FieldOf.isEmbedded, FieldOf.mapFile]
  rw [embeddings, embeddings, List.filter_map, hembedded, List.filterMap_map, List.map_filterMap]
  refine congrArg (List.filterMap · _) (funext fun f => ?_)
  have htype : (f.mapFile φ).type = f.type.mapFile φ := rfl
  rw [Function.comp_apply, htype, TypeExpr.embeddedName_mapFile, TypeExpr.location_mapFile,
    Option.map_map, Option.map_map]
  rfl

private theorem embeds_mapFile (fields : List FieldDecl) :
    (s.mapFile φ digest).embeds (fields.map (FieldOf.mapFile φ)) =
      (s.embeds fields).map (EmbedRef.mapFile φ) := by
  rw [embeds, embeds, embeddings_mapFile, List.filter_map]
  simp only [isAbstractName_mapFile]
  rfl

private theorem page?_mapFile (d : TypeDecl) :
    (s.mapFile φ digest).page? (d.mapFile φ) = (s.page? d).map (Page.mapFile φ) := by
  have hdoc : (d.mapFile φ).spec.doc = d.spec.doc.map (CommentGroup.mapFile φ) := rfl
  rw [page?, page?, typeRole_mapFile, hdoc, Route.ofComment_mapFile]
  cases s.typeRole d with
  | page fields =>
    have hembeds := s.embeds_mapFile φ digest fields
    simp only [TypeRole.mapFile, hembeds]
    rfl
  | _ => rfl

/-- The pages of the outline are the same, with the other files in their places. -/
theorem pages_mapFile : (s.mapFile φ digest).pages = s.pages.map (Page.mapFile φ) := by
  rw [pages, pages, types_mapFile]
  exact filterMap_map_of_comm (s.page?_mapFile φ digest) s.package.types

private theorem abstractPage?_mapFile (d : TypeDecl) :
    (s.mapFile φ digest).abstractPage? (d.mapFile φ) =
      (s.abstractPage? d).map (AbstractPage.mapFile φ) := by
  rw [abstractPage?, abstractPage?, typeRole_mapFile]
  cases s.typeRole d with
  | abstractPage fields =>
    have hembeds := s.embeds_mapFile φ digest fields
    simp only [TypeRole.mapFile, hembeds]
    rfl
  | _ => rfl

/-- So are the abstract pages. -/
theorem abstractPages_mapFile :
    (s.mapFile φ digest).abstractPages = s.abstractPages.map (AbstractPage.mapFile φ) := by
  rw [abstractPages, abstractPages, types_mapFile]
  exact filterMap_map_of_comm (s.abstractPage?_mapFile φ digest) s.package.types

/-! ### Findings about single declarations -/

private theorem sessionFindings_mapFile (d : TypeDecl) :
    (s.mapFile φ digest).sessionFindings (d.mapFile φ) =
      (s.sessionFindings d).map (Finding.mapFile φ) := by
  have hunder : (s.mapFile φ digest).package.underlying (.named "" d.name []) =
      (s.package.underlying (.named "" d.name [])).mapFile φ :=
    s.package.underlying_mapFile φ digest (.named "" d.name [])
  have hname : (d.mapFile φ).name = d.name := rfl
  rw [sessionFindings, sessionFindings, sessionShape?, sessionShape?, hname, hunder]
  cases s.package.underlying (.named "" d.name []) with
  | struct fields =>
    have huser : (fields.map (StructFieldOf.mapFile φ)).any
        (fun f => f.name == s.conventions.sessionUserField) =
        fields.any fun f => f.name == s.conventions.sessionUserField := by
      rw [List.any_map]
      rfl
    have hconventions : (s.mapFile φ digest).conventions = s.conventions := rfl
    rw [HostType.mapFile_struct]
    simp only [huser, hconventions]
    split <;> rfl
  | _ => rfl

private theorem subjectFindings_mapFile (d : TypeDecl) :
    subjectFindings (d.mapFile φ) = (subjectFindings d).map (Finding.mapFile φ) := by
  have hname : (d.mapFile φ).name = d.name := rfl
  have hdoc : (d.mapFile φ).spec.doc = d.spec.doc.map (CommentGroup.mapFile φ) := rfl
  rw [subjectFindings, subjectFindings, hname, hdoc, Subject.ofComment_mapFile]
  cases Subject.ofComment d.name d.spec.doc <;> rfl

private theorem namedFields_mapFile (fields : List FieldDecl) :
    namedFields (fields.map (FieldOf.mapFile φ)) =
      (namedFields fields).map (Prod.map (Ident.mapFile φ) (FieldOf.mapFile φ)) := by
  simp only [namedFields, List.flatMap_map, List.map_flatMap, FieldOf.mapFile, List.map_map]
  rfl

private theorem extraFields_mapFile (d : TypeDecl) (fields : List FieldDecl) :
    (s.mapFile φ digest).extraFields (d.mapFile φ) (fields.map (FieldOf.mapFile φ)) =
      (s.extraFields d fields).map (Ident.mapFile φ) := by
  have hfile : (d.mapFile φ).file = d.file.mapFile φ := rfl
  have hconventions : (s.mapFile φ digest).conventions = s.conventions := rfl
  -- The first field for the application is taken out, wherever it is declared.
  rw [extraFields, extraFields, namedFields_mapFile, List.eraseP_map, List.map_map, List.map_map,
    hfile, hconventions]
  simp only [Function.comp_def, Prod.map, isAppField_mapFile]
  rfl

private theorem pageRouteFindings_mapFile (d : TypeDecl) :
    pageRouteFindings (d.mapFile φ) = (pageRouteFindings d).map (Finding.mapFile φ) := by
  have hname : (d.mapFile φ).name = d.name := rfl
  have hdoc : (d.mapFile φ).spec.doc = d.spec.doc.map (CommentGroup.mapFile φ) := rfl
  rw [pageRouteFindings, pageRouteFindings, hname, hdoc, Route.ofComment_mapFile]
  cases Route.ofComment d.name d.spec.doc <;> rfl

private theorem pageFindings_mapFile (d : TypeDecl) (fields : List FieldDecl) :
    (s.mapFile φ digest).pageFindings (d.mapFile φ) (fields.map (FieldOf.mapFile φ)) =
      (s.pageFindings d fields).map (Finding.mapFile φ) := by
  have hname : (d.mapFile φ).name = d.name := rfl
  have hfile : (d.mapFile φ).file = d.file.mapFile φ := rfl
  have hconventions : (s.mapFile φ digest).conventions = s.conventions := rfl
  have hif (c : Bool) (e : AnalysisError) (he : e.mapPrevious φ = e) :
      (if c then [] else [((d.mapFile φ).location, e)]) =
        (if c then [] else [(d.location, e)] : List Finding).map (Finding.mapFile φ) := by
    cases c
    · exact congrArg (fun e => [((d.mapFile φ).location, e)]) he.symm
    · rfl
  simp only [pageFindings, hname, hfile, hconventions, any_declaresApp_mapFile, extraFields_mapFile,
    pageRouteFindings_mapFile, List.map_append, List.map_map]
  rw [hif _ _ rfl, hif _ _ rfl]
  rfl

private theorem roleOfTypeFindings_mapFile (d : TypeDecl) :
    (s.mapFile φ digest).roleOfTypeFindings (d.mapFile φ) =
      (s.roleOfTypeFindings d).map (Finding.mapFile φ) := by
  rw [roleOfTypeFindings, roleOfTypeFindings, typeRole_mapFile]
  cases s.typeRole d with
  | session => exact s.sessionFindings_mapFile φ digest d
  | event => exact subjectFindings_mapFile φ d
  | page fields => exact s.pageFindings_mapFile φ digest d fields
  | _ => rfl

/-! ### Findings about all declarations -/

private theorem payloadFindings_mapFile :
    (s.mapFile φ digest).payloadFindings = s.payloadFindings.map (Finding.mapFile φ) := by
  rw [payloadFindings, payloadFindings, eventTypes_mapFile]
  refine flatMap_map_of_comm (fun d => ?_) s.eventTypes
  have hcheck : Payload.check (s.mapFile φ digest).package d.name (.named "" d.name []) =
      (Payload.check s.package d.name (.named "" d.name [])).map (AnalysisError.mapPrevious φ) :=
    Payload.check_mapFile φ digest s.package d.name (.named "" d.name [])
  have hname : (d.mapFile φ).name = d.name := rfl
  rw [hname, hcheck, List.map_map, List.map_map]
  rfl

private theorem embedFindings_mapFile (owner : String) (fields : List FieldDecl) :
    (s.mapFile φ digest).embedFindings owner (fields.map (FieldOf.mapFile φ)) =
      (s.embedFindings owner fields).map (Finding.mapFile φ) := by
  rw [embedFindings, embedFindings, embeddings_mapFile, List.filter_map, List.map_map, List.map_map]
  simp only [isAbstractName_mapFile]
  rfl

private theorem pageEmbedFindings_mapFile :
    (s.mapFile φ digest).pageEmbedFindings = s.pageEmbedFindings.map (Finding.mapFile φ) := by
  rw [pageEmbedFindings, pageEmbedFindings, types_mapFile]
  refine flatMap_map_of_comm (fun d => ?_) s.package.types
  rw [typeRole_mapFile]
  cases s.typeRole d with
  | page fields => exact s.embedFindings_mapFile φ digest d.name fields
  | _ => rfl

private theorem abstractEmbedFindings_mapFile :
    (s.mapFile φ digest).abstractEmbedFindings =
      s.abstractEmbedFindings.map (Finding.mapFile φ) := by
  rw [abstractEmbedFindings, abstractEmbedFindings, types_mapFile]
  refine flatMap_map_of_comm (fun d => ?_) s.package.types
  rw [typeRole_mapFile]
  cases s.typeRole d with
  | abstractPage fields => exact s.embedFindings_mapFile φ digest d.name fields
  | _ => rfl

variable {φ}

/-- The problems of the check show the places of earlier declarations by their base names. -/
private theorem typeProblems_mapFile (hφ : Location.KeepsBaseNames φ) :
    (s.mapFile φ digest).typeProblems = s.typeProblems.map (Finding.mapFile φ) := by
  have hcheck : (s.mapFile φ digest).package.check = s.package.check.map (TypeProblem.mapFile φ) :=
    s.package.check_mapFile φ digest
  rw [typeProblems, typeProblems, hcheck, List.map_map, List.map_map]
  refine congrArg (List.map · s.package.check) (funext fun problem => ?_)
  have hfault : (problem.mapFile φ).fault = problem.fault.mapFile φ := rfl
  have hlocation : (problem.mapFile φ).location = problem.location.mapFile φ := rfl
  rw [Function.comp_apply, hfault, hlocation, TypeFault.message_mapFile hφ]
  simp only [Function.comp_apply, Finding.mapFile, AnalysisError.mapPrevious]

private theorem appFindings_mapFile (hφ : Location.KeepsBaseNames φ) :
    (s.mapFile φ digest).appFindings = s.appFindings.map (Finding.mapFile φ) := by
  have hdecl : ((s.mapFile φ digest).package.typeDecl? s.conventions.appType).isSome =
      (s.package.typeDecl? s.conventions.appType).isSome :=
    s.package.isSome_typeDecl?_mapFile φ digest s.conventions.appType
  have hlocation : (s.mapFile φ digest).package.location = s.package.location.mapFile φ :=
    s.package.location_mapFile φ digest hφ.empty
  have hconventions : (s.mapFile φ digest).conventions = s.conventions := rfl
  rw [appFindings, appFindings, hconventions, hdecl, hlocation]
  split <;> rfl

/-- The findings about the types of a package whose files have other names. -/
theorem outlineFindings_mapFile (hφ : Location.KeepsBaseNames φ) :
    (s.mapFile φ digest).outlineFindings = s.outlineFindings.map (Finding.mapFile φ) := by
  have hroles : (s.mapFile φ digest).package.types.flatMap (s.mapFile φ digest).roleOfTypeFindings =
      (s.package.types.flatMap s.roleOfTypeFindings).map (Finding.mapFile φ) := by
    rw [types_mapFile]
    exact flatMap_map_of_comm (s.roleOfTypeFindings_mapFile φ digest) s.package.types
  simp only [outlineFindings, s.typeProblems_mapFile digest hφ, s.appFindings_mapFile digest hφ,
    hroles, payloadFindings_mapFile, pageEmbedFindings_mapFile, abstractEmbedFindings_mapFile,
    List.map_append]

end Setting

end GoPages

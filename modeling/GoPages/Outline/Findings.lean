import GoPages.Outline
import GoPages.Package.Check

/-!
# Findings about types

The findings of an analysis that type declarations alone give: the problems of the package's types,
a missing application, what is wrong with the session, with subjects and payloads of events, with
the names, fields and routes of pages, and embedded types that are no abstract pages.
-/

namespace GoPages.Setting

/-- The problems of the package's types. -/
def typeProblems (s : Setting) : List Finding :=
  s.package.check.map fun problem => (problem.location, .typeCheck problem.fault.message)

/-- The finding that no type is the application. -/
def appFindings (s : Setting) : List Finding :=
  if (s.package.typeDecl? s.conventions.appType).isSome then []
  else [(s.package.location, .missingApp s.conventions.appType)]

/-! ### Single declarations -/

/-- The findings about the session type. -/
def sessionFindings (s : Setting) (d : TypeDecl) : List Finding :=
  match s.sessionShape? d with
  | none => [(d.location, .sessionNotStruct d.name)]
  | some shape =>
    if shape.fields.any fun f => f.name == s.conventions.sessionUserField then []
    else [(d.location, .sessionMissingUserId d.name s.conventions.sessionUserField)]

/-- The findings about the subject of an event. -/
def subjectFindings (d : TypeDecl) : List Finding :=
  ((Subject.ofComment d.name d.spec.doc).error? d.name).toList.map fun e => (d.location, e)

/-- The names that field declarations declare, each with its declaration. -/
def namedFields (fields : List FieldDecl) : List (Ident × FieldDecl) :=
  fields.flatMap fun f => f.names.map fun id => (id, f)

/-- The named fields of a page other than the first one for the application. -/
def extraFields (s : Setting) (d : TypeDecl) (fields : List FieldDecl) : List Ident :=
  ((namedFields fields).eraseP fun (id, f) =>
    id.name == s.conventions.appType && s.isAppField d.file f).map Prod.fst

/-- The findings about the route comment of a page. -/
def pageRouteFindings (d : TypeDecl) : List Finding :=
  match Route.ofComment d.name d.spec.doc with
  | .wellFormed _ => []
  | .notAttempted => [(d.location, .pageMissingRouteComment d.name)]
  | .malformed => [(d.location, .pageInvalidRouteComment d.name)]

/-- The findings about a page. -/
def pageFindings (s : Setting) (d : TypeDecl) (fields : List FieldDecl) : List Finding :=
  (if s.conventions.isValidPageName d.name then [] else [(d.location, .pageNameInvalid d.name)]) ++
  (if fields.any (s.declaresApp d.file) then [] else [(d.location, .pageMissingAppField d.name)]) ++
  (s.extraFields d fields).map (fun id => (id.location, .pageHasExtraFields d.name id.name)) ++
  pageRouteFindings d

/-- The findings about a declared type in its role. -/
def roleOfTypeFindings (s : Setting) (d : TypeDecl) : List Finding :=
  match s.typeRole d with
  | .session => s.sessionFindings d
  | .event => subjectFindings d
  | .page fields => s.pageFindings d fields
  | _ => []

/-! ### All declarations -/

/-- The findings about the payloads of events. -/
def payloadFindings (s : Setting) : List Finding :=
  s.eventTypes.flatMap fun d =>
    (Payload.check s.package d.name (.named "" d.name [])).map fun e => (d.location, e)

/-- The findings about embedded types that are no abstract pages. -/
def embedFindings (s : Setting) (owner : String) (fields : List FieldDecl) : List Finding :=
  ((embeddings fields).filter fun e => !s.isAbstractName e.typeName).map fun e =>
    (e.location, .embedNotAbstract owner e.typeName)

/-- The findings about the embeddings of pages. -/
def pageEmbedFindings (s : Setting) : List Finding :=
  s.package.types.flatMap fun d =>
    match s.typeRole d with
    | .page fields => s.embedFindings d.name fields
    | _ => []

/-- The findings about the embeddings of abstract pages. -/
def abstractEmbedFindings (s : Setting) : List Finding :=
  s.package.types.flatMap fun d =>
    match s.typeRole d with
    | .abstractPage fields => s.embedFindings d.name fields
    | _ => []

/-- The findings about the types of the package. -/
def outlineFindings (s : Setting) : List Finding :=
  s.typeProblems ++ s.appFindings ++ s.package.types.flatMap s.roleOfTypeFindings ++
    s.payloadFindings ++ s.pageEmbedFindings ++ s.abstractEmbedFindings

end GoPages.Setting

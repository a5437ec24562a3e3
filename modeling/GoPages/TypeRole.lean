import GoPages.Setting

/-!
# The roles of declared types

`Setting.typeRole` is what a declared type is for: the application, the session, an event, a page,
an abstract page, or nothing of these. Its name decides first; pages and abstract pages are struct
types, and an abstract page is known by its field for the application.
-/

namespace GoPages

/-- What a declared type is for. Pages come with their field declarations. -/
inductive TypeRole where
  | app
  | session
  | event
  | page (fields : List FieldDecl)
  | abstractPage (fields : List FieldDecl)
  | other

/-- The field declarations of a page or an abstract page. -/
def TypeRole.fields : TypeRole → List FieldDecl
  | page fields => fields
  | abstractPage fields => fields
  | _ => []

namespace Setting

/-- Is a field of a type in this file a pointer to the application? -/
def isAppField (s : Setting) (file : SourceFile) (f : FieldDecl) : Bool :=
  s.isAppPointer ((s.package.scope file).resolve (FieldOf.type f))

/-- Does the field declaration declare one field, with the name and the type of the application? -/
def declaresApp (s : Setting) (file : SourceFile) (f : FieldDecl) : Bool :=
  match f.names with
  | [id] => id.name == s.conventions.appType && s.isAppField file f
  | _ => false

/-- What a declared type is for. -/
def typeRole (s : Setting) (d : TypeDecl) : TypeRole :=
  match s.conventions.nameKind d.name with
  | .app => .app
  | .session => .session
  | kind =>
    if kind = .event && s.isEventType d.name then .event
    else match d.structFields? with
      | none => .other
      | some fields =>
        if kind = .page then .page fields
        else if fields.any (s.declaresApp d.file) then .abstractPage fields
        else .other

/-- Does the declaration declare an abstract page? -/
def isAbstractPage (s : Setting) (d : TypeDecl) : Bool :=
  match s.typeRole d with
  | .abstractPage _ => true
  | _ => false

/-- Is the name the name of an abstract page? -/
def isAbstractName (s : Setting) (name : String) : Bool :=
  match s.package.typeDecl? name with
  | some d => s.isAbstractPage d
  | none => false

end Setting

end GoPages

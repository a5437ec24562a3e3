import GoPages.Event.Payload
import GoPages.Model
import GoPages.Route.Comment
import GoPages.TypeRole

/-!
# The outline of an application

The outline is what the type declarations of a package say about an application: its session, its
events, and its pages and abstract pages with their embeddings, but without handlers. All of them
stand in the order of their names.
-/

namespace GoPages.Setting

/-! ### Session and events -/

/-- The session that a declaration declares. -/
def sessionShape? (s : Setting) (d : TypeDecl) : Option SessionShape :=
  match s.package.underlying (.named "" d.name []) with
  | .struct fields => some ⟨d.name, d.location, fields⟩
  | _ => none

/-- The session of the package. -/
def session? (s : Setting) : Option SessionShape :=
  s.package.types.findSome? fun d =>
    match s.typeRole d with
    | .session => s.sessionShape? d
    | _ => none

/-- The session is a declared type in this role, and a struct type underneath. -/
theorem exists_of_session? {s : Setting} {x : SessionShape} (h : s.session? = some x) :
    ∃ d ∈ s.package.types, s.typeRole d = .session ∧ ∃ fields,
      s.package.underlying (.named "" d.name []) = .struct fields ∧
        x = ⟨d.name, d.location, fields⟩ := by
  obtain ⟨d, hd, hx⟩ := List.exists_of_findSome?_eq_some h
  split at hx
  · next hrole =>
    rw [sessionShape?] at hx
    split at hx
    · next fields hfields => exact ⟨d, hd, hrole, fields, hfields, (Option.some.inj hx).symm⟩
    · cases hx
  · cases hx

/-- The event that a declaration declares, if its comment gives a subject. -/
def eventShape? (s : Setting) (d : TypeDecl) : Option Event :=
  match Subject.ofComment d.name d.spec.doc with
  | .valid subject =>
    some
      { typeName := d.name
        subject := subject
        hasTargetUserIds :=
          Payload.namesUsers s.package s.conventions.targetUserIdsField (.named "" d.name [])
        location := d.location }
  | _ => none

/-- The events of the package. -/
def events (s : Setting) : List Event :=
  s.package.types.filterMap fun d =>
    match s.typeRole d with
    | .event => s.eventShape? d
    | _ => none

/-! ### Embeddings -/

/-- The embedded fields that have a name, each with the place of its type. -/
def embeddings (fields : List FieldDecl) : List EmbedRef :=
  (fields.filter FieldOf.isEmbedded).filterMap fun f =>
    f.type.embeddedName.map fun id => ⟨id.name, f.type.location⟩

/-- The embedded fields that are abstract pages. -/
def embeds (s : Setting) (fields : List FieldDecl) : List EmbedRef :=
  (embeddings fields).filter fun e => s.isAbstractName e.typeName

/-! ### Pages -/

/-- The kind of a page by its name. -/
def pageKind (s : Setting) (name : String) : PageKind :=
  if name = s.conventions.indexPage then .index
  else if name = s.conventions.error404Page then .error404
  else if name = s.conventions.error500Page then .error500
  else .ordinary

/-- The page that a declaration declares, without handlers. -/
def page? (s : Setting) (d : TypeDecl) : Option Page :=
  match s.typeRole d with
  | .page fields =>
    some
      { typeName := d.name
        route := (Route.ofComment d.name d.spec.doc).route
        kind := s.pageKind d.name
        location := d.location
        get := none
        actions := []
        eventHandlers := []
        embeds := s.embeds fields }
  | _ => none

/-- The pages of the package, without handlers. -/
def pages (s : Setting) : List Page := s.package.types.filterMap s.page?

/-- The abstract page that a declaration declares, without handlers. -/
def abstractPage? (s : Setting) (d : TypeDecl) : Option AbstractPage :=
  match s.typeRole d with
  | .abstractPage fields =>
    some
      { typeName := d.name
        location := d.location
        get := none
        actions := []
        eventHandlers := []
        embeds := s.embeds fields }
  | _ => none

/-- The abstract pages of the package, without handlers. -/
def abstractPages (s : Setting) : List AbstractPage := s.package.types.filterMap s.abstractPage?

end GoPages.Setting

import GoPages.Conventions.Names
import GoPages.Diagnostic
import GoPages.Package.Declarations

/-!
# The setting of an analysis

A `Setting` is a package with the conventions under which it declares pages. It says which types of
the package are events and which type is the session, as far as several parts of an analysis have to
agree about it.

* `Setting.eventTypes` are the event types in the order of their names, and `Setting.isEventType`
  says whether a name is the name of one.
* `Setting.eventOf?` is the event type that a parameter type stands for: aliases and one pointer do
  not matter.
-/

namespace GoPages

/-- A finding with its place. -/
abbrev Finding := Location × AnalysisError

/-- A package with the conventions under which it declares pages. -/
structure Setting where
  package : Package
  conventions : Conventions

namespace Setting

/-- Is the name the whole name of an event, and the name of a declared type? -/
def isEventType (s : Setting) (name : String) : Bool :=
  s.conventions.isValidEventName name && (s.package.typeDecl? name).isSome

/-- The event types in the order of their names. -/
def eventTypes (s : Setting) : List TypeDecl :=
  s.package.types.filter fun d => s.conventions.isValidEventName d.name

/-- The event type that a type or a pointer to it stands for. -/
def eventOf? (s : Setting) (type : HostType) : Option String :=
  (s.package.unalias type.stripPointer).localName.filter s.isEventType

/-- Does the type stand for the session type? -/
def isSession (s : Setting) (type : HostType) : Bool :=
  (s.package.unalias type).localName == some s.conventions.sessionType

/-- Is the type a pointer to the type of the application? -/
def isAppPointer (s : Setting) (type : HostType) : Bool :=
  match type with
  | .pointer elem => elem.localName == some s.conventions.appType
  | _ => false

end Setting

end GoPages

import GoPages.HostType

/-!
# Conventions

`Conventions` is the vocabulary by which a package declares pages: the names of types and fields,
the beginnings of names, the verbs of actions, and the types of handler parameters.
`Conventions.standard` is the default.
-/

namespace GoPages

/-- A type of some package, or a pointer to it. -/
structure QualifiedType where
  package : String
  name : String
  pointer : Bool
deriving DecidableEq, Inhabited

/-- Is a resolved type the qualified one? Type arguments do not count. -/
def QualifiedType.accepts (q : QualifiedType) (type : HostType) : Bool :=
  match q.pointer, type with
  | true, .pointer elem => elem.isNamed q.package q.name
  | true, _ => false
  | false, type => type.isNamed q.package q.name

/-- The qualified type as a resolved type. -/
def QualifiedType.toHostType (q : QualifiedType) : HostType :=
  let named := HostType.named q.package q.name []
  if q.pointer then .pointer named else named

/-- The vocabulary by which a package declares pages. -/
structure Conventions where
  appType : String
  sessionType : String
  sessionUserField : String
  pagePrefix : String
  eventPrefix : String
  eventHandlerPrefix : String
  getMethod : String
  actionVerbs : List String
  indexPage : String
  error404Page : String
  error500Page : String
  headHook : String
  recover500Hook : String
  targetUserIdsField : String
  requestType : QualifiedType
  sseType : QualifiedType
  componentType : QualifiedType
deriving DecidableEq

/-- The default vocabulary. -/
def Conventions.standard : Conventions where
  appType := "App"
  sessionType := "Session"
  sessionUserField := "UserID"
  pagePrefix := "Page"
  eventPrefix := "Event"
  eventHandlerPrefix := "On"
  getMethod := "GET"
  actionVerbs := ["POST", "PUT", "DELETE"]
  indexPage := "PageIndex"
  error404Page := "PageError404"
  error500Page := "PageError500"
  headHook := "Head"
  recover500Hook := "Recover500"
  targetUserIdsField := "TargetUserIDs"
  requestType := ⟨"net/http", "Request", true⟩
  sseType := ⟨"github.com/starfederation/datastar-go/datastar", "ServerSentEventGenerator", true⟩
  componentType := ⟨"github.com/a-h/templ", "Component", false⟩

instance : Inhabited Conventions := ⟨Conventions.standard⟩

end GoPages

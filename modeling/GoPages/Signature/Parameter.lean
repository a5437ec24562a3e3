import GoPages.Model
import GoPages.Setting
import GoPages.TypeExpr.Render

/-!
# Parameters of methods

A `Method` is a method of a page, an abstract page or the application, and a `Parameter` is one of
its parameters or results together with the type that it denotes in the scope of the method.
-/

namespace GoPages

/-- A method with the name of its receiver's type. -/
structure Method where
  receiver : String
  decl : MethodDecl

/-- The name of a method. -/
def Method.name (m : Method) : String := m.decl.decl.name.name

/-- The place of the name of a method. -/
def Method.location (m : Method) : Location := m.decl.decl.name.location

/-- A parameter or result with the type that it denotes. -/
structure Parameter where
  decl : Param
  type : HostType

namespace Parameter

/-- The name of a parameter, empty if it has none. -/
def name (p : Parameter) : String := p.decl.nameText

/-- The place of a parameter. -/
def location (p : Parameter) : Location := p.decl.location

/-- The type of a parameter as it is written. -/
def expr (p : Parameter) : String := p.decl.type.render

/-- What a message calls a parameter: its name, or else its type. -/
def label (p : Parameter) : String := if p.name = "" then p.expr else p.name

/-- The parameter in the model. -/
def slot (p : Parameter) : Slot := ⟨p.name, ⟨p.type, p.expr⟩, p.location⟩

/-- A finding at a parameter. -/
def finding (p : Parameter) (e : AnalysisError) : Finding := (p.location, e)

end Parameter

namespace Method

/-- A finding at the name of a method. -/
def finding (m : Method) (e : AnalysisError) : Finding := (m.location, e)

/-- Parameters or results in the scope of a method. -/
def resolved (m : Method) (p : Package) (decls : List Param) : List Parameter :=
  decls.map fun decl => ⟨decl, (p.methodScope m.decl).resolve (ParamOf.type decl)⟩

/-- The parameters of a method. -/
def params (m : Method) (p : Package) : List Parameter := m.resolved p m.decl.decl.type.params

/-- The results of a method. -/
def results (m : Method) (p : Package) : List Parameter := m.resolved p m.decl.decl.type.results

end Method

end GoPages

import GoPages.Signature.Parameter
import GoPages.StructTag

/-!
# The shape of structured parameters

Some parameters of handlers have a shape of their own.

* The parameters `path`, `query` and `signals` are struct types that are written out in the
  signature. Their fields are exported and have a tag; those of `path` are strings.
  `StructInput.error?` is the first violation, field by field.
* The parameter `dispatch` is a function from events to an error. `Dispatch.eventParams` are its
  parameter types, or what is wrong with it.
* `HostType.tagNames` are the names that the tags of a struct type give its fields under a key.
-/

namespace GoPages

/-- The parameters that are structs. -/
inductive StructInput where
  | path
  | query
  | signals
deriving DecidableEq

namespace StructInput

/-- The name of a struct parameter. -/
def name : StructInput → String
  | path => "path"
  | query => "query"
  | signals => "signals"

/-- The key of the tag that every field has. -/
def tagKey : StructInput → String
  | path => "path"
  | query => "query"
  | signals => "json"

/-- What is wrong with a field. -/
def fieldError? (k : StructInput) (p : Package) (m : Method) (f : StructField) :
    Option AnalysisError :=
  if !f.isExported then some (.inputFieldUnexported m.receiver m.name k.name f.name)
  else if k = path && !p.isBasicUnderlying "string" f.type then
    some (.pathFieldNotString m.receiver m.name f.name)
  else if (StructTag.lookup f.tag k.tagKey).isNone then
    some (.inputFieldMissingTag m.receiver m.name k.name f.name k.tagKey)
  else none

/-- The three things that can be wrong with a field of a structured parameter. -/
theorem fieldError?_cases {k : StructInput} {p : Package} {m : Method} {f : StructField}
    {e : AnalysisError} (he : k.fieldError? p m f = some e) :
    e = .inputFieldUnexported m.receiver m.name k.name f.name ∨
      e = .pathFieldNotString m.receiver m.name f.name ∨
      e = .inputFieldMissingTag m.receiver m.name k.name f.name k.tagKey := by
  rw [fieldError?] at he
  split at he
  · exact .inl (Option.some.inj he).symm
  split at he
  · exact .inr (.inl (Option.some.inj he).symm)
  split at he
  · exact .inr (.inr (Option.some.inj he).symm)
  · cases he

/-- The first thing that is wrong with a struct parameter. -/
def error? (k : StructInput) (p : Package) (m : Method) (param : Parameter) :
    Option AnalysisError :=
  match param.decl.type, param.type with
  | .struct _ _, .struct fields => fields.findSome? (k.fieldError? p m)
  | _, _ => some (.inputNotStruct m.receiver m.name k.name)

/-- A struct parameter is no struct, or something is wrong with one of its fields. -/
theorem error?_cases {k : StructInput} {p : Package} {m : Method} {param : Parameter}
    {e : AnalysisError} (he : k.error? p m param = some e) :
    e = .inputNotStruct m.receiver m.name k.name ∨ ∃ f, k.fieldError? p m f = some e := by
  rw [error?] at he
  split at he
  · obtain ⟨f, -, hf⟩ := List.exists_of_findSome?_eq_some he
    exact .inr ⟨f, hf⟩
  · exact .inl (Option.some.inj he).symm

end StructInput

namespace Dispatch

/-- The parameter types of a dispatch function, or what is wrong with it. -/
def eventParams (m : Method) : HostType → Except AnalysisError (List HostType)
  | .func params [result] _ =>
    if !result.isError then .error (.dispatchMustReturnError m.receiver m.name)
    else if params.isEmpty then .error (.dispatchNoParams m.receiver m.name)
    else .ok params
  | .func _ _ _ => .error (.dispatchResultCount m.receiver m.name)
  | _ => .error (.dispatchNotFunc m.receiver m.name)

/-- What is wrong with a dispatch function. -/
def error? (m : Method) (type : HostType) : Option AnalysisError :=
  match eventParams m type with
  | .error e => some e
  | .ok _ => none

private theorem error?_eq_some_iff {m : Method} {type : HostType} {e : AnalysisError} :
    error? m type = some e ↔ eventParams m type = .error e := by
  rw [error?]
  cases eventParams m type <;> simp

/-- All that can be wrong with a dispatch function. -/
theorem error?_cases {m : Method} {type : HostType} {e : AnalysisError}
    (he : error? m type = some e) :
    e = .dispatchMustReturnError m.receiver m.name ∨ e = .dispatchNoParams m.receiver m.name ∨
      e = .dispatchResultCount m.receiver m.name ∨ e = .dispatchNotFunc m.receiver m.name := by
  rw [error?_eq_some_iff] at he
  unfold eventParams at he
  split at he
  · split at he
    · exact .inl (Except.error.inj he).symm
    · split at he
      · exact .inr (.inl (Except.error.inj he).symm)
      · cases he
  · exact .inr (.inr (.inl (Except.error.inj he).symm))
  · exact .inr (.inr (.inr (Except.error.inj he).symm))

/-- The name of a type that is dispatched: the declared type that it or a pointer to it stands for,
or else its text. -/
def eventName (p : Package) (type : HostType) : String :=
  let type := p.unalias type.stripPointer
  type.localName.getD type.render

/-- The names of the types that a dispatch function takes, none if something is wrong with it. -/
def eventNames (p : Package) (m : Method) (type : HostType) : List String :=
  match eventParams m type with
  | .error _ => []
  | .ok params => params.map (eventName p)

end Dispatch

/-- The names that are not empty among those that the tags of a struct type give its fields. -/
def HostType.tagNames (key : String) : HostType → List String
  | .struct fields => (fields.filterMap fun f => StructTag.name f.tag key).filter (· != "")
  | _ => []

end GoPages

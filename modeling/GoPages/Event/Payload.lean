import GoPages.Diagnostic.Error
import GoPages.Event.Subject
import GoPages.Package
import GoPages.StructTag

/-!
# The payload of an event

The fields of an event type, and of all struct types that they lead to through pointers and declared
types, have to be exported and to have a `json` tag.

* `Payload.check` walks these types from field to field and gives the findings in the order of the
  walk. A type is looked into once; types with the same text count as one. `fresh` are the texts
  that are still to come, so that the walk ends.
* `Payload.namesUsers` says whether the payload lists the users that the event is for.
-/

namespace GoPages

/-- The finding about a doc comment that gives no subject. -/
def Subject.error? (event : String) : Subject → Option AnalysisError
  | valid _ => none
  | missingComment => some (.eventCommentMissing event)
  | invalidComment => some (.eventCommentInvalid event)
  | invalidSubject => some (.eventSubjectInvalid event)

namespace HostType

mutual

/-- A type and the types that it is made of. -/
def parts : HostType → List HostType
  | named package name args => named package name args :: partsList args
  | pointer elem => pointer elem :: parts elem
  | slice elem => slice elem :: parts elem
  | array len elem => array len elem :: parts elem
  | map key value => map key value :: (parts key ++ parts value)
  | chan elem => chan elem :: parts elem
  | func params results variadic =>
    func params results variadic :: (partsList params ++ partsList results)
  | struct fields => struct fields :: partsFields fields
  | t => [t]

/-- Types and the types that they are made of. -/
def partsList : List HostType → List HostType
  | [] => []
  | t :: ts => parts t ++ partsList ts

/-- The types that fields are made of. -/
def partsFields : List (StructFieldOf HostType) → List HostType
  | [] => []
  | ⟨_, _, type, _, _⟩ :: fields => parts type ++ partsFields fields

end

end HostType

namespace Payload

/-- What is still to be looked at in a walk. -/
inductive Item where
  | field (f : StructField)
  | type (t : HostType)

/-- The types that a type and the declarations of the package are made of. -/
def candidates (p : Package) (type : HostType) : List HostType :=
  type.parts ++ p.typeDecls.flatMap fun d => ((p.declScope d).resolve d.spec.type).parts

/-- What a type leads to: the type that a pointer points to, and the fields of a struct. -/
def inside (p : Package) : HostType → List Item
  | .pointer elem => [.type elem]
  | .struct fields => fields.map .field
  | .named package name args =>
    match p.underlying (.named package name args) with
    | .struct fields => fields.map .field
    | _ => []
  | _ => []

/-- The findings about one field. -/
def fieldErrors (event : String) (f : StructField) : List AnalysisError :=
  (if f.isExported then [] else [.eventFieldUnexported event f.name]) ++
    if (StructTag.lookup f.tag "json").isSome then [] else [.eventFieldMissingTag event f.name]

/-- The weight of an item: a field is followed by its type. -/
def Item.weight : Item → Nat
  | field _ => 2
  | type _ => 1

/-- The weight of items. -/
def weight : List Item → Nat
  | [] => 0
  | item :: items => item.weight + weight items

/-- The texts other than the given one. -/
def without (text : String) (texts : List String) : List String := texts.filter (· != text)

/-- A text that is met leaves fewer to meet. -/
theorem length_without_lt {text : String} {texts : List String} (h : text ∈ texts) :
    (without text texts).length < texts.length :=
  List.length_filter_lt_length_iff_exists.2 ⟨text, h, by simp⟩

/-- The findings of a walk, where only types with the texts `fresh` have not been looked into. -/
def walk (p : Package) (event : String) (fresh : List String) : List Item → List AnalysisError
  | [] => []
  | .field f :: rest => fieldErrors event f ++ walk p event fresh (.type f.type :: rest)
  | .type t :: rest =>
    if t.render ∈ fresh then
      walk p event (without t.render fresh) (inside p t ++ rest)
    else walk p event fresh rest
termination_by items => (fresh.length, weight items)
decreasing_by
  · simp [weight, Item.weight, Prod.lex_def]
  · next h => exact Prod.Lex.left _ _ (length_without_lt h)
  · simp [weight, Item.weight, Prod.lex_def]

/-- The findings about the fields that a type leads to. -/
def check (p : Package) (event : String) (type : HostType) : List AnalysisError :=
  walk p event ((candidates p type).map HostType.render) [.type type]

/-- Is the type a list of strings? -/
def isStrings : HostType → Bool
  | .slice elem => elem.isBasic "string"
  | _ => false

/-- Has the payload a field of this name for a list of strings that is left out of the JSON text? -/
def namesUsers (p : Package) (field : String) (type : HostType) : Bool :=
  match p.underlying type with
  | .struct fields => fields.any fun f =>
    f.name == field && isStrings f.type && StructTag.lookup f.tag "json" == some "-"
  | _ => false

end Payload

end GoPages

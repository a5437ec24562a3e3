import GoPages.Conventions
import GoPages.Sorting
import GoPages.Text.Pieces

/-!
# What names mean

The conventions give the names of types and methods their meaning.

* `Conventions.nameKind` is the meaning of a type name. It asks for a beginning only;
  `isCapitalized` asks for a whole name, a beginning followed by a capital and then by letters and
  digits, all in ASCII.
* `Conventions.methodKind` is the meaning of a method name. Of several verbs that a name starts
  with, the longest counts.
-/

namespace GoPages

/-- The methods of HTTP that handlers answer. -/
inductive HttpMethod where
  | get
  | post
  | put
  | delete
deriving DecidableEq, Inhabited

/-- The name of a method in HTTP. -/
def HttpMethod.text : HttpMethod → String
  | get => "GET"
  | post => "POST"
  | put => "PUT"
  | delete => "DELETE"

/-- The method that a verb names. -/
def HttpMethod.ofVerb? (verb : String) : Option HttpMethod :=
  match verb with
  | "GET" => some .get
  | "POST" => some .post
  | "PUT" => some .put
  | "DELETE" => some .delete
  | _ => none

/-- The meanings of a type name. -/
inductive NameKind where
  | app
  | session
  | event
  | page
  | other
deriving DecidableEq, Inhabited

/-- The meanings of a method name. -/
inductive MethodKind where
  | get
  | action (verb suffix : String)
  | eventHandler (suffix : String)
  | ignored
deriving DecidableEq, Inhabited

/-- What follows `start` in a text that begins with it. -/
def suffixAfter? (start text : String) : Option String :=
  (Text.strip? start.toList text.toList).map String.ofList

/-- Is the text a capital, followed by letters and digits, all in ASCII? -/
def isCapitalWord : List Char → Bool
  | [] => false
  | c :: cs => c.isUpper && cs.all Char.isAlphanum

/-- Is the name `start` followed by a capital and then by letters and digits? -/
def isCapitalized (start name : String) : Bool :=
  match Text.strip? start.toList name.toList with
  | some rest => isCapitalWord rest
  | none => false

/-- A name is a beginning that is capitalized: a capital and then letters and digits follow it. -/
theorem isCapitalized_iff_append {start name : String} :
    isCapitalized start name ↔ ∃ c rest, name.toList = start.toList ++ c :: rest ∧ c.isUpper ∧
      ∀ d ∈ rest, d.isAlphanum := by
  rw [isCapitalized]
  constructor
  · intro h
    split at h
    · next rest hrest =>
      cases rest with
      | nil => cases h
      | cons c rest =>
        obtain ⟨hc, hall⟩ := (Bool.and_eq_true _ _).mp h
        exact ⟨c, rest, Text.strip?_eq_some_iff.mp hrest, hc, List.all_eq_true.mp hall⟩
    · cases h
  · rintro ⟨c, rest, hname, hc, hall⟩
    rw [Text.strip?_eq_some_iff.mpr hname]
    exact (Bool.and_eq_true _ _).mpr ⟨hc, List.all_eq_true.mpr hall⟩

namespace Conventions

/-- The verbs, longer ones in UTF-8 first and equally long ones in alphabetical order. A verb stands
before its own beginnings. -/
def verbs (c : Conventions) : List String :=
  sortBy (fun v w =>
    w.utf8ByteSize < v.utf8ByteSize || (v.utf8ByteSize == w.utf8ByteSize && !decide (w < v)))
    c.actionVerbs

/-- Is the name a whole page name? -/
def isValidPageName (c : Conventions) (name : String) : Bool := isCapitalized c.pagePrefix name

/-- Is the name a whole event name? -/
def isValidEventName (c : Conventions) (name : String) : Bool := isCapitalized c.eventPrefix name

/-- Is the name the whole name of an event handler? -/
def isValidEventHandlerName (c : Conventions) (name : String) : Bool :=
  isCapitalized c.eventHandlerPrefix name

/-- Is the name the whole name of an action with the verb? -/
def isValidActionName (c : Conventions) (verb name : String) : Bool :=
  c.actionVerbs.contains verb && isCapitalized verb name

/-- The meaning of a type name. -/
def nameKind (c : Conventions) (name : String) : NameKind :=
  if name = c.appType then .app
  else if name = c.sessionType then .session
  else if (suffixAfter? c.eventPrefix name).isSome then .event
  else if (suffixAfter? c.pagePrefix name).isSome then .page
  else .other

/-- The first of the verbs that a name starts with, and the rest of the name. -/
def actionOf? (name : String) (verbs : List String) : Option (String × String) :=
  verbs.findSome? fun verb => (suffixAfter? verb name).map (verb, ·)

/-- The meaning of a method name. A name that does not start with a capital in ASCII has none. -/
def methodKind (c : Conventions) (name : String) : MethodKind :=
  if !(name.toList.head?.map Char.isUpper).getD false then .ignored
  else if name = c.getMethod then .get
  else match actionOf? name c.verbs with
    | some (verb, suffix) => .action verb suffix
    | none =>
      match suffixAfter? c.eventHandlerPrefix name with
      | some suffix => .eventHandler suffix
      | none => .ignored

end Conventions

end GoPages

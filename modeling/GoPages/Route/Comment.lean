import GoPages.CommentGroup
import GoPages.Route

/-!
# Route comments

The route of a page or an action stands in the first line of its doc comment, after its name and the
word `is`. `Route.ofComment` tells three cases apart: there is no such line, it is malformed, or it
gives a route. The line after it has to be blank.
-/

namespace GoPages

/-- What a doc comment says about a route. -/
inductive RouteComment where
  /-- The comment does not start with the name. -/
  | notAttempted
  | malformed
  | wellFormed (route : String)
deriving DecidableEq, Inhabited

/-- The route that a comment gives, empty if it gives none. -/
def RouteComment.route : RouteComment → String
  | wellFormed route => route
  | _ => ""

namespace Route

/-- The route in the trimmed first line of a comment, after the name. -/
def ofLine (afterName : List Char) (second : Option (List Char)) : RouteComment :=
  match Text.strip? " is ".toList afterName with
  | none => .malformed
  | some rest =>
    let route := Text.trim rest
    if wellFormed route && ((second.map Text.trim).getD []).isEmpty then
      .wellFormed (String.ofList route)
    else .malformed

/-- What a doc comment says about the route of the declaration `name`. -/
def ofComment (name : String) (doc : Option CommentGroup) : RouteComment :=
  match (doc.map CommentGroup.textLines).getD [] with
  | [] => .notAttempted
  | first :: rest =>
    match Text.strip? name.toList (Text.trim first) with
    | some (' ' :: after) => ofLine (' ' :: after) rest.head?
    | _ => .notAttempted

end Route

end GoPages

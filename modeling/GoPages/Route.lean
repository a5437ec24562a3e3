import GoPages.Text.Blank
import GoPages.Text.Pieces

/-!
# Routes

A route is a URL pattern: a path whose parts in braces are variables. A variable that ends in three
points matches the rest of a path, and a dollar sign in braces marks its end; neither mark is part
of a name.

* `Route.wellFormed` asks for a slash at the start and for no white space.
* `Route.vars` are the names of the variables in order, with their repetitions.
* `Route.isUnder` says whether a route is another one or continues it at a slash. A mark of the end
  and slashes at the end do not count (`Route.clean`).
-/

namespace GoPages.Route

/-- Does the route start with a slash and hold no white space? -/
def wellFormed (route : List Char) : Bool :=
  route.head? == some '/' && !route.any Text.isBlank

/-! ### Variables -/

/-- What stands between braces without braces inside, from left to right. The first argument is what
has been read, in reverse, since the last opening brace that is still open. -/
def bracedFrom : (inside : Option (List Char)) → List Char → List (List Char)
  | _, [] => []
  | inside, c :: rest =>
    if c = '\x7b' then bracedFrom (some []) rest
    else match inside with
      | none => bracedFrom none rest
      | some read =>
        if c = '\x7d' then read.reverse :: bracedFrom none rest
        else bracedFrom (some (c :: read)) rest

/-- What stands between the innermost braces of a route. -/
def braced (route : List Char) : List (List Char) := bracedFrom none route

/-- The name of the variable that is written between braces, if it is one. -/
def varName? (inner : List Char) : Option (List Char) :=
  if inner = ['$'] then none
  else
    let name := (Text.stripEnd? ['.', '.', '.'] inner).getD inner
    if name.isEmpty then none else some name

/-- The names of the variables of a route. -/
def vars (route : List Char) : List (List Char) := (braced route).filterMap varName?

/-! ### Nesting -/

/-- A route without slashes at its end. -/
def dropSlashes (route : List Char) : List Char := (route.reverse.dropWhile (· == '/')).reverse

/-- A route without the mark of its end and the slashes at its end; the root remains a slash. -/
def clean (route : List Char) : List Char :=
  let route := (Text.stripEnd? ['\x7b', '$', '\x7d'] route).getD route
  match dropSlashes route with
  | [] => ['/']
  | rest => rest

/-- Is a route the route of a page, or nested under it? -/
def isUnder (route page : List Char) : Bool :=
  let page := clean page
  let route := clean route
  if page = ['/'] then route.head? == some '/'
  else match Text.strip? page route with
    | some rest => rest.isEmpty || rest.head? == some '/'
    | none => false

end GoPages.Route

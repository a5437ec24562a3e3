import GoPages.Literal
import GoPages.Parser.Brackets

/-!
# Reading type expressions

`Parser.typeExpr n` reads a type whose parts nest at most `n` deep; `typeDepth` is the bound for a
declared type. The parts of a function or struct type count two levels, those of every other type
one. `typeExprWith` is one level of the grammar over the parsers of the parts.

* In a parameter list either every parameter has a name or none has. `paramEntry` reads what stands
  between two commas, and `groupParams` decides what it means.
* A field declaration that starts with a name declares an embedded field if the name, with the
  brackets after it, stands alone before the end of the declaration or a tag (`startsEmbedded`).
* In the same way a name with brackets is a generic type in a parameter list only if it stands alone
  (`startsGeneric`); otherwise the brackets belong to an array or slice type.
-/

namespace GoPages

/-- What stands between two commas of a parameter list. -/
inductive ParamEntry where
  /-- A name alone: the name of a parameter or a type. -/
  | lone (id : Ident)
  | named (id : Ident) (type : TypeExpr)
  | unnamed (type : TypeExpr)

/-- Has the entry both a name and a type? -/
def ParamEntry.isNamed : ParamEntry → Bool
  | named _ _ => true
  | _ => false

/-- The parameter of an entry in a list without names. -/
def ParamEntry.asType : ParamEntry → Param
  | lone id => ⟨none, .ident id⟩
  | named _ type => ⟨none, type⟩
  | unnamed type => ⟨none, type⟩

/-- The parameters of a list with names. The names in `pending` wait for the type of the next named
entry; `start` is the location of the list. -/
def nameParams (start : Location) :
    (pending : List Ident) → List ParamEntry → Except SyntaxError (List Param)
  | [], [] => .ok []
  | _ :: _, [] => .error ⟨.mixedParameters, start⟩
  | pending, .lone id :: rest => nameParams start (pending ++ [id]) rest
  | pending, .named id type :: rest =>
    match nameParams start [] rest with
    | .error e => .error e
    | .ok params => .ok ((pending ++ [id]).map (fun name => ⟨some name, type⟩) ++ params)
  | _, .unnamed type :: _ => .error ⟨.mixedParameters, type.location⟩

/-- In a list with names, a parameter has a name that waits or that an entry has, and the type of a
named entry. -/
theorem exists_of_mem_nameParams {start : Location} {pending : List Ident}
    {entries : List ParamEntry} {params : List Param}
    (h : nameParams start pending entries = .ok params) {p : Param} (hp : p ∈ params) :
    ∃ name id type, p = ⟨some name, type⟩ ∧ .named id type ∈ entries ∧
      (name ∈ pending ∨ .lone name ∈ entries ∨ ∃ type', .named name type' ∈ entries) := by
  -- the names that wait take the type of the next named entry; a lone name joins them
  fun_induction nameParams start pending entries generalizing params with
  | case1 =>
    cases h
    cases hp
  | case2 => cases h
  | case3 pending id rest ih =>
    obtain ⟨name, id', type, rfl, htype, hname⟩ := ih h hp
    refine ⟨name, id', type, rfl, List.mem_cons_of_mem _ htype, ?_⟩
    rcases hname with hpending | hlone | ⟨type', hnamed⟩
    · rcases List.mem_append.mp hpending with hpending | hid
      · exact .inl hpending
      · exact .inr (.inl (List.mem_singleton.mp hid ▸ List.mem_cons_self))
    · exact .inr (.inl (List.mem_cons_of_mem _ hlone))
    · exact .inr (.inr ⟨type', List.mem_cons_of_mem _ hnamed⟩)
  | case4 => cases h
  | case5 pending id type rest params' hrest ih =>
    cases h
    rcases List.mem_append.mp hp with hp | hp
    · obtain ⟨name, hname, rfl⟩ := List.mem_map.mp hp
      refine ⟨name, id, type, rfl, List.mem_cons_self, ?_⟩
      rcases List.mem_append.mp hname with hpending | hid
      · exact .inl hpending
      · exact .inr (.inr ⟨type, List.mem_singleton.mp hid ▸ List.mem_cons_self⟩)
    · obtain ⟨name, id', type', rfl, htype, hname⟩ := ih hrest hp
      refine ⟨name, id', type', rfl, List.mem_cons_of_mem _ htype, .inr ?_⟩
      rcases hname with hpending | hlone | ⟨type'', hnamed⟩
      · cases hpending
      · exact .inl (List.mem_cons_of_mem _ hlone)
      · exact .inr ⟨type'', List.mem_cons_of_mem _ hnamed⟩
  | case6 => cases h

/-- The parameters of a list that starts at `start`. -/
def groupParams (start : Location) (entries : List ParamEntry) : Except SyntaxError (List Param) :=
  if entries.any ParamEntry.isNamed then nameParams start [] entries
  else .ok (entries.map ParamEntry.asType)

/-- The tokens of an array length, up to a bracket that closes none of them or to a semicolon. -/
def lengthSpan (nested : Nat) : List Token → List Token × List Token
  | [] => ([], [])
  | t :: rest =>
    if t.kind = .semicolon ∨ (t.isOp "]" ∧ nested = 0) then ([], t :: rest)
    else
      let nested :=
        if t.isOp "[" || t.isOp "(" then nested + 1
        else if t.isOp "]" || t.isOp ")" then nested - 1
        else nested
      let (read, rest) := lengthSpan nested rest
      (t :: read, rest)

namespace Parser

/-- The deepest nesting of a declared type. -/
def typeDepth : Nat := 65

/-- Reads the length of an array type and the bracket after it. -/
def arrayLen : Parser String := fun c =>
  let (read, rest) := lengthSpan 0 c.left
  let c := c.after read rest
  if c.tok.isOp "]" then .ok (String.join (read.map Token.text), c.advance)
  else failExpected "']'" c

/-- Can a type start with the token? A variadic type cannot stand as the only result. -/
def startsType (t : Token) : Bool :=
  match t.kind with
  | .ident => true
  | .keyword => ["map", "chan", "func", "struct", "interface"].contains t.text
  | .op => ["*", "[", "(", "<-"].contains t.text
  | _ => false

/-- Reads a comma and the type argument after it, if there is a comma. The last argument may have a
comma after it too. -/
def nextTypeArg (elem : Parser TypeExpr) : Parser (Option TypeExpr) := do
  let t ← tok
  if t.isOp "," then
    advance
    let t ← tok
    if t.isOp "]" then return none
    else
      let arg ← elem
      return some arg
  else return none

/-- Reads a type name, with its package and its type arguments if it has them. -/
def typeName (elem : Parser TypeExpr) : Parser TypeExpr := do
  let first ← ident
  let base ← do
    let t ← tok
    if t.isOp "." then
      advance
      let name ← ident
      pure (TypeExpr.qualified first name)
    else pure (TypeExpr.ident first)
  let generic ← look fun c => c.tok.isOp "[" && !(c.peek 1).isOp "]"
  if generic then
    advance
    let first ← elem
    let others ← many (nextTypeArg elem)
    op "]"
    return .generic base (first :: others)
  else return base

/-- Is the name at the cursor a generic type that stands alone in a parameter list? -/
def startsGeneric (c : Cursor) : Bool :=
  match c.afterBracket? 1 with
  | some after => (after.isOp "," || after.isOp ")") && !(c.peek 2).isOp "]"
  | none => false

/-- Reads what stands between two commas of a parameter list. -/
def paramEntry (elem : Parser TypeExpr) : Parser ParamEntry := do
  let t ← tok
  let next ← look (Cursor.peek · 1)
  let generic ← look startsGeneric
  if t.kind != .ident then
    let type ← elem
    return .unnamed type
  else if next.isOp "," || next.isOp ")" then
    let id ← ident
    return .lone id
  else if next.isOp "." || (next.isOp "[" && generic) then
    let type ← elem
    return .unnamed type
  else
    let id ← ident
    let type ← elem
    return .named id type

/-- Reads one entry of a parameter list with the comma after it, or the end of the list. -/
def nextParam (elem : Parser TypeExpr) : Parser (Option ParamEntry) := do
  skipSemicolons
  let t ← tok
  if t.isOp ")" then
    advance
    return none
  else
    let entry ← paramEntry elem
    skipSemicolons
    let t ← tok
    if t.isOp "," then
      advance
      return some entry
    else if t.isOp ")" then return some entry
    else failExpected "',' or ')'"

/-- Reads a parameter list. -/
def params (elem : Parser TypeExpr) : Parser (List Param) := do
  let start ← tok
  op "("
  let entries ← many (nextParam elem)
  fun c =>
    match groupParams start.location entries with
    | .error e => .error e
    | .ok params => .ok (params, c)

/-- Reads the parameters and results of a function type. -/
def signature (elem : Parser TypeExpr) (l : Location) : Parser FuncType := do
  let ps ← params elem
  let t ← tok
  if t.isOp "(" then
    let results ← params elem
    return ⟨ps, results, l⟩
  else if startsType t then
    let result ← elem
    return ⟨ps, [⟨none, result⟩], l⟩
  else return ⟨ps, [], l⟩

/-- May a field declaration end before the token, but for a tag? -/
def endsField (t : Token) : Bool :=
  t.kind == .semicolon || t.kind == .string || t.isOp "\x7d"

/-- Is the name at the cursor the type of an embedded field? -/
def startsEmbedded (c : Cursor) : Bool :=
  let next := c.peek 1
  if next.isOp "." || endsField next then true
  else if next.isOp "[" then
    match c.afterBracket? 1 with
    | some after => endsField after && !(c.peek 2).isOp "]"
    | none => false
  else false

/-- Reads a comma and the name after it, if there is a comma. -/
def nextName : Parser (Option Ident) := do
  let t ← tok
  if t.isOp "," then
    advance
    let id ← ident
    return some id
  else return none

/-- Reads the names of a field declaration and their type. -/
def fieldNames (elem : Parser TypeExpr) : Parser (List Ident × TypeExpr) := do
  let t ← tok
  let embedded ← look startsEmbedded
  if t.isOp "*" || (t.kind == .ident && embedded) then
    let type ← elem
    return ([], type)
  else if t.kind == .ident then
    let first ← ident
    let others ← many nextName
    let type ← elem
    return (first :: others, type)
  else failExpected "field name or embedded type"

/-- Reads the tag of a field declaration, if it has one. -/
def fieldTag : Parser (Option String) := do
  let t ← tok
  if t.kind == .string then
    match unquote t.text with
    | some tag =>
      advance
      return some tag
    | none => fail (.invalidStructTag t.text)
  else return none

/-- Reads one field declaration, or the end of the struct type. -/
def nextField (elem : Parser TypeExpr) : Parser (Option FieldDecl) := do
  skipSemicolons
  let t ← tok
  if t.isOp "\x7d" then
    advance
    return none
  else if t.kind == .eof then failExpected "'\x7d'"
  else
    let (names, type) ← fieldNames elem
    let tag ← fieldTag
    endOfItem
    return some ⟨names, type, tag⟩

/-- Reads the field declarations of a struct type. -/
def structBody (elem : Parser TypeExpr) : Parser (List FieldDecl) := do
  op "\x7b"
  many (nextField elem)

/-- Reads the body of an interface type, and says whether it is empty. -/
def interfaceBody : Parser Bool := do
  let t ← tok
  if t.isOp "\x7b" then
    let inner ← balanced
    return inner.all fun t => t.kind == .semicolon
  else failExpected "'\x7b'"

/-- Reads the type after a channel's keyword or arrow. -/
def chanType (elem : Parser TypeExpr) (l : Location) : Parser TypeExpr := do
  let t ← tok
  if t.isOp "<-" then
    advance
    let type ← elem
    return .chan l .send type
  else
    let type ← elem
    return .chan l .both type

/-- Reads a type that starts with a keyword. -/
def keywordType (elem inner : Parser TypeExpr) (t : Token) : Parser TypeExpr :=
  match t.text with
  | "map" => do
    advance
    op "["
    let key ← elem
    op "]"
    let value ← elem
    return .map t.location key value
  | "chan" => do
    advance
    chanType elem t.location
  | "func" => do
    advance
    let type ← signature inner t.location
    return .func type
  | "struct" => do
    advance
    let fields ← structBody inner
    return .struct t.location fields
  | "interface" => do
    advance
    let empty ← interfaceBody
    return .interface t.location empty
  | _ => failExpected "type"

/-- Reads a type that starts with an operator or bracket. -/
def operatorType (elem : Parser TypeExpr) (t : Token) : Parser TypeExpr :=
  match t.text with
  | "*" => do
    advance
    let type ← elem
    return .pointer t.location type
  | "[" => do
    advance
    let next ← tok
    if next.isOp "]" then
      advance
      let type ← elem
      return .slice t.location type
    else
      let len ← arrayLen
      let type ← elem
      return .array t.location len type
  | "<-" => do
    advance
    let next ← tok
    if next.isKeyword "chan" then
      advance
      let type ← elem
      return .chan t.location .recv type
    else failExpected "'chan'"
  | "(" => do
    advance
    let type ← elem
    op ")"
    return type
  | "..." => do
    advance
    let type ← elem
    return .ellipsis t.location type
  | _ => failExpected "type"

/-- Reads a type, given the parsers of its parts: `elem` for one level down, and `inner` for two
levels down, which the parts of function and struct types are. -/
def typeExprWith (elem inner : Parser TypeExpr) : Parser TypeExpr := do
  let t ← tok
  match t.kind with
  | .ident => typeName elem
  | .keyword => keywordType elem inner t
  | .op => operatorType elem t
  | _ => failExpected "type"

/-- Reads a type with at most `n` levels. -/
def typeExpr : (n : Nat) → Parser TypeExpr
  | 0 => fail .nestedTooDeeply
  | 1 => typeExprWith (fail .nestedTooDeeply) (fail .nestedTooDeeply)
  | n + 2 => typeExprWith (typeExpr (n + 1)) (typeExpr n)

end Parser

end GoPages

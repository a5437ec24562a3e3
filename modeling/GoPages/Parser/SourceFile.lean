import GoPages.Parser.Doc
import GoPages.Parser.TypeExpr
import GoPages.SourceFile

/-!
# Reading source files

`SourceFile.parse` reads a Go file: the package clause, the imports, and then declarations. Of
functions it reads the signature, of types everything, and it passes over variables and constants by
their brackets.
-/

namespace GoPages

/-- A declaration after the imports. -/
inductive Decl where
  | types (specs : List TypeSpec)
  | func (decl : FuncDecl)
  /-- Variables or constants. -/
  | values

/-- The types that a declaration declares. -/
def Decl.typeSpecs : Decl → List TypeSpec
  | types specs => specs
  | _ => []

/-- The function that a declaration declares. -/
def Decl.funcDecl? : Decl → Option FuncDecl
  | func decl => some decl
  | _ => none

/-- The names of a list of type parameters, given the tokens between its brackets. `depth` counts
the brackets that are open inside, and `fresh` says that no token stands before since the last
comma. -/
def typeParamNames (depth : Nat) (fresh : Bool) : List Token → List String
  | [] => []
  | t :: rest =>
    if t.opens then typeParamNames (depth + 1) false rest
    else if t.closes then typeParamNames (depth - 1) false rest
    else if depth = 0 ∧ t.isOp "," then typeParamNames depth true rest
    else if depth = 0 ∧ fresh ∧ t.kind = .ident then t.text :: typeParamNames depth false rest
    else typeParamNames depth false rest

namespace Parser

/-- The doc comment of what starts at the cursor. -/
def doc (comments : List Comment) : Parser (Option CommentGroup) :=
  look fun c => docComment comments c.prevLine c.tok.location.line

/-! ### Imports -/

/-- Reads the alias of an import, if it has one. -/
def importAlias : Parser (Option String) := do
  let t ← tok
  if t.kind == .ident then
    advance
    return some t.text
  else if t.isOp "." then
    advance
    return some "."
  else return none

/-- Reads the path of an import. -/
def importPath : Parser String := do
  let t ← tok
  if t.kind == .string then
    match unquote t.text with
    | some path =>
      if path.isEmpty then fail (.invalidImportPath t.text)
      else
        advance
        return path
    | none => fail (.invalidImportPath t.text)
  else failExpected "import path"

/-- Reads one import. -/
def importSpec : Parser Import := do
  let t ← tok
  let name ← importAlias
  let path ← importPath
  return ⟨name, path, t.location⟩

/-- Reads one import of a group, or the end of the group. -/
def nextImport : Parser (Option Import) := do
  skipSemicolons
  let t ← tok
  if t.isOp ")" then
    advance
    return none
  else
    let spec ← importSpec
    endOfItem
    return some spec

/-- Reads an import declaration, if there is one. -/
def nextImportDecl : Parser (Option (List Import)) := do
  let t ← tok
  if t.isKeyword "import" then
    advance
    let t ← tok
    let specs ← if t.isOp "(" then do
        advance
        many nextImport
      else do
        let spec ← importSpec
        pure [spec]
    endOfItem
    skipSemicolons
    return some specs
  else return none

/-! ### Types -/

/-- Does a list of type parameters start at the cursor, rather than the length of an array? -/
def startsTypeParams (c : Cursor) : Bool :=
  c.tok.isOp "[" && (c.peek 1).kind == .ident && !(c.peek 2).isOp "]"

/-- Reads a list of type parameters and gives their names. -/
def typeParams : Parser (List String) := fun c =>
  match closing? 0 (c.left.drop 1) with
  | some (inner, close, rest) => .ok (typeParamNames 0 true inner, c.after [close] rest)
  | none => failExpected "']'" c

/-- Reads the declaration of one type. -/
def typeSpec (doc : Option CommentGroup) : Parser TypeSpec := do
  let name ← ident
  let generic ← look startsTypeParams
  let params ← if generic then typeParams else pure []
  let t ← tok
  let isAlias := t.isOp "="
  if isAlias then advance
  let type ← typeExpr typeDepth
  return ⟨name, params, type, isAlias, doc⟩

/-- Reads one type of a group, or the end of the group. -/
def nextType (comments : List Comment) (groupDoc : Option CommentGroup) :
    Parser (Option TypeSpec) := do
  skipSemicolons
  let t ← tok
  if t.isOp ")" then
    advance
    return none
  else if t.kind == .eof then failExpected "')'"
  else
    let ownDoc ← doc comments
    let spec ← typeSpec (ownDoc <|> groupDoc)
    endOfItem
    return some spec

/-- Reads a type declaration. -/
def typeDecl (comments : List Comment) : Parser (List TypeSpec) := do
  let declDoc ← doc comments
  advance
  let t ← tok
  let specs ← if t.isOp "(" then do
      advance
      many (nextType comments declDoc)
    else do
      let spec ← typeSpec declDoc
      pure [spec]
  endOfItem
  return specs

/-! ### Functions and values -/

/-- Reads the receiver of a method, if there is one. -/
def receiver : Parser (Option Receiver) := do
  let t ← tok
  if t.isOp "(" then
    let ps ← params (typeExpr (typeDepth - 1))
    match ps with
    | [p] => return some ⟨p.name, p.type⟩
    | _ => failAt t.location .multipleReceivers
  else return none

/-- Reads the declaration of a function or method. -/
def funcDecl (comments : List Comment) : Parser FuncDecl := do
  let declDoc ← doc comments
  advance
  let recv ← receiver
  let name ← ident
  let t ← tok
  let generics ← if t.isOp "[" then typeParams else pure []
  let type ← signature (typeExpr (typeDepth - 1)) name.location
  let t ← tok
  if t.isOp "\x7b" then
    let _ ← balanced
  endOfItem
  return ⟨recv, name, generics, type, declDoc⟩

/-- Reads one token of a value declaration, or one bracketed part of it, or nothing at its end. -/
def nextValue : Parser (Option Unit) := do
  let t ← tok
  if t.kind == .semicolon || t.kind == .eof then return none
  else if t.opens then
    let _ ← balanced
    return some ()
  else if t.closes then failExpected "value"
  else
    advance
    return some ()

/-- Passes over a declaration of variables or constants. -/
def valueDecl : Parser Unit := do
  advance
  let t ← tok
  if t.isOp "(" then
    let _ ← balanced
  else
    let _ ← many nextValue
  endOfItem

/-! ### Files -/

/-- Reads one declaration after the imports, or the end of the file. -/
def nextDecl (comments : List Comment) : Parser (Option Decl) := do
  skipSemicolons
  let t ← tok
  if t.kind == .eof then return none
  else if t.isKeyword "type" then
    let specs ← typeDecl comments
    return some (.types specs)
  else if t.isKeyword "func" then
    let decl ← funcDecl comments
    return some (.func decl)
  else if t.isKeyword "var" || t.isKeyword "const" then
    valueDecl
    return some .values
  else if t.isKeyword "import" then fail .misplacedImport
  else fail (.notADeclaration t.describe)

/-- Reads the package clause. -/
def packageClause : Parser Ident := do
  skipSemicolons
  let t ← tok
  if t.isKeyword "package" then
    advance
    let id ← ident
    endOfItem
    return id
  else failExpected "'package'"

/-- Reads a file. -/
def sourceFile (name : String) (comments : List Comment) : Parser SourceFile := do
  let package ← packageClause
  skipSemicolons
  let imports ← many nextImportDecl
  let decls ← many (nextDecl comments)
  return ⟨name, package, imports.flatten, decls.flatMap Decl.typeSpecs,
    decls.filterMap Decl.funcDecl?⟩

end Parser

/-- The declarations of the file `name`, read from its source text. -/
def SourceFile.parse (name source : String) : Except SyntaxError SourceFile :=
  match tokenize name source with
  | .error e => .error ⟨.lexical e.fault, e.location⟩
  | .ok lexed =>
    match Parser.sourceFile name lexed.comments (Cursor.start lexed) with
    | .error e => .error e
    | .ok (file, _) => .ok file

/-- A file is read from the tokens of its text. -/
theorem SourceFile.exists_tokenize_of_parse {name source : String} {file : SourceFile}
    (h : parse name source = .ok file) :
    ∃ lexed c, tokenize name source = .ok lexed ∧
      Parser.sourceFile name lexed.comments (.start lexed) = .ok (file, c) := by
  rw [parse] at h
  split at h
  · cases h
  · next lexed htokens =>
    split at h
    · cases h
    · next hparsed => exact ⟨lexed, _, htokens, Except.ok.inj h ▸ hparsed⟩

end GoPages

import GoPages.Proofs.Files.Types

/-!
# Source files under another name

A text that is read under another file name declares what it declares under its own
(`SourceFile.parse_mapFile`). Doc comments are found by the lines of comments alone
(`docComment_mapFile`).
-/

namespace GoPages

section Declarations

variable (φ : String → String)

/-- The comments in another file. -/
def CommentGroup.mapFile (group : CommentGroup) : CommentGroup :=
  { group with location := group.location.mapFile φ }

/-- The import in another file. -/
def Import.mapFile (i : Import) : Import := { i with location := i.location.mapFile φ }

/-- The declaration of a type in another file. -/
def TypeSpec.mapFile (spec : TypeSpec) : TypeSpec where
  name := spec.name.mapFile φ
  typeParams := spec.typeParams
  type := spec.type.mapFile φ
  isAlias := spec.isAlias
  doc := spec.doc.map (CommentGroup.mapFile φ)

/-- The receiver in another file. -/
def Receiver.mapFile (r : Receiver) : Receiver :=
  ⟨r.name.map (Ident.mapFile φ), r.type.mapFile φ⟩

/-- The declaration of a function or method in another file. -/
def FuncDecl.mapFile (decl : FuncDecl) : FuncDecl where
  receiver := decl.receiver.map (Receiver.mapFile φ)
  name := decl.name.mapFile φ
  typeParams := decl.typeParams
  type := decl.type.mapFile φ
  doc := decl.doc.map (CommentGroup.mapFile φ)

/-- The declaration in another file. -/
def Decl.mapFile : Decl → Decl
  | types specs => types (specs.map (TypeSpec.mapFile φ))
  | func decl => func (decl.mapFile φ)
  | values => values

private theorem Decl.typeSpecs_mapFile (d : Decl) :
    (d.mapFile φ).typeSpecs = d.typeSpecs.map (TypeSpec.mapFile φ) := by
  cases d <;> rfl

private theorem Decl.funcDecl?_mapFile (d : Decl) :
    (d.mapFile φ).funcDecl? = d.funcDecl?.map (FuncDecl.mapFile φ) := by
  cases d <;> rfl

/-- The file under another name. -/
def SourceFile.mapFile (file : SourceFile) : SourceFile where
  name := φ file.name
  package := file.package.mapFile φ
  imports := file.imports.map (Import.mapFile φ)
  types := file.types.map (TypeSpec.mapFile φ)
  funcs := file.funcs.map (FuncDecl.mapFile φ)

/-! ### Doc comments -/

/-- A run of comments is told from their lines. -/
private theorem extendRun_mapFile (prevLine : Nat) (first : Comment) (run earlier : List Comment) :
    extendRun prevLine (first.mapFile φ) (run.map (Comment.mapFile φ))
        (earlier.map (Comment.mapFile φ)) =
      ((extendRun prevLine first run earlier).1.mapFile φ,
        (extendRun prevLine first run earlier).2.map (Comment.mapFile φ)) := by
  induction earlier generalizing first run with
  | nil => rfl
  | cons c earlier ih =>
    rw [List.map_cons, extendRun, extendRun]
    by_cases hstop : c.endLine + 1 < first.location.line ∨ c.location.line ≤ prevLine
    · have hstop' : (c.mapFile φ).endLine + 1 < (first.mapFile φ).location.line ∨
          (c.mapFile φ).location.line ≤ prevLine := hstop
      rw [if_pos hstop, if_pos hstop']
    · have hstop' : ¬ ((c.mapFile φ).endLine + 1 < (first.mapFile φ).location.line ∨
          (c.mapFile φ).location.line ≤ prevLine) := hstop
      rw [if_neg hstop, if_neg hstop']
      exact ih c (c :: run)

/-- The comment above a line is the same, in the other file. -/
theorem docComment_mapFile (comments : List Comment) (prevLine line : Nat) :
    docComment (comments.map (Comment.mapFile φ)) prevLine line =
      (docComment comments prevLine line).map (CommentGroup.mapFile φ) := by
  have hline : (fun c : Comment => decide (line ≤ c.endLine)) ∘ Comment.mapFile φ =
      fun c => decide (line ≤ c.endLine) := rfl
  rw [docComment, docComment, ← List.map_reverse, List.dropWhile_map, hline]
  cases comments.reverse.dropWhile fun c => decide (line ≤ c.endLine) with
  | nil => rfl
  | cons last earlier =>
    have hrun := extendRun_mapFile φ prevLine last [last] earlier
    simp only [List.map_cons, List.map_nil] at hrun ⊢
    simp only [hrun, Comment.endLine_mapFile, Comment.location_mapFile, Location.line_mapFile,
      List.map_map]
    split
    · split
      · rfl
      · rfl
    · rfl

end Declarations

namespace Parser

variable {φ : String → String}

private theorem maps_doc (comments : List Comment) :
    Maps φ (Option.map (CommentGroup.mapFile φ)) (doc comments)
      (doc (comments.map (Comment.mapFile φ))) := by
  refine maps_look fun c => ?_
  rw [docComment_mapFile, Cursor.tok_mapFile]
  rfl

/-! ### Imports -/

private theorem maps_importAlias : Maps φ id importAlias importAlias := by
  unfold importAlias
  refine maps_bind maps_tok fun t => maps_ite ?_ (maps_ite ?_ (maps_pure _))
  · exact maps_bind maps_advance fun _ => maps_pure _
  · exact maps_bind maps_advance fun _ => maps_pure _

private theorem maps_importPath : Maps φ id importPath importPath := by
  unfold importPath
  refine maps_bind maps_tok fun t => maps_ite ?_ (maps_failExpected _)
  rw [Token.text_mapFile]
  split
  · exact maps_ite (maps_fail _) (maps_bind maps_advance fun _ => maps_pure _)
  · exact maps_fail _

private theorem maps_importSpec : Maps φ (Import.mapFile φ) importSpec importSpec := by
  unfold importSpec
  refine maps_bind maps_tok fun t => maps_bind maps_importAlias fun name => ?_
  exact maps_bind maps_importPath fun path => maps_pure _

private theorem maps_nextImport : Maps φ (Option.map (Import.mapFile φ)) nextImport nextImport := by
  unfold nextImport
  refine maps_bind maps_skipSemicolons fun _ => maps_bind maps_tok fun t => ?_
  refine maps_ite (maps_bind maps_advance fun _ => maps_pure none) ?_
  exact maps_bind maps_importSpec fun spec => maps_bind maps_endOfItem fun _ => maps_pure _

private theorem maps_nextImportDecl :
    Maps φ (Option.map (List.map (Import.mapFile φ))) nextImportDecl nextImportDecl := by
  unfold nextImportDecl
  refine maps_bind maps_tok fun t => maps_ite ?_ (maps_pure none)
  refine maps_bind maps_advance fun _ => maps_bind maps_tok fun t => ?_
  have hrest (specs : List Import) : Maps φ (Option.map (List.map (Import.mapFile φ)))
      (endOfItem >>= fun _ => skipSemicolons >>= fun _ => pure (some specs))
      (endOfItem >>= fun _ => skipSemicolons >>= fun _ =>
        pure (some (specs.map (Import.mapFile φ)))) :=
    maps_bind maps_endOfItem fun _ => maps_bind maps_skipSemicolons fun _ => maps_pure _
  refine maps_ite ?_ ?_
  · exact maps_bind maps_advance fun _ => maps_bind (maps_many maps_nextImport) hrest
  · exact maps_bind maps_importSpec fun spec => maps_bind (maps_pure [spec]) hrest

/-! ### Types -/

private theorem startsTypeParams_mapFile (c : Cursor) :
    startsTypeParams (c.mapFile φ) = startsTypeParams c := by
  rw [startsTypeParams, startsTypeParams, Cursor.tok_mapFile, Cursor.peek_mapFile,
    Cursor.peek_mapFile]
  rfl

/-- The names of type parameters are told from the texts of tokens. -/
private theorem typeParamNames_mapFile (depth : Nat) (fresh : Bool) (ts : List Token) :
    typeParamNames depth fresh (ts.map (Token.mapFile φ)) = typeParamNames depth fresh ts := by
  induction ts generalizing depth fresh with
  | nil => rfl
  | cons t ts ih =>
    have hopens : (t.mapFile φ).opens = t.opens := rfl
    have hcloses : (t.mapFile φ).closes = t.closes := rfl
    simp only [List.map_cons, typeParamNames, hopens, hcloses, Token.isOp_mapFile,
      Token.kind_mapFile, Token.text_mapFile, ih]

private theorem maps_typeParams : Maps φ id typeParams typeParams := by
  intro c
  have hdrop : (c.mapFile φ).left.drop 1 = (c.left.drop 1).map (Token.mapFile φ) :=
    List.map_drop.symm
  rw [typeParams, typeParams, hdrop, closing?_mapFile]
  cases closing? 0 (c.left.drop 1) with
  | none => exact maps_failExpected _ c
  | some cut =>
    obtain ⟨inner, close, rest⟩ := cut
    have hafter := c.after_mapFile φ [close] rest
    have hnames := typeParamNames_mapFile (φ := φ) 0 true inner
    simp only [Option.map_some, hnames]
    exact congrArg (fun c' : Cursor => Except.ok (typeParamNames 0 true inner, c')) hafter

private theorem maps_typeSpec (doc : Option CommentGroup) :
    Maps φ (TypeSpec.mapFile φ) (typeSpec doc)
      (typeSpec (doc.map (CommentGroup.mapFile φ))) := by
  unfold typeSpec
  refine maps_bind maps_ident fun name => ?_
  refine maps_bind (maps_look (f := id) startsTypeParams_mapFile) fun generic => ?_
  have hrest (params : List String) : Maps φ (TypeSpec.mapFile φ)
      (do
        let t ← tok
        let isAlias := t.isOp "="
        if isAlias then advance
        let type ← typeExpr typeDepth
        return ⟨name, params, type, isAlias, doc⟩)
      (do
        let t ← tok
        let isAlias := t.isOp "="
        if isAlias then advance
        let type ← typeExpr typeDepth
        return ⟨name.mapFile φ, params, type, isAlias, doc.map (CommentGroup.mapFile φ)⟩) := by
    refine maps_bind maps_tok fun t => ?_
    have hend : Maps φ (TypeSpec.mapFile φ)
        (typeExpr typeDepth >>= fun type => pure ⟨name, params, type, t.isOp "=", doc⟩)
        (typeExpr typeDepth >>= fun type => pure
          ⟨name.mapFile φ, params, type, t.isOp "=", doc.map (CommentGroup.mapFile φ)⟩) :=
      maps_bind (maps_typeExpr _) fun type => maps_pure _
    exact maps_ite (maps_bind maps_advance fun _ => hend) hend
  exact maps_ite (maps_bind maps_typeParams hrest) (maps_bind (maps_pure []) hrest)

private theorem maps_nextType (comments : List Comment) (groupDoc : Option CommentGroup) :
    Maps φ (Option.map (TypeSpec.mapFile φ)) (nextType comments groupDoc)
      (nextType (comments.map (Comment.mapFile φ)) (groupDoc.map (CommentGroup.mapFile φ))) := by
  unfold nextType
  refine maps_bind maps_skipSemicolons fun _ => maps_bind maps_tok fun t => ?_
  refine maps_ite (maps_bind maps_advance fun _ => maps_pure none) ?_
  refine maps_ite (maps_failExpected _) (maps_bind (maps_doc comments) fun ownDoc => ?_)
  have hdoc : (ownDoc.map (CommentGroup.mapFile φ) <|> groupDoc.map (CommentGroup.mapFile φ)) =
      (ownDoc <|> groupDoc).map (CommentGroup.mapFile φ) := by
    cases ownDoc <;> rfl
  rw [hdoc]
  refine maps_bind (maps_typeSpec _) fun spec => ?_
  exact maps_bind maps_endOfItem fun _ => maps_pure (some spec)

private theorem maps_typeDecl (comments : List Comment) :
    Maps φ (List.map (TypeSpec.mapFile φ)) (typeDecl comments)
      (typeDecl (comments.map (Comment.mapFile φ))) := by
  unfold typeDecl
  refine maps_bind (maps_doc comments) fun declDoc => maps_bind maps_advance fun _ => ?_
  refine maps_bind maps_tok fun t => ?_
  have hend (specs : List TypeSpec) : Maps φ (List.map (TypeSpec.mapFile φ))
      (endOfItem >>= fun _ => pure specs)
      (endOfItem >>= fun _ => pure (specs.map (TypeSpec.mapFile φ))) :=
    maps_bind maps_endOfItem fun _ => maps_pure _
  refine maps_ite ?_ ?_
  · exact maps_bind maps_advance fun _ => maps_bind (maps_many (maps_nextType _ _)) hend
  · exact maps_bind (maps_typeSpec _) fun spec => maps_bind (maps_pure [spec]) hend

/-! ### Functions and values -/

private theorem maps_receiver : Maps φ (Option.map (Receiver.mapFile φ)) receiver receiver := by
  unfold receiver
  refine maps_bind maps_tok fun t => maps_ite ?_ (maps_pure none)
  refine maps_bind (maps_params (maps_typeExpr _)) fun ps => ?_
  match ps with
  | [] => exact maps_failAt _ _
  | [p] => exact maps_pure _
  | _ :: _ :: _ => exact maps_failAt _ _

private theorem maps_funcDecl (comments : List Comment) :
    Maps φ (FuncDecl.mapFile φ) (funcDecl comments)
      (funcDecl (comments.map (Comment.mapFile φ))) := by
  unfold funcDecl
  refine maps_bind (maps_doc comments) fun declDoc => maps_bind maps_advance fun _ => ?_
  refine maps_bind maps_receiver fun recv => maps_bind maps_ident fun name => ?_
  refine maps_bind maps_tok fun t => ?_
  -- the body and the end of the declaration
  have hend (decl : FuncDecl) : Maps φ (FuncDecl.mapFile φ)
      (endOfItem >>= fun _ => pure decl) (endOfItem >>= fun _ => pure (decl.mapFile φ)) :=
    maps_bind maps_endOfItem fun _ => maps_pure _
  have hrest (generics : List String) : Maps φ (FuncDecl.mapFile φ)
      (do
        let type ← signature (typeExpr (typeDepth - 1)) name.location
        let t ← tok
        if t.isOp "\x7b" then
          let _ ← balanced
        endOfItem
        return ⟨recv, name, generics, type, declDoc⟩)
      (do
        let type ← signature (typeExpr (typeDepth - 1)) (name.mapFile φ).location
        let t ← tok
        if t.isOp "\x7b" then
          let _ ← balanced
        endOfItem
        return ⟨recv.map (Receiver.mapFile φ), name.mapFile φ, generics, type,
          declDoc.map (CommentGroup.mapFile φ)⟩) := by
    refine maps_bind (maps_signature (maps_typeExpr _) _) fun type => ?_
    refine maps_bind maps_tok fun t => maps_ite ?_ (hend ⟨recv, name, generics, type, declDoc⟩)
    exact maps_bind maps_balanced fun _ => hend ⟨recv, name, generics, type, declDoc⟩
  exact maps_ite (maps_bind maps_typeParams hrest) (maps_bind (maps_pure []) hrest)

private theorem maps_nextValue : Maps φ id nextValue nextValue := by
  unfold nextValue
  refine maps_bind maps_tok fun t => maps_ite (maps_pure none) (maps_ite ?_ ?_)
  · exact maps_bind maps_balanced fun _ => maps_pure (some ())
  · exact maps_ite (maps_failExpected _) (maps_bind maps_advance fun _ => maps_pure (some ()))

private theorem maps_valueDecl : Maps φ id valueDecl valueDecl := by
  unfold valueDecl
  refine maps_bind maps_advance fun _ => maps_bind maps_tok fun t => maps_ite ?_ ?_
  · exact maps_bind maps_balanced fun _ => maps_endOfItem
  · exact maps_bind (maps_many (f := id) (by simpa using maps_nextValue)) fun _ => maps_endOfItem

/-! ### Files -/

/-- Every kind of declaration is read in the other file as it is in the file. -/
private theorem maps_nextDecl (comments : List Comment) :
    Maps φ (Option.map (Decl.mapFile φ)) (nextDecl comments)
      (nextDecl (comments.map (Comment.mapFile φ))) := by
  unfold nextDecl
  refine maps_bind maps_skipSemicolons fun _ => maps_bind maps_tok fun t => ?_
  refine maps_ite (maps_pure none) (maps_ite ?_ (maps_ite ?_ (maps_ite ?_ (maps_ite ?_ ?_))))
  · exact maps_bind (maps_typeDecl comments) fun specs => maps_pure _
  · exact maps_bind (maps_funcDecl comments) fun decl => maps_pure _
  · exact maps_bind maps_valueDecl fun _ => maps_pure _
  · exact maps_fail _
  · exact maps_fail _

private theorem maps_packageClause : Maps φ (Ident.mapFile φ) packageClause packageClause := by
  unfold packageClause
  refine maps_bind maps_skipSemicolons fun _ => maps_bind maps_tok fun t => ?_
  refine maps_ite (maps_bind maps_advance fun _ => ?_) (maps_failExpected _)
  exact maps_bind maps_ident fun id => maps_bind maps_endOfItem fun _ => maps_pure id

/-- So are the declarations of a file, and its imports. -/
private theorem maps_sourceFile (name : String) (comments : List Comment) :
    Maps φ (SourceFile.mapFile φ) (sourceFile name comments)
      (sourceFile (φ name) (comments.map (Comment.mapFile φ))) := by
  unfold sourceFile
  refine maps_bind maps_packageClause fun package => ?_
  refine maps_bind maps_skipSemicolons fun _ => ?_
  refine maps_bind (maps_many maps_nextImportDecl) fun imports => ?_
  refine maps_bind (maps_many (maps_nextDecl comments)) fun decls => ?_
  have htypes : (decls.map (Decl.mapFile φ)).flatMap Decl.typeSpecs =
      (decls.flatMap Decl.typeSpecs).map (TypeSpec.mapFile φ) := by
    simp only [List.flatMap_map, Decl.typeSpecs_mapFile, List.map_flatMap]
  have hfuncs : (decls.map (Decl.mapFile φ)).filterMap Decl.funcDecl? =
      (decls.filterMap Decl.funcDecl?).map (FuncDecl.mapFile φ) := by
    simp only [List.filterMap_map, List.map_filterMap, Function.comp_def, Decl.funcDecl?_mapFile]
  rw [← List.map_flatten, htypes, hfuncs]
  exact maps_pure _

end Parser

/-- A text under another file name declares the same. -/
theorem SourceFile.parse_mapFile (φ : String → String) (name source : String) :
    parse (φ name) source =
      ((parse name source).mapError (SyntaxError.mapFile φ)).map (SourceFile.mapFile φ) := by
  rw [parse, parse, tokenize_mapFile]
  cases tokenize name source with
  | error e => rfl
  | ok lexed =>
    have hmaps : Parser.sourceFile (φ name) (lexed.comments.map (Comment.mapFile φ))
        (Cursor.start (lexed.mapFile φ)) =
        Parser.mapResult φ (mapFile φ) (Parser.sourceFile name lexed.comments (.start lexed)) :=
      Parser.maps_sourceFile name lexed.comments (Cursor.start lexed)
    have hcomments : (lexed.mapFile φ).comments = lexed.comments.map (Comment.mapFile φ) := rfl
    simp only [mapError_ok, Except.map, hcomments, hmaps]
    cases Parser.sourceFile name lexed.comments (.start lexed) <;> rfl

end GoPages

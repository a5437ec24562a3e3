import GoPages.Proofs.Parser.Types

/-!
# Declarations are read step by step

The parsers of imports, type declarations, functions and values are stepwise, and so is the parser
of a whole file (`steps_sourceFile`). Their loops are over imports, import declarations, the types
of a group, the tokens of a value, and declarations. The end of a declaration may be nothing, and so
may be what stands between two semicolons; a round that goes on has read a path, a name or a
keyword.
-/

namespace GoPages

namespace Parser

/-! ### Imports -/

theorem steps_doc (comments : List Comment) : (doc comments).Steps := steps_look _

private theorem steps_importAlias : importAlias.Steps := by
  unfold importAlias
  refine steps_bind steps_tok fun t => steps_ite ?_ (steps_ite ?_ (steps_pure _))
  · exact steps_bind steps_advance fun _ => steps_pure _
  · exact steps_bind steps_advance fun _ => steps_pure _

/-- An import reads at least its path. -/
private theorem advances_importPath : importPath.Advances := by
  refine progress_tok fun t => progress_ite (fun ht => ?_) fun _ => progress_failExpected _
  rw [beq_iff_eq] at ht
  split
  · refine progress_ite (fun _ => progress_fail nofun) fun _ => ?_
    exact progress_bind_left (progress_advance_seen (by simp [ht])) fun _ => steps_pure _
  · exact progress_fail nofun

private theorem advances_importSpec : importSpec.Advances :=
  progress_bind steps_tok fun _ => progress_bind steps_importAlias fun _ =>
    progress_bind_left advances_importPath fun _ => steps_pure _

/-- A group goes on only with another import. -/
theorem isRound_nextImport : nextImport.IsRound := by
  refine progress_bind steps_skipSemicolons fun _ => progress_tok fun t => ?_
  refine progress_ite (fun _ => ?_) fun _ => ?_
  · exact progress_bind steps_advance fun _ => progress_pure (by simp)
  · refine progress_bind_left advances_importSpec.progress fun _ => ?_
    exact steps_bind steps_endOfItem fun _ => steps_pure _

/-- Import declarations go on only with another keyword. -/
theorem isRound_nextImportDecl : nextImportDecl.IsRound := by
  refine progress_tok fun t => progress_ite (fun ht => ?_) fun _ => progress_pure (by simp)
  refine progress_bind_left (progress_advance_seen (kind_ne_eof_of_isKeyword ht)) fun _ => ?_
  refine steps_bind steps_tok fun u => ?_
  refine steps_join
    (fun hk => steps_bind steps_advance fun _ => steps_bind (steps_many isRound_nextImport) hk)
    (fun hk => steps_bind advances_importSpec.steps fun _ => steps_bind (steps_pure _) hk)
    fun specs => ?_
  exact steps_bind steps_endOfItem fun _ => steps_bind steps_skipSemicolons fun _ => steps_pure _

/-! ### Types -/

/-- A declaration of a type reads at least its name. -/
private theorem advances_typeSpec (doc : Option CommentGroup) : (typeSpec doc).Advances := by
  refine progress_bind_left advances_ident fun name => steps_bind (steps_look _) fun generic => ?_
  refine steps_join (steps_bind steps_typeParams) (steps_bind (steps_pure _)) fun params => ?_
  refine steps_bind steps_tok fun t => steps_optional steps_advance ?_
  exact steps_bind (advances_typeExpr _).steps fun _ => steps_pure _

/-- A group goes on only with another type. -/
theorem isRound_nextType (comments : List Comment) (groupDoc : Option CommentGroup) :
    (nextType comments groupDoc).IsRound := by
  refine progress_bind steps_skipSemicolons fun _ => progress_tok fun t => ?_
  refine progress_ite (fun _ => ?_) fun _ => ?_
  · exact progress_bind steps_advance fun _ => progress_pure (by simp)
  refine progress_ite (fun _ => progress_failExpected _) fun _ => ?_
  refine progress_bind (steps_doc comments) fun _ => ?_
  refine progress_bind_left (advances_typeSpec _).progress fun _ => ?_
  exact steps_bind steps_endOfItem fun _ => steps_pure _

/-- The keyword of a declaration is read after a look at its doc comment. -/
theorem progress_doc_advance {α : Type} (comments : List Comment)
    {k : Option CommentGroup → Parser α} (hk : ∀ d, (k d).Steps) :
    Progress (fun _ => True) (fun c => c.tok.kind ≠ .eof)
      (doc comments >>= fun d => advance >>= fun _ => k d) :=
  progress_look fun d => progress_bind_left (progress_advance fun _ hc => hc.1) fun _ => hk d

/-- A type declaration reads its keyword, unless the file has ended. -/
theorem progress_typeDecl (comments : List Comment) :
    Progress (fun _ => True) (fun c => c.tok.kind ≠ .eof) (typeDecl comments) := by
  refine progress_doc_advance comments fun declDoc => steps_bind steps_tok fun u => ?_
  refine steps_join
    (fun hk => steps_bind steps_advance fun _ => steps_bind (steps_many (isRound_nextType _ _)) hk)
    (fun hk => steps_bind (advances_typeSpec _).steps fun _ => steps_bind (steps_pure _) hk)
    fun specs => ?_
  exact steps_bind steps_endOfItem fun _ => steps_pure _

/-! ### Functions and values -/

/-- A function may have no receiver, and then nothing is read. -/
theorem steps_receiver : receiver.Steps := by
  unfold receiver
  refine steps_bind steps_tok fun t => steps_ite ?_ (steps_pure _)
  refine steps_bind (steps_params (advances_typeExpr _)) fun ps => ?_
  split
  · exact steps_pure _
  · exact steps_failAt _ nofun

private theorem progress_funcDecl (comments : List Comment) :
    Progress (fun _ => True) (fun c => c.tok.kind ≠ .eof) (funcDecl comments) := by
  refine progress_doc_advance comments fun declDoc => steps_bind steps_receiver fun recv => ?_
  refine steps_bind advances_ident.steps fun name => steps_bind steps_tok fun u => ?_
  refine steps_join (steps_bind steps_typeParams) (steps_bind (steps_pure _)) fun generics => ?_
  refine steps_bind (steps_signature (advances_typeExpr _) _) fun type => ?_
  refine steps_bind steps_tok fun v => steps_optional advances_balanced.steps ?_
  exact steps_bind steps_endOfItem fun _ => steps_pure _

theorem isRound_nextValue : nextValue.IsRound := by
  refine progress_tok fun t => progress_ite (fun _ => progress_pure (by simp)) fun ht => ?_
  refine progress_ite (fun _ => ?_) fun _ => ?_
  · exact progress_bind_left advances_balanced.progress fun _ => steps_pure _
  refine progress_ite (fun _ => progress_failExpected _) fun _ => ?_
  refine progress_bind_left (progress_advance_seen ?_) fun _ => steps_pure _
  simp only [Bool.or_eq_true, beq_iff_eq, not_or] at ht
  exact ht.2

/-- The declaration of values reads its keyword, unless the file has ended. -/
theorem progress_valueDecl :
    Progress (fun _ => True) (fun c => c.tok.kind ≠ .eof) valueDecl := by
  refine progress_bind_left (progress_advance fun _ hc => hc) fun _ => ?_
  refine steps_bind steps_tok fun u => ?_
  refine steps_ite ?_ ?_
  · exact steps_bind advances_balanced.steps fun _ => steps_endOfItem
  · exact steps_bind (steps_many isRound_nextValue) fun _ => steps_endOfItem

/-! ### Files -/

/-- The declarations of a file go on only with another keyword. -/
theorem isRound_nextDecl (comments : List Comment) : (nextDecl comments).IsRound := by
  refine progress_bind steps_skipSemicolons fun _ => progress_tok fun t => ?_
  refine progress_ite (fun _ => progress_pure (by simp)) fun ht => ?_
  rw [beq_iff_eq] at ht
  have hseen (c : Cursor) (hc : True ∧ c.tok = t) : c.tok.kind ≠ .eof := by rwa [hc.2]
  refine progress_ite (fun _ => ?_) fun _ => progress_ite (fun _ => ?_) fun _ => ?_
  · exact progress_bind_left ((progress_typeDecl comments).mono hseen) fun _ => steps_pure _
  · exact progress_bind_left ((progress_funcDecl comments).mono hseen) fun _ => steps_pure _
  refine progress_ite (fun _ => ?_) fun _ => progress_ite (fun _ => ?_) fun _ => ?_
  · exact progress_bind_left (progress_valueDecl.mono hseen) fun _ => steps_pure _
  · exact progress_fail nofun
  · exact progress_fail nofun

theorem steps_packageClause : packageClause.Steps := by
  unfold packageClause
  refine steps_bind steps_skipSemicolons fun _ => steps_bind steps_tok fun t => ?_
  refine steps_ite (steps_bind steps_advance fun _ => ?_) (steps_failExpected _)
  exact steps_bind advances_ident.steps fun _ => steps_bind steps_endOfItem fun _ => steps_pure _

/-- A file is read step by step. -/
theorem steps_sourceFile (name : String) (comments : List Comment) :
    (sourceFile name comments).Steps := by
  unfold sourceFile
  refine steps_bind steps_packageClause fun package => steps_bind steps_skipSemicolons fun _ => ?_
  refine steps_bind (steps_many isRound_nextImportDecl) fun imports => ?_
  exact steps_bind (steps_many (isRound_nextDecl comments)) fun decls => steps_pure _

end Parser

end GoPages

import GoPages.Proofs.Parser.Declarations
import GoPages.Proofs.Parser.Marks

/-!
# The places of functions

`FuncDecl.places` are the places where something may be noted about a function: those of its name,
of its parameters and of its results. All of them are places of tokens that the function is read
from. The functions of a source file are read one after the other, so that no two of them share a
place (`SourceFile.isPlaced_of_parse`).
-/

namespace GoPages

/-- The places of the parameters and results of a function type. -/
def FuncType.places (type : FuncType) : List Location :=
  (type.params ++ type.results).map ParamOf.location

/-- The places of the name, the parameters and the results of a function. -/
def FuncDecl.places (decl : FuncDecl) : List Location :=
  decl.name.location :: FuncType.places decl.type

namespace Parser

/-! ### Types -/

section Types

variable {elem inner : Parser TypeExpr}

/-- What is kept of a type is its place. -/
abbrev MarksType (p : Parser TypeExpr) : Prop := p.Marks [] fun type => [type.location]

private theorem marks_typeName (h : elem.Steps) : (typeName elem).MarksType := by
  unfold typeName
  refine marks_bind marks_ident fun first => marks_bind (steps_tok.marks _) fun t => ?_
  refine marks_join (fun base => [base.location]) (fun hk => ?_)
    (marks_bind (marks_pure (by simp [TypeExpr.location]))) fun base => ?_
  · refine marks_bind (steps_advance.marks _) fun _ => ?_
    refine marks_bind (advances_ident.steps.marks _) fun name => ?_
    exact marks_bind (marks_pure (by simp [TypeExpr.location])) hk
  · refine marks_bind ((steps_look _).marks _) fun generic => marks_ite ?_ (marks_pure (by simp))
    refine marks_bind (steps_advance.marks _) fun _ => marks_bind (h.marks _) fun arg => ?_
    refine marks_bind ((steps_many (isRound_nextTypeArg h)).marks _) fun others => ?_
    exact marks_bind ((steps_op _).marks _) fun _ => marks_pure (by simp [TypeExpr.location])

/-! ### Parameters -/

/-- The places of an entry of a parameter list: of its name and of its type. -/
def entryPlaces : ParamEntry → List Location
  | .lone id => [id.location]
  | .named id type => [id.location, type.location]
  | .unnamed type => [type.location]

private theorem marks_paramEntry (h : elem.MarksType) : (paramEntry elem).Marks [] entryPlaces := by
  unfold paramEntry
  refine marks_bind (steps_tok.marks _) fun t => marks_bind ((steps_look _).marks _) fun next => ?_
  refine marks_bind ((steps_look _).marks _) fun generic => marks_ite ?_ ?_
  · exact marks_bind h fun type => marks_pure (by simp [entryPlaces])
  refine marks_ite ?_ (marks_ite ?_ ?_)
  · exact marks_bind marks_ident fun id => marks_pure (by simp [entryPlaces])
  · exact marks_bind h fun type => marks_pure (by simp [entryPlaces])
  · refine marks_bind marks_ident fun id => marks_bind (h.keep _) fun type => ?_
    exact marks_pure (by simp [entryPlaces])

/-- An entry of a parameter list keeps its own places. -/
private theorem marks_nextParam (h : elem.MarksType) :
    (nextParam elem).Marks [] fun entry => entry.toList.flatMap entryPlaces := by
  unfold nextParam
  refine marks_bind (steps_skipSemicolons.marks _) fun _ => ?_
  refine marks_bind (steps_tok.marks _) fun t => marks_ite ?_ ?_
  · exact marks_bind (steps_advance.marks _) fun _ => marks_pure (by simp)
  refine marks_bind (marks_paramEntry h) fun entry => ?_
  refine marks_bind (steps_skipSemicolons.marks _) fun _ => ?_
  refine marks_bind (steps_tok.marks _) fun u => marks_ite ?_ (marks_ite ?_ ?_)
  · exact marks_bind (steps_advance.marks _) fun _ => marks_pure (by simp)
  · exact marks_pure (by simp)
  · exact marks_failExpected _

/-- Parameters have the places of their entries. -/
private theorem places_of_groupParams {start : Location} {entries : List ParamEntry}
    {params : List Param} (h : groupParams start entries = .ok params) :
    params.map ParamOf.location ⊆ entries.flatMap entryPlaces := by
  intro l hl
  obtain ⟨param, hparam, rfl⟩ := List.mem_map.mp hl
  rw [groupParams] at h
  split at h
  · -- a named parameter has the place of its name
    obtain ⟨name, id, type, rfl, -, hname⟩ := exists_of_mem_nameParams h hparam
    rcases hname with hpending | hlone | ⟨type', hnamed⟩
    · cases hpending
    · exact List.mem_flatMap.mpr ⟨_, hlone, by simp [entryPlaces, ParamOf.location]⟩
    · exact List.mem_flatMap.mpr ⟨_, hnamed, by simp [entryPlaces, ParamOf.location]⟩
  · cases h
    obtain ⟨entry, hentry, rfl⟩ := List.mem_map.mp hparam
    refine List.mem_flatMap.mpr ⟨entry, hentry, ?_⟩
    cases entry <;> simp [ParamEntry.asType, ParamOf.location, entryPlaces, TypeExpr.location]

private theorem marks_params (h : elem.MarksType) :
    (params elem).Marks [] fun ps => ps.map ParamOf.location := by
  unfold params
  refine marks_bind (steps_tok.marks _) fun start => marks_bind ((steps_op _).marks _) fun _ => ?_
  refine marks_bind (marks_many (marks_nextParam h)) fun entries => ?_
  cases hgroup : groupParams start.location entries with
  | error e => exact fun c ps c' hp => nomatch hp
  | ok ps => exact marks_pure (places_of_groupParams hgroup)

/-- A signature keeps the places of its parameters and its results. -/
private theorem marks_signature (h : elem.MarksType) (l : Location) :
    (signature elem l).Marks [] FuncType.places := by
  unfold signature
  refine marks_bind (marks_params h) fun ps => marks_bind (steps_tok.marks _) fun t => ?_
  refine marks_ite ?_ (marks_ite ?_ ?_)
  · refine marks_bind ((marks_params h).keep _) fun results => marks_pure ?_
    simp [FuncType.places]
  · refine marks_bind (h.keep _) fun result => marks_pure ?_
    simp [FuncType.places, ParamOf.location]
  · exact marks_pure (by simp [FuncType.places])

/-! ### All types -/

private theorem marks_chanType (h : elem.Steps) {before : List Location} {l : Location}
    (hl : l ∈ before) : (chanType elem l).Marks before fun type => [type.location] := by
  have hpure (dir : ChanDir) (type : TypeExpr) :
      (pure (.chan l dir type) : Parser TypeExpr).Marks before fun type => [type.location] :=
    marks_pure (by simpa [TypeExpr.location] using hl)
  unfold chanType
  refine marks_bind (steps_tok.marks _) fun t => marks_ite ?_ ?_
  · exact marks_bind (steps_advance.marks _) fun _ => marks_bind (h.marks _) fun _ => hpure _ _
  · exact marks_bind (h.marks _) fun _ => hpure _ _

/-- A function type has the place that it is given. -/
theorem marks_signature_location (h : elem.Advances) {before : List Location} {l : Location}
    (hl : l ∈ before) :
    (signature elem l).Marks before fun type => [SignatureOf.location type] := by
  unfold signature
  refine marks_bind ((steps_params h).marks _) fun ps => marks_bind (steps_tok.marks _) fun t => ?_
  refine marks_ite ?_ (marks_ite ?_ (marks_pure (by simpa using hl)))
  · exact marks_bind ((steps_params h).marks _) fun _ => marks_pure (by simpa using hl)
  · exact marks_bind (h.steps.marks _) fun _ => marks_pure (by simpa using hl)

section Seen

variable {c : Cursor} (hkind : c.tok.kind ≠ .eof) (hsemi : c.tok.kind ≠ .semicolon)
include hkind hsemi

/-- A type that starts with an operator has the place of the operator, unless it is the type between
parentheses. -/
theorem marksAt_operatorType (h : elem.Steps) (hplace : elem.MarksType) :
    (operatorType elem c.tok).MarksAt c [] fun type => [type.location] := by
  have hseen : advance.MarksAt c [] fun _ => [c.tok.location] := marksAt_advance hkind hsemi
  unfold operatorType
  split
  · exact marksAt_bind hseen fun _ => marks_bind (h.marks _) fun _ => marks_pure (.refl _)
  · refine marksAt_bind hseen fun _ => marks_bind (steps_tok.marks _) fun next => marks_ite ?_ ?_
    · refine marks_bind (steps_advance.marks _) fun _ => ?_
      exact marks_bind (h.marks _) fun _ => marks_pure (.refl _)
    · refine marks_bind (steps_arrayLen.marks _) fun _ => ?_
      exact marks_bind (h.marks _) fun _ => marks_pure (.refl _)
  · refine marksAt_bind hseen fun _ => marks_bind (steps_tok.marks _) fun next => marks_ite ?_ ?_
    · refine marks_bind (steps_advance.marks _) fun _ => ?_
      exact marks_bind (h.marks _) fun _ => marks_pure (.refl _)
    · exact marks_failExpected _
  · refine marksAt_bind hseen fun _ => marks_bind (hplace.keep _) fun type => ?_
    exact marks_bind ((steps_op _).marks _) fun _ => marks_pure (by simp)
  · exact marksAt_bind hseen fun _ => marks_bind (h.marks _) fun _ => marks_pure (.refl _)
  · exact marks_failExpected _ c

/-- A type that starts with a keyword has the place of the keyword. -/
theorem marksAt_keywordType (h : elem.Steps) (hinner : inner.Advances) :
    (keywordType elem inner c.tok).MarksAt c [] fun type => [type.location] := by
  have hseen : advance.MarksAt c [] fun _ => [c.tok.location] := marksAt_advance hkind hsemi
  unfold keywordType
  split
  · refine marksAt_bind hseen fun _ => marks_bind ((steps_op _).marks _) fun _ => ?_
    refine marks_bind (h.marks _) fun _ => marks_bind ((steps_op _).marks _) fun _ => ?_
    exact marks_bind (h.marks _) fun _ => marks_pure (.refl _)
  · exact marksAt_bind hseen fun _ => marks_chanType h List.mem_cons_self
  · refine marksAt_bind hseen fun _ => ?_
    refine marks_bind (marks_signature_location hinner List.mem_cons_self) fun type => ?_
    exact marks_pure (.refl _)
  · refine marksAt_bind hseen fun _ => marks_bind ((steps_structBody hinner).marks _) fun _ => ?_
    exact marks_pure (.refl _)
  · refine marksAt_bind hseen fun _ => marks_bind (steps_interfaceBody.marks _) fun _ => ?_
    exact marks_pure (.refl _)
  · exact marks_failExpected _ c

end Seen

/-- A type keeps the place where it starts. -/
private theorem marks_typeExprWith (h : elem.Steps) (hplace : elem.MarksType)
    (hinner : inner.Advances) : (typeExprWith elem inner).MarksType := by
  intro c
  unfold typeExprWith
  refine marksAt_tok ?_
  split
  · exact marks_typeName h c
  · next hkind => exact marksAt_keywordType (by simp [hkind]) (by simp [hkind]) h hinner
  · next hkind => exact marksAt_operatorType (by simp [hkind]) (by simp [hkind]) h hplace
  · exact marks_failExpected _ c

end Types

/-- The place of a type is that of its first token or, in parentheses, of the type between them. -/
theorem marks_typeExpr (n : Nat) : (typeExpr n).MarksType := by
  fun_induction typeExpr n with
  | case1 => exact marks_fail _
  | case2 =>
    exact marks_typeExprWith (steps_fail (by simp)) (marks_fail _) (progress_fail (by simp))
  | case3 n ih₁ ih₂ =>
    exact marks_typeExprWith (advances_typeExpr _).steps ih₁ (advances_typeExpr _)

/-! ### Functions -/

/-- What is kept of a function are its places. -/
theorem marks_funcDecl (comments : List Comment) :
    (funcDecl comments).Marks [] FuncDecl.places := by
  unfold funcDecl
  refine marks_bind ((steps_doc comments).marks _) fun declDoc => ?_
  refine marks_bind (steps_advance.marks _) fun _ => ?_
  refine marks_bind (steps_receiver.marks _) fun recv => ?_
  refine marks_bind marks_ident fun name => marks_bind (steps_tok.marks _) fun t => ?_
  -- the signature, the body and the end of the declaration
  refine marks_join (fun _ => [name.location]) (marks_bind (steps_typeParams.marks _))
    (marks_bind ((steps_pure _).marks _)) fun generics => ?_
  refine marks_bind ((marks_signature (marks_typeExpr _) _).keep _) fun type => ?_
  refine marks_bind (steps_tok.marks _) fun u => ?_
  have hend : (endOfItem >>= fun _ => pure ⟨recv, name, generics, type, declDoc⟩).Marks
      ([name.location] ++ FuncType.places type) FuncDecl.places :=
    marks_bind (steps_endOfItem.marks _) fun _ => marks_pure (.refl _)
  exact marks_ite (marks_bind (advances_balanced.steps.marks _) fun _ => hend) hend

/-! ### Files -/

/-- The places of the function that a declaration declares. -/
def declPlaces (d : Decl) : List Location := d.funcDecl?.toList.flatMap FuncDecl.places

/-- A declaration keeps the places of its function, if it is one. -/
private theorem marks_nextDecl (comments : List Comment) :
    (nextDecl comments).Marks [] fun d => d.toList.flatMap declPlaces := by
  unfold nextDecl
  refine marks_bind (steps_skipSemicolons.marks _) fun _ => ?_
  refine marks_bind (steps_tok.marks _) fun t => marks_ite (marks_pure (by simp)) ?_
  refine marks_ite ?_ (marks_ite ?_ (marks_ite ?_ (marks_ite (marks_fail _) (marks_fail _))))
  · refine marks_bind ((progress_typeDecl comments).steps.marks _) fun specs => marks_pure ?_
    simp [declPlaces, Decl.funcDecl?]
  · refine marks_bind (marks_funcDecl comments) fun decl => marks_pure ?_
    simp [declPlaces, Decl.funcDecl?]
  · refine marks_bind (progress_valueDecl.steps.marks _) fun _ => marks_pure ?_
    simp [declPlaces, Decl.funcDecl?]

end Parser

namespace Parser

/-- The functions of a file are kept with the places of its tokens. -/
theorem marks_sourceFile {name : String} {comments : List Comment} {c c' : Cursor}
    {file : SourceFile} (h : sourceFile name comments c = .ok (file, c')) :
    file.name = name ∧ ∃ skipped read, c.left = skipped ++ read ++ c'.left ∧
      file.funcs.flatMap FuncDecl.places ⊆ tokenPlaces read ∧
      ((tokenPlaces read).Pairwise Location.Precedes → file.funcs.Pairwise fun d e =>
        ∀ l ∈ d.places, ∀ m ∈ e.places, l.Precedes m) := by
  unfold sourceFile at h
  obtain ⟨package, c₁, h₁, h⟩ := exists_of_bind h
  obtain ⟨_, c₂, h₂, h⟩ := exists_of_bind h
  obtain ⟨imports, c₃, h₃, h⟩ := exists_of_bind h
  obtain ⟨decls, c₄, h₄, h⟩ := exists_of_bind h
  cases h
  -- what stands before the declarations is skipped: the package clause and the imports
  obtain ⟨read₁, hread₁⟩ := steps_packageClause.reads _ _ _ h₁
  obtain ⟨read₂, hread₂⟩ := steps_skipSemicolons.reads _ _ _ h₂
  obtain ⟨read₃, hread₃⟩ := (steps_many isRound_nextImportDecl).reads _ _ _ h₃
  obtain ⟨read, hread, hplaces, hapart⟩ := marks_many_pairwise (marks_nextDecl comments) h₄
  refine ⟨rfl, read₁ ++ read₂ ++ read₃, read, ?_, ?_, fun hpairwise => ?_⟩
  · simp [hread₁, hread₂, hread₃, hread]
  · rw [List.filterMap_eq_flatMap_toList, List.flatMap_assoc]
    exact hplaces
  · refine (hapart hpairwise).filterMap Decl.funcDecl? fun d e hde f hf g hg l hl m hm => ?_
    have hd : l ∈ declPlaces d := by simpa [declPlaces, Option.mem_def.mp hf] using hl
    have he : m ∈ declPlaces e := by simpa [declPlaces, Option.mem_def.mp hg] using hm
    exact hde l hd m he

end Parser

/-- The functions of the file stand one after the other, each with its places, and all of these are
in the file. -/
structure SourceFile.IsPlaced (file : SourceFile) : Prop where
  apart : file.funcs.Pairwise fun d e => ∀ l ∈ d.places, ∀ m ∈ e.places, l.Precedes m
  inFile : ∀ d ∈ file.funcs, ∀ l ∈ d.places, l.file = file.name ∧ 0 < l.line

/-- The functions of a file that is read have no places in common. -/
theorem SourceFile.isPlaced_of_parse {name source : String} {file : SourceFile}
    (h : SourceFile.parse name source = .ok file) : file.name = name ∧ file.IsPlaced := by
  obtain ⟨lexed, c, hlexed, hparsed⟩ := exists_tokenize_of_parse h
  obtain ⟨hpairwise, hfile⟩ := pairwise_precedes_tokenPlaces hlexed
  obtain ⟨hname, skipped, read, hread, hplaces, hapart⟩ := Parser.marks_sourceFile hparsed
  have hsub : (tokenPlaces read).Sublist (tokenPlaces lexed.tokens) := by
    change lexed.tokens = _ at hread
    rw [hread, tokenPlaces_append, tokenPlaces_append]
    exact (List.sublist_append_right _ _).trans (List.sublist_append_left _ _)
  refine ⟨hname, hapart (hpairwise.sublist hsub), fun d hd l hl => ?_⟩
  rw [hname]
  exact hfile l (hsub.subset (hplaces (List.mem_flatMap.mpr ⟨d, hd, hl⟩)))

end GoPages

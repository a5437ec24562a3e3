import GoPages.Proofs.Files.Parser

/-!
# Types under another file name

The parsers of type expressions read in a file under another name what they read in the file
(`Parser.maps_typeExpr`), one production of the grammar after the other.
-/

namespace GoPages

section Lists

variable (φ : String → String)

/-- The entry of a parameter list in another file. -/
def ParamEntry.mapFile : ParamEntry → ParamEntry
  | lone id => lone (id.mapFile φ)
  | named id type => named (id.mapFile φ) (type.mapFile φ)
  | unnamed type => unnamed (type.mapFile φ)

/-- Entries have names or not, whatever the file is called. -/
theorem ParamEntry.isNamed_mapFile (entry : ParamEntry) :
    (entry.mapFile φ).isNamed = entry.isNamed := by
  cases entry <;> rfl

private theorem ParamEntry.asType_mapFile (entry : ParamEntry) :
    (entry.mapFile φ).asType = entry.asType.mapFile φ := by
  cases entry <;> simp [mapFile, asType, ParamOf.mapFile, TypeExpr.mapFile]

/-- What a list of entries gives, in another file. -/
def mapParams : Except SyntaxError (List Param) → Except SyntaxError (List Param)
  | .error e => .error (e.mapFile φ)
  | .ok params => .ok (params.map (ParamOf.mapFile φ))

/-- Names go with the same types in the other file. -/
private theorem nameParams_mapFile (start : Location) (pending : List Ident)
    (entries : List ParamEntry) : nameParams (start.mapFile φ) (pending.map (Ident.mapFile φ))
        (entries.map (ParamEntry.mapFile φ)) =
      mapParams φ (nameParams start pending entries) := by
  fun_induction nameParams start pending entries with
  | case1 => rfl
  | case2 => rfl
  | case3 pending id rest ih =>
    rw [List.map_append] at ih
    rw [← ih, List.map_cons, ParamEntry.mapFile, nameParams]
    rfl
  | case4 pending id type rest e hrest ih =>
    rw [hrest] at ih
    rw [List.map_cons, ParamEntry.mapFile, nameParams, ← List.map_nil, ih]
    rfl
  | case5 pending id type rest params hrest ih =>
    rw [hrest] at ih
    rw [List.map_cons, ParamEntry.mapFile, nameParams, ← List.map_nil, ih]
    simp [mapParams, ParamOf.mapFile]
  | case6 pending type rest =>
    rw [List.map_cons, ParamEntry.mapFile, nameParams, TypeExpr.location_mapFile]
    rfl

private theorem groupParams_mapFile (start : Location) (entries : List ParamEntry) :
    groupParams (start.mapFile φ) (entries.map (ParamEntry.mapFile φ)) =
      mapParams φ (groupParams start entries) := by
  have hnamed : ParamEntry.isNamed ∘ ParamEntry.mapFile φ = ParamEntry.isNamed :=
    funext fun entry => entry.isNamed_mapFile φ
  rw [groupParams, groupParams, List.any_map, hnamed]
  split
  · exact nameParams_mapFile φ start [] entries
  · simp [mapParams, ParamEntry.asType_mapFile]

private theorem lengthSpan_mapFile (nested : Nat) (ts : List Token) :
    lengthSpan nested (ts.map (Token.mapFile φ)) =
      ((lengthSpan nested ts).1.map (Token.mapFile φ),
        (lengthSpan nested ts).2.map (Token.mapFile φ)) := by
  fun_induction lengthSpan nested ts with
  | case1 => rfl
  | case2 nested t rest h => simp [lengthSpan, h]
  | case3 nested t rest h deeper read rest' hrest ih =>
    rw [hrest] at ih
    simp only [List.map_cons, lengthSpan, Token.kind_mapFile, Token.isOp_mapFile, h, if_false]
    exact congrArg (fun cut : List Token × List Token => (t.mapFile φ :: cut.1, cut.2)) ih

end Lists

namespace Parser

variable {φ : String → String}

/-! ### Names and literals -/

private theorem maps_arrayLen : Maps φ id arrayLen arrayLen := by
  intro c
  have hspan : lengthSpan 0 (c.mapFile φ).left =
      ((lengthSpan 0 c.left).1.map (Token.mapFile φ),
        (lengthSpan 0 c.left).2.map (Token.mapFile φ)) := lengthSpan_mapFile φ 0 c.left
  have htext : ((lengthSpan 0 c.left).1.map (Token.mapFile φ)).map Token.text =
      (lengthSpan 0 c.left).1.map Token.text := by simp
  rw [arrayLen, arrayLen, hspan]
  simp only [Cursor.after_mapFile, Cursor.tok_mapFile, Token.isOp_mapFile, htext]
  split
  · rw [Cursor.advance_mapFile]
    rfl
  · exact maps_failExpected _ _

private theorem maps_nextName : Maps φ (Option.map (Ident.mapFile φ)) nextName nextName := by
  unfold nextName
  refine maps_bind maps_tok fun t => maps_ite ?_ (maps_pure _)
  exact maps_bind maps_advance fun _ => maps_bind maps_ident fun id => maps_pure (some id)

private theorem maps_fieldTag : Maps φ id fieldTag fieldTag := by
  unfold fieldTag
  refine maps_bind maps_tok fun t => maps_ite ?_ (maps_pure _)
  rw [Token.text_mapFile]
  split
  · exact maps_bind maps_advance fun _ => maps_pure _
  · exact maps_fail _

private theorem maps_interfaceBody : Maps φ id interfaceBody interfaceBody := by
  unfold interfaceBody
  refine maps_bind maps_tok fun t => maps_ite ?_ (maps_failExpected _)
  refine maps_bind maps_balanced fun inner => ?_
  rw [List.all_map]
  exact maps_pure _

private theorem startsGeneric_mapFile (c : Cursor) :
    startsGeneric (c.mapFile φ) = startsGeneric c := by
  rw [startsGeneric, startsGeneric, Cursor.afterBracket?_mapFile, Cursor.peek_mapFile]
  cases c.afterBracket? 1 <;> rfl

private theorem startsEmbedded_mapFile (c : Cursor) :
    startsEmbedded (c.mapFile φ) = startsEmbedded c := by
  rw [startsEmbedded, startsEmbedded, Cursor.afterBracket?_mapFile, Cursor.peek_mapFile,
    Cursor.peek_mapFile]
  cases c.afterBracket? 1 <;> rfl

/-! ### Type expressions -/

section Types

variable {elem inner : Parser TypeExpr} (h : Maps φ (TypeExpr.mapFile φ) elem elem)
include h

private theorem maps_nextTypeArg :
    Maps φ (Option.map (TypeExpr.mapFile φ)) (nextTypeArg elem) (nextTypeArg elem) := by
  unfold nextTypeArg
  refine maps_bind maps_tok fun t => maps_ite ?_ (maps_pure _)
  refine maps_bind maps_advance fun _ => maps_bind maps_tok fun u => ?_
  exact maps_ite (maps_pure _) (maps_bind h fun arg => maps_pure (some arg))

private theorem maps_typeName : Maps φ (TypeExpr.mapFile φ) (typeName elem) (typeName elem) := by
  unfold typeName
  refine maps_bind maps_ident fun first => maps_bind maps_tok fun t => ?_
  -- what follows the name, with or without a package, is read in one way
  have hargs (base : TypeExpr) : Maps φ (TypeExpr.mapFile φ)
      (do
        let generic ← look fun c => c.tok.isOp "[" && !(c.peek 1).isOp "]"
        if generic then
          advance
          let first ← elem
          let others ← many (nextTypeArg elem)
          op "]"
          return TypeExpr.generic base (first :: others)
        else return base)
      (do
        let generic ← look fun c => c.tok.isOp "[" && !(c.peek 1).isOp "]"
        if generic then
          advance
          let first ← elem
          let others ← many (nextTypeArg elem)
          op "]"
          return TypeExpr.generic (base.mapFile φ) (first :: others)
        else return base.mapFile φ) := by
    refine maps_bind (maps_look (f := id) fun c => ?_) fun generic => maps_ite ?_ (maps_pure _)
    · rw [Cursor.tok_mapFile, Cursor.peek_mapFile]
      rfl
    refine maps_bind maps_advance fun _ => maps_bind h fun first => ?_
    refine maps_bind (maps_many (maps_nextTypeArg h)) fun others => ?_
    refine maps_bind (maps_op _) fun _ => ?_
    rw [← List.map_cons, ← TypeExpr.mapFile_generic]
    exact maps_pure _
  refine maps_ite ?_ (maps_bind (maps_pure _) hargs)
  refine maps_bind maps_advance fun _ => maps_bind maps_ident fun _ => ?_
  exact maps_bind (maps_pure _) hargs

private theorem maps_paramEntry :
    Maps φ (ParamEntry.mapFile φ) (paramEntry elem) (paramEntry elem) := by
  refine maps_bind maps_tok fun t => ?_
  refine maps_bind (maps_look (Cursor.peek_mapFile φ · 1)) fun next => ?_
  refine maps_bind (maps_look (f := id) startsGeneric_mapFile) fun generic => ?_
  refine maps_ite ?_ (maps_ite ?_ (maps_ite ?_ ?_))
  · exact maps_bind h fun type => maps_pure _
  · exact maps_bind maps_ident fun id => maps_pure _
  · exact maps_bind h fun type => maps_pure _
  · exact maps_bind maps_ident fun id => maps_bind h fun type => maps_pure _

private theorem maps_nextParam :
    Maps φ (Option.map (ParamEntry.mapFile φ)) (nextParam elem) (nextParam elem) := by
  refine maps_bind maps_skipSemicolons fun _ => maps_bind maps_tok fun t => ?_
  refine maps_ite (maps_bind maps_advance fun _ => maps_pure none) ?_
  refine maps_bind (maps_paramEntry h) fun entry => ?_
  refine maps_bind maps_skipSemicolons fun _ => maps_bind maps_tok fun u => ?_
  refine maps_ite (maps_bind maps_advance fun _ => maps_pure (some entry)) ?_
  exact maps_ite (maps_pure (some entry)) (maps_failExpected _)

/-- A list of parameters is read in the other file. -/
theorem maps_params : Maps φ (List.map (ParamOf.mapFile φ)) (params elem) (params elem) := by
  refine maps_bind maps_tok fun start => maps_bind (maps_op _) fun _ => ?_
  refine maps_bind (maps_many (maps_nextParam h)) fun entries => ?_
  intro c
  have hgroup := groupParams_mapFile φ start.location entries
  have hstart : (start.mapFile φ).location = start.location.mapFile φ := rfl
  simp only [hstart, hgroup]
  cases groupParams start.location entries <;> rfl

/-- So is a signature. -/
theorem maps_signature (l : Location) :
    Maps φ (SignatureOf.mapFile φ) (signature elem l) (signature elem (l.mapFile φ)) := by
  refine maps_bind (maps_params h) fun ps => maps_bind maps_tok fun t => maps_ite ?_ ?_
  · exact maps_bind (maps_params h) fun results => maps_pure _
  · exact maps_ite (maps_bind h fun result => maps_pure _)
      (maps_pure _)

private theorem maps_fieldNames :
    Maps φ (Prod.map (List.map (Ident.mapFile φ)) (TypeExpr.mapFile φ)) (fieldNames elem)
      (fieldNames elem) := by
  unfold fieldNames
  refine maps_bind maps_tok fun t => ?_
  refine maps_bind (maps_look (f := id) startsEmbedded_mapFile) fun embedded => ?_
  refine maps_ite (maps_bind h fun type => maps_pure ([], type)) ?_
  refine maps_ite ?_ (maps_failExpected _)
  refine maps_bind maps_ident fun first => maps_bind (maps_many maps_nextName) fun others => ?_
  exact maps_bind h fun type => maps_pure (first :: others, type)

private theorem maps_nextField :
    Maps φ (Option.map (FieldOf.mapFile φ)) (nextField elem) (nextField elem) := by
  unfold nextField
  refine maps_bind maps_skipSemicolons fun _ => maps_bind maps_tok fun t => ?_
  refine maps_ite (maps_bind maps_advance fun _ => maps_pure none) ?_
  refine maps_ite (maps_failExpected _) (maps_bind (maps_fieldNames h) fun r => ?_)
  refine maps_bind maps_fieldTag fun tag => maps_bind maps_endOfItem fun _ => ?_
  exact maps_pure _

private theorem maps_structBody :
    Maps φ (List.map (FieldOf.mapFile φ)) (structBody elem) (structBody elem) :=
  maps_bind (maps_op _) fun _ => maps_many (maps_nextField h)

private theorem maps_chanType (l : Location) :
    Maps φ (TypeExpr.mapFile φ) (chanType elem l) (chanType elem (l.mapFile φ)) := by
  unfold chanType
  refine maps_bind maps_tok fun t => maps_ite ?_ (maps_bind h fun type => maps_pure _)
  exact maps_bind maps_advance fun _ => maps_bind h fun type => maps_pure _

private theorem maps_operatorType (t : Token) :
    Maps φ (TypeExpr.mapFile φ) (operatorType elem t) (operatorType elem (t.mapFile φ)) := by
  unfold operatorType
  rw [Token.text_mapFile]
  split
  · exact maps_bind maps_advance fun _ => maps_bind h fun type => maps_pure _
  · refine maps_bind maps_advance fun _ => maps_bind maps_tok fun next => maps_ite ?_ ?_
    · exact maps_bind maps_advance fun _ => maps_bind h fun type => maps_pure _
    · exact maps_bind maps_arrayLen fun len => maps_bind h fun type => maps_pure _
  · refine maps_bind maps_advance fun _ => maps_bind maps_tok fun next => ?_
    refine maps_ite ?_ (maps_failExpected _)
    exact maps_bind maps_advance fun _ => maps_bind h fun type => maps_pure _
  · refine maps_bind maps_advance fun _ => maps_bind h fun type => ?_
    exact maps_bind (maps_op _) fun _ => maps_pure _
  · exact maps_bind maps_advance fun _ => maps_bind h fun type => maps_pure _
  · exact maps_failExpected _

variable (hinner : Maps φ (TypeExpr.mapFile φ) inner inner)
include hinner

private theorem maps_keywordType (t : Token) :
    Maps φ (TypeExpr.mapFile φ) (keywordType elem inner t)
      (keywordType elem inner (t.mapFile φ)) := by
  unfold keywordType
  rw [Token.text_mapFile]
  split
  · refine maps_bind maps_advance fun _ => maps_bind (maps_op _) fun _ => ?_
    refine maps_bind h fun key => maps_bind (maps_op _) fun _ => ?_
    exact maps_bind h fun value => maps_pure _
  · exact maps_bind maps_advance fun _ => maps_chanType h _
  · refine maps_bind maps_advance fun _ => ?_
    refine maps_bind (maps_signature hinner _) fun type => ?_
    rw [← TypeExpr.mapFile_func]
    exact maps_pure _
  · refine maps_bind maps_advance fun _ => ?_
    refine maps_bind (maps_structBody hinner) fun fields => ?_
    rw [Token.location_mapFile, ← TypeExpr.mapFile_struct]
    exact maps_pure _
  · refine maps_bind maps_advance fun _ => ?_
    exact maps_bind maps_interfaceBody fun _ => maps_pure _
  · exact maps_failExpected _

private theorem maps_typeExprWith :
    Maps φ (TypeExpr.mapFile φ) (typeExprWith elem inner) (typeExprWith elem inner) := by
  unfold typeExprWith
  refine maps_bind maps_tok fun t => ?_
  rw [Token.kind_mapFile]
  split
  · exact maps_typeName h
  · exact maps_keywordType h hinner t
  · exact maps_operatorType h t
  · exact maps_failExpected _

end Types

/-- Types are read under another file name, however deeply their parts nest. -/
theorem maps_typeExpr (n : Nat) : Maps φ (TypeExpr.mapFile φ) (typeExpr n) (typeExpr n) := by
  fun_induction typeExpr n with
  | case1 => exact maps_fail _
  | case2 => exact maps_typeExprWith (maps_fail _) (maps_fail _)
  | case3 n ih₁ ih₂ => exact maps_typeExprWith ih₁ ih₂

end Parser

end GoPages

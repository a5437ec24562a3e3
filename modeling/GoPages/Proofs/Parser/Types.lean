import GoPages.Proofs.Parser.Scans

/-!
# Type expressions are read step by step

Every parser of a part of a type is stepwise if the parsers `elem` and `inner` of its parts are. The
loops of the grammar are over type arguments, parameters, fields and names. A round of each that
goes on has read a token: a comma, a name, or a type, of which nothing is empty
(`advances_typeExpr`).
-/

namespace GoPages

namespace Parser

/-! ### Names, tags and bodies -/

/-- Names go on only after a comma. -/
theorem isRound_nextName : nextName.IsRound := by
  refine progress_tok fun t => progress_ite (fun ht => ?_) fun _ => progress_pure (by simp)
  refine progress_bind_left (progress_advance_seen (kind_ne_eof_of_isOp ht)) fun _ => ?_
  exact steps_bind advances_ident.steps fun _ => steps_pure _

theorem steps_fieldTag : fieldTag.Steps := by
  unfold fieldTag
  refine steps_bind steps_tok fun t => steps_ite ?_ (steps_pure _)
  split
  · exact steps_bind steps_advance fun _ => steps_pure _
  · exact steps_fail nofun

theorem steps_interfaceBody : interfaceBody.Steps := by
  unfold interfaceBody
  refine steps_bind steps_tok fun t => steps_ite ?_ (steps_failExpected _)
  exact steps_bind advances_balanced.steps fun _ => steps_pure _

section Types

variable {elem inner : Parser TypeExpr}

/-! ### Type names -/

/-- Type arguments go on only after a comma. -/
theorem isRound_nextTypeArg (h : elem.Steps) : (nextTypeArg elem).IsRound := by
  refine progress_tok fun t => progress_ite (fun ht => ?_) fun _ => progress_pure (by simp)
  refine progress_bind_left (progress_advance_seen (kind_ne_eof_of_isOp ht)) fun _ => ?_
  refine steps_bind steps_tok fun u => steps_ite (steps_pure _) ?_
  exact steps_bind h fun _ => steps_pure _

/-- The name of a type is at least one token. -/
private theorem advances_typeName (h : elem.Steps) : (typeName elem).Advances := by
  refine progress_bind_left advances_ident fun first => steps_bind steps_tok fun t => ?_
  refine steps_join (fun hk => ?_) (steps_bind (steps_pure _)) fun base => ?_
  · refine steps_bind steps_advance fun _ => steps_bind advances_ident.steps fun _ => ?_
    exact steps_bind (steps_pure _) hk
  · refine steps_bind (steps_look _) fun generic => steps_ite ?_ (steps_pure _)
    refine steps_bind steps_advance fun _ => steps_bind h fun _ => ?_
    refine steps_bind (steps_many (isRound_nextTypeArg h)) fun _ => ?_
    exact steps_bind (steps_op _) fun _ => steps_pure _

/-! ### Functions -/

/-- An entry of a parameter list is a name or a type, and neither is empty. -/
theorem advances_paramEntry (h : elem.Advances) : (paramEntry elem).Advances := by
  refine progress_tok fun t => progress_bind (steps_look _) fun next => ?_
  refine progress_bind (steps_look _) fun generic => progress_ite (fun _ => ?_) fun _ => ?_
  · exact progress_bind_left h.progress fun _ => steps_pure _
  refine progress_ite (fun _ => ?_) fun _ => progress_ite (fun _ => ?_) fun _ => ?_
  · exact progress_bind_left advances_ident fun _ => steps_pure _
  · exact progress_bind_left h.progress fun _ => steps_pure _
  · exact progress_bind_left advances_ident fun _ => steps_bind h.steps fun _ => steps_pure _

theorem isRound_nextParam (h : elem.Advances) : (nextParam elem).IsRound := by
  refine progress_bind steps_skipSemicolons fun _ => progress_tok fun t => ?_
  refine progress_ite (fun _ => ?_) fun _ => ?_
  · exact progress_bind steps_advance fun _ => progress_pure (by simp)
  refine progress_bind_left (advances_paramEntry h).progress fun entry => ?_
  refine steps_bind steps_skipSemicolons fun _ => steps_bind steps_tok fun u => ?_
  refine steps_ite (steps_bind steps_advance fun _ => steps_pure _) ?_
  exact steps_ite (steps_pure _) (steps_failExpected _)

/-- The only fault in a list of entries is that some of them have names and others have none. -/
private theorem fault_of_nameParams {start : Location} {pending : List Ident}
    {entries : List ParamEntry}
    {e : SyntaxError} (h : nameParams start pending entries = .error e) :
    e.fault = .mixedParameters := by
  fun_induction nameParams start pending entries with
  | case1 => cases h
  | case2 =>
    cases h
    rfl
  | case3 pending id rest ih => exact ih h
  | case4 pending id type rest e' hrest ih =>
    cases h
    exact ih hrest
  | case5 => cases h
  | case6 =>
    cases h
    rfl

/-- Grouping parameters fails, if at all, for a reason of its own. -/
theorem fault_of_groupParams {start : Location} {entries : List ParamEntry} {e : SyntaxError}
    (h : groupParams start entries = .error e) : e.fault = .mixedParameters := by
  rw [groupParams] at h
  split at h
  · exact fault_of_nameParams h
  · cases h

theorem steps_params (h : elem.Advances) : (params elem).Steps := by
  refine steps_bind steps_tok fun start => steps_bind (steps_op _) fun _ => ?_
  refine steps_bind (steps_many (isRound_nextParam h)) fun entries => ?_
  cases hgroup : groupParams start.location entries with
  | error e =>
    refine fun c => ⟨[c], .fail (fun _ => e) c ?_⟩
    rw [fault_of_groupParams hgroup]
    nofun
  | ok ps => exact steps_pure ps

theorem steps_signature (h : elem.Advances) (l : Location) : (signature elem l).Steps := by
  refine steps_bind (steps_params h) fun ps => steps_bind steps_tok fun t => steps_ite ?_ ?_
  · exact steps_bind (steps_params h) fun _ => steps_pure _
  · exact steps_ite (steps_bind h.steps fun _ => steps_pure _) (steps_pure _)

/-! ### Structs -/

theorem advances_fieldNames (h : elem.Advances) : (fieldNames elem).Advances := by
  refine progress_tok fun t => progress_bind (steps_look _) fun embedded => ?_
  refine progress_ite (fun _ => ?_) fun _ => progress_ite (fun _ => ?_) fun _ => ?_
  · exact progress_bind_left h.progress fun _ => steps_pure _
  · refine progress_bind_left advances_ident fun _ => ?_
    refine steps_bind (steps_many isRound_nextName) fun _ => ?_
    exact steps_bind h.steps fun _ => steps_pure _
  · exact progress_failExpected _

/-- A struct type goes on only with another field. -/
theorem isRound_nextField (h : elem.Advances) : (nextField elem).IsRound := by
  refine progress_bind steps_skipSemicolons fun _ => progress_tok fun t => ?_
  refine progress_ite (fun _ => ?_) fun _ => ?_
  · exact progress_bind steps_advance fun _ => progress_pure (by simp)
  refine progress_ite (fun _ => progress_failExpected _) fun _ => ?_
  refine progress_bind_left (advances_fieldNames h).progress fun _ => ?_
  exact steps_bind steps_fieldTag fun _ => steps_bind steps_endOfItem fun _ => steps_pure _

theorem steps_structBody (h : elem.Advances) : (structBody elem).Steps :=
  steps_bind (steps_op _) fun _ => steps_many (isRound_nextField h)

/-! ### All types -/

private theorem steps_chanType (h : elem.Steps) (l : Location) : (chanType elem l).Steps := by
  unfold chanType
  refine steps_bind steps_tok fun t => steps_ite ?_ (steps_bind h fun _ => steps_pure _)
  exact steps_bind steps_advance fun _ => steps_bind h fun _ => steps_pure _

variable {P : TypeExpr → Prop} {hc : Cursor → Prop} {t : Token}

private theorem progress_operatorType (h : elem.Steps) (ht : t.kind ≠ .eof) :
    Progress P (fun c => hc c ∧ c.tok = t) (operatorType elem t) := by
  have hadvance : Progress (fun _ => True) (fun c => hc c ∧ c.tok = t) advance :=
    progress_advance_seen ht
  unfold operatorType
  split
  · exact progress_bind_left hadvance fun _ => steps_bind h fun _ => steps_pure _
  · refine progress_bind_left hadvance fun _ => steps_bind steps_tok fun next => steps_ite ?_ ?_
    · exact steps_bind steps_advance fun _ => steps_bind h fun _ => steps_pure _
    · exact steps_bind steps_arrayLen fun _ => steps_bind h fun _ => steps_pure _
  · refine progress_bind_left hadvance fun _ => steps_bind steps_tok fun next => ?_
    refine steps_ite ?_ (steps_failExpected _)
    exact steps_bind steps_advance fun _ => steps_bind h fun _ => steps_pure _
  · refine progress_bind_left hadvance fun _ => steps_bind h fun _ => ?_
    exact steps_bind (steps_op _) fun _ => steps_pure _
  · exact progress_bind_left hadvance fun _ => steps_bind h fun _ => steps_pure _
  · exact progress_failExpected _

/-- A type that starts with a keyword reads it. -/
private theorem progress_keywordType (h : elem.Steps) (hinner : inner.Advances)
    (ht : t.kind ≠ .eof) : Progress P (fun c => hc c ∧ c.tok = t) (keywordType elem inner t) := by
  have hadvance : Progress (fun _ => True) (fun c => hc c ∧ c.tok = t) advance :=
    progress_advance_seen ht
  unfold keywordType
  split
  · refine progress_bind_left hadvance fun _ => steps_bind (steps_op _) fun _ => ?_
    refine steps_bind h fun _ => steps_bind (steps_op _) fun _ => ?_
    exact steps_bind h fun _ => steps_pure _
  · exact progress_bind_left hadvance fun _ => steps_chanType h _
  · refine progress_bind_left hadvance fun _ => ?_
    exact steps_bind (steps_signature hinner _) fun _ => steps_pure _
  · refine progress_bind_left hadvance fun _ => ?_
    exact steps_bind (steps_structBody hinner) fun _ => steps_pure _
  · refine progress_bind_left hadvance fun _ => ?_
    exact steps_bind steps_interfaceBody fun _ => steps_pure _
  · exact progress_failExpected _

/-- No type expression is empty. -/
theorem advances_typeExprWith (h : elem.Steps) (hinner : inner.Advances) :
    (typeExprWith elem inner).Advances := by
  refine progress_tok fun t => ?_
  split
  · exact (advances_typeName h).progress
  · next hkind => exact progress_keywordType h hinner (by simp [hkind])
  · next hkind => exact progress_operatorType h (by simp [hkind])
  · exact progress_failExpected _

end Types

/-- Types are read step by step and are never empty, however deeply their parts nest. -/
theorem advances_typeExpr (n : Nat) : (typeExpr n).Advances := by
  fun_induction typeExpr n with
  | case1 => exact progress_fail nofun
  | case2 =>
    exact advances_typeExprWith (steps_fail nofun) (progress_fail nofun)
  | case3 n ih₁ ih₂ => exact advances_typeExprWith ih₁.steps ih₂

end Parser

end GoPages

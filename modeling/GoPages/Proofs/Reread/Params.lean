import GoPages.Proofs.Reread.Types

/-!
# Parameters and results are read back from their tokens

What stands between two commas of a parameter list is read back as it was written
(`Parser.takes_paramEntry`), since the tokens after a name tell whether it is the name of a
parameter or a type. Parameters that all have names, or all have none, are then grouped as they were
(`Parser.takes_params`), and with them function types are read back (`Parser.rereads_func`).
-/

namespace GoPages

/-- The parameter that the entry is alone. -/
def ParamEntry.param : ParamEntry → Param
  | .lone id => ⟨none, .ident id⟩
  | .named id type => ⟨some id, type⟩
  | .unnamed type => ⟨none, type⟩

namespace Parser

variable {elem inner : Parser TypeExpr} {ss rest : List Spelling}

/-! ### Entries -/

/-- Can the token follow a parameter? -/
def endsParam (x : Spelling) : Bool := x == (.op, ",") || x == (.op, ")")

/-- What ends a parameter ends a type. -/
private theorem endsType_of_endsParam {x : Spelling} (h : endsParam x = true) :
    x.endsType = true := by
  rw [endsParam, Bool.or_eq_true, beq_iff_eq, beq_iff_eq] at h
  rcases h with rfl | rfl <;> rfl

private theorem isOp_or_of_endsParam {t : Token} {x : Spelling} (ht : t.spelling = x) :
    (t.isOp "," || t.isOp ")") = endsParam x := by
  rw [Token.isOp_of_spelling ht, Token.isOp_of_spelling ht, endsParam]

/-- The brackets after a name hold type arguments if they hold something and the parameter ends
after them. -/
theorem startsGeneric_eq {c : Cursor} {x : Spelling} {inner : List Spelling} (h : Balanced inner)
    (hc : c.spellings = x :: (.op, "[") :: (inner ++ (.op, "]") :: ss)) :
    startsGeneric c = (endsParam (firstSpelling ss) &&
      !(firstSpelling (inner ++ (.op, "]") :: ss) == (.op, "]"))) := by
  obtain ⟨t, hafter, ht⟩ := exists_afterBracket? h hc
  have hpeek := c.spelling_peek 2
  rw [hc, List.drop_succ_cons, List.drop_succ_cons, List.drop_zero] at hpeek
  rw [startsGeneric, hafter]
  dsimp only
  rw [isOp_or_of_endsParam ht, Token.isOp_of_spelling hpeek]

/-- A name in front of a comma is read as a name. -/
private theorem takes_paramEntry_lone (id : Ident) (hss : endsParam (firstSpelling ss) = true) :
    Takes (id.spelling ++ ss) ss
      (fun entry => entry.param.unplaced = ParamOf.unplaced ⟨none, .ident id⟩)
      (paramEntry elem) := by
  refine takes_tok fun t ht => takes_peek fun next hnext => ?_
  refine takes_look_any fun generic => ?_
  have hkind : t.kind = .ident := Token.kind_of_spelling ht
  refine takes_ite_neg (by simp [hkind]) (takes_ite_pos ?_ ?_)
  · rw [isOp_or_of_endsParam hnext]
    exact hss
  · refine takes_bind (takes_ident id.name ss) fun id' hid' => takes_pure ?_
    rw [ParamEntry.param, ParamOf.unplaced, ParamOf.unplaced, TypeExpr.unplaced,
      unplaced_ident_eq hid', TypeExpr.unplaced]

private theorem endsParam_of_startsType {x : Spelling} (hx : x.startsType = true) :
    endsParam x = false := by
  rw [endsParam, Bool.or_eq_false_iff]
  exact ⟨beq_false_of_ne (Spelling.ne_op hx rfl), beq_false_of_ne (Spelling.ne_op hx rfl)⟩

/-- A type in front of a comma is read as a type, unless it is only a name. -/
private theorem takes_paramEntry_unnamed {e : TypeExpr} {n : Nat} (hlegible : e.Legible n)
    (hlone : ParamOf.isLone ⟨none, e⟩ = false) (h : Rereads elem e)
    (hss : endsParam (firstSpelling ss) = true) :
    Takes (e.spelling ++ ss) ss (fun entry => entry.param.unplaced = ParamOf.unplaced ⟨none, e⟩)
      (paramEntry elem) := by
  obtain ⟨x, more, hspelling, hx, -⟩ := hlegible.exists_spelling_eq_cons
  have hread : Takes (e.spelling ++ ss) ss
      (fun entry : ParamEntry => entry.param.unplaced = ParamOf.unplaced ⟨none, e⟩)
      (elem >>= fun type => pure (ParamEntry.unnamed type)) := by
    refine takes_bind (h ss (endsType_of_endsParam hss)) fun e' he' => takes_pure ?_
    rw [ParamEntry.param, ParamOf.unplaced, he', ParamOf.unplaced]
  refine takes_tok fun t ht => takes_peek fun next hnext => ?_
  rw [hspelling] at ht hnext
  have ht : t.spelling = x := ht
  have hnext : next.spelling = firstSpelling (more ++ ss) := hnext
  by_cases hident : x.1 = .ident
  · have hkind : ¬ (t.kind != .ident) = true := by simp [Token.kind_of_spelling ht, hident]
    rcases hlegible.of_spelling_eq_ident hspelling hident with
      ⟨id, rfl⟩ | ⟨more, rfl⟩ | ⟨y, more, hy, hbalanced, rfl⟩
    · cases hlone
    · -- the name is that of a package
      refine takes_look_any fun generic => ?_
      refine takes_ite_neg hkind (takes_ite_neg ?_ (takes_ite_pos ?_ hread))
      · rw [isOp_or_of_endsParam hnext]
        exact Bool.false_ne_true
      · rw [Token.isOp_of_spelling hnext]
        rfl
    · -- the name has type arguments, and the parameter ends after them
      refine takes_look_eq (a := true) (fun c hc => ?_) ?_
      · have hne : (firstSpelling (y :: more ++ (.op, "]") :: ss) == (.op, "]")) = false :=
          beq_false_of_ne (Spelling.ne_op hy rfl)
        rw [hspelling] at hc
        rw [startsGeneric_eq hbalanced (by simpa using hc), hss, hne]
        rfl
      refine takes_ite_neg hkind (takes_ite_neg ?_ (takes_ite_pos ?_ hread))
      · rw [isOp_or_of_endsParam hnext]
        exact Bool.false_ne_true
      · rw [Token.isOp_of_spelling hnext, Token.isOp_of_spelling hnext]
        rfl
  · refine takes_look_any fun generic => ?_
    exact takes_ite_pos (by simp [Token.kind_of_spelling ht, hident]) hread

/-- A name in front of a type is read as that of a parameter. -/
private theorem takes_paramEntry_named (id : Ident) {e : TypeExpr} {n : Nat}
    (hlegible : e.Legible n) (h : Rereads elem e) (hss : endsParam (firstSpelling ss) = true) :
    Takes (id.spelling ++ (e.spelling ++ ss)) ss
      (fun entry => entry.param.unplaced = ParamOf.unplaced ⟨some id, e⟩) (paramEntry elem) := by
  obtain ⟨x, more, hspelling, hx, -⟩ := hlegible.exists_spelling_eq_cons
  refine takes_tok fun t ht => takes_peek fun next hnext => ?_
  have hkind : t.kind = .ident := Token.kind_of_spelling ht
  have hnext : next.spelling = x := by
    rw [hnext, hspelling]
    rfl
  have hread : Takes (id.spelling ++ (e.spelling ++ ss)) ss
      (fun entry : ParamEntry => entry.param.unplaced = ParamOf.unplaced ⟨some id, e⟩)
      (ident >>= fun id => elem >>= fun type => pure (ParamEntry.named id type)) := by
    refine takes_bind (takes_ident id.name _) fun id' hid' => ?_
    refine takes_bind (h ss (endsType_of_endsParam hss)) fun e' he' => takes_pure ?_
    rw [ParamEntry.param, ParamOf.unplaced, he', ParamOf.unplaced, Option.map_some, Option.map_some,
      unplaced_ident_eq hid']
  have hends : ¬ (next.isOp "," || next.isOp ")") = true := by
    rw [isOp_or_of_endsParam hnext, endsParam_of_startsType hx]
    exact Bool.false_ne_true
  have hpoint : ¬ next.isOp "." = true := Token.not_isOp hnext hx rfl
  by_cases hbracket : x = (.op, "[")
  · -- the brackets belong to an array or slice type, and what follows them is a type
    rw [hbracket] at hspelling
    obtain ⟨inner, y, more, hbalanced, hy, rfl⟩ := hlegible.of_spelling_eq_bracket hspelling
    refine takes_look_eq (a := false) (fun c hc => ?_) ?_
    · rw [hspelling] at hc
      have hfirst : firstSpelling (y :: (more ++ ss)) = y := rfl
      rw [startsGeneric_eq hbalanced (by simpa [Ident.spelling] using hc), hfirst,
        endsParam_of_startsType hy, Bool.false_and]
    refine takes_ite_neg (by simp [hkind]) (takes_ite_neg hends (takes_ite_neg ?_ hread))
    simp [hpoint]
  · refine takes_look_any fun generic => ?_
    have hnoBracket : ¬ next.isOp "[" = true := mt (Token.isOp_iff_of_spelling hnext _).mp hbracket
    refine takes_ite_neg (by simp [hkind]) (takes_ite_neg hends (takes_ite_neg ?_ hread))
    simp [hpoint, hnoBracket]

/-- An entry of a parameter list is read back. -/
theorem takes_paramEntry {p : Param} {n : Nat} (hlegible : p.isLone = false → p.type.Legible n)
    (h : p.isLone = false → Rereads elem p.type) (hss : endsParam (firstSpelling ss) = true) :
    Takes (p.spelling ++ ss) ss (fun entry => entry.param.unplaced = p.unplaced)
      (paramEntry elem) := by
  obtain ⟨_ | id, type⟩ := p
  · cases hlone : ParamOf.isLone ⟨none, type⟩ with
    | true =>
      cases type with
      | ident id => exact takes_paramEntry_lone id hss
      | _ => cases hlone
    | false => exact takes_paramEntry_unnamed (hlegible hlone) hlone (h hlone) hss
  · rw [ParamOf.spelling, paramSpelling, List.append_assoc]
    exact takes_paramEntry_named id (hlegible rfl) (h rfl) hss

/-! ### Lists -/

/-- The parameter can be read back. -/
structure ReadsParam (elem : Parser TypeExpr) (p : Param) : Prop where
  first : ∃ x more, p.spelling = x :: more ∧ Spelling.startsType x = true
  entry : ∀ ss, endsParam (firstSpelling ss) = true →
    Takes (p.spelling ++ ss) ss (fun entry => entry.param.unplaced = p.unplaced) (paramEntry elem)

/-- A parameter is read back in its form. -/
theorem readsParam {p : Param} {n : Nat} (hlegible : p.isLone = false → p.type.Legible n)
    (h : p.isLone = false → Rereads elem p.type) : ReadsParam elem p := by
  refine ⟨?_, fun ss hss => takes_paramEntry hlegible h hss⟩
  obtain ⟨_ | id, type⟩ := p
  · cases hlone : ParamOf.isLone ⟨none, type⟩ with
    | true =>
      cases type with
      | ident id => exact ⟨_, _, rfl, rfl⟩
      | _ => cases hlone
    | false =>
      obtain ⟨x, more, hspelling, hx, -⟩ := (hlegible hlone).exists_spelling_eq_cons
      exact ⟨x, more, hspelling, hx⟩
  · exact ⟨_, _, rfl, rfl⟩

/-- An entry is read with the comma after it. -/
theorem takes_nextParam {p : Param} (h : ReadsParam elem p) {mid : List Spelling}
    (hss : ss = (.op, ",") :: mid ∨ (firstSpelling ss = (.op, ")") ∧ mid = ss)) :
    Takes (p.spelling ++ ss) mid
      (fun r => ∃ entry, r = some entry ∧ entry.param.unplaced = p.unplaced) (nextParam elem) := by
  obtain ⟨x, more, hspelling, hx⟩ := h.first
  have hfirst : firstSpelling (p.spelling ++ ss) = x := by rw [hspelling]; rfl
  have hend : firstSpelling ss = (.op, ",") ∨ firstSpelling ss = (.op, ")") := by
    rcases hss with rfl | ⟨hss, -⟩
    · exact .inl rfl
    · exact .inr hss
  have hkind : (firstSpelling ss).1 ≠ .semicolon := by
    rcases hend with hend | hend <;> rw [hend] <;> exact nofun
  have hends : endsParam (firstSpelling ss) = true := by
    rcases hend with hend | hend <;> rw [hend] <;> rfl
  refine takes_bind (takes_skipSemicolons ?_) fun _ _ => takes_tok fun t ht => ?_
  · rw [hfirst]
    exact x.kind_ne_of_startsType hx (by decide)
  rw [hfirst] at ht
  refine takes_ite_neg (Token.not_isOp ht hx rfl) ?_
  refine takes_bind (h.entry ss hends) fun entry hentry => ?_
  refine takes_bind (takes_skipSemicolons hkind) fun _ _ => takes_tok fun t ht => ?_
  -- a comma is read with the entry, and the closing bracket is left to the list
  rcases hss with rfl | ⟨hss, rfl⟩
  · exact takes_ite_pos (Token.isOp_self ht) (takes_advance_bind (takes_pure ⟨entry, rfl, hentry⟩))
  · rw [hss] at ht
    refine takes_ite_neg (mt (Token.isOp_iff_of_spelling ht _).mp (by simp)) ?_
    exact takes_ite_pos (Token.isOp_self ht) (takes_pure ⟨entry, rfl, hentry⟩)

private theorem takes_nextParam_none (rest : List Spelling) :
    Takes ((.op, ")") :: rest) rest (· = none) (nextParam elem) := by
  refine takes_bind (takes_skipSemicolons nofun) fun _ _ => takes_tok fun t ht => ?_
  exact takes_ite_pos (Token.isOp_self ht) (takes_advance_bind (takes_pure rfl))

/-! ### Grouping -/

private theorem isNamed_eq (entry : ParamEntry) : entry.isNamed = entry.param.name.isSome := by
  cases entry <;> rfl

/-- Entries that all have names give their parameters one by one. -/
private theorem nameParams_of_isNamed (start : Location) {entries : List ParamEntry}
    (h : ∀ entry ∈ entries, entry.isNamed = true) :
    nameParams start [] entries = .ok (entries.map ParamEntry.param) := by
  induction entries with
  | nil => rfl
  | cons entry entries ih =>
    obtain ⟨hentry, hentries⟩ := List.forall_mem_cons.mp h
    cases entry with
    | named id type =>
      rw [nameParams, ih hentries]
      rfl
    | _ => cases hentry

private theorem asType_eq_param {entry : ParamEntry} (h : entry.isNamed = false) :
    entry.asType = entry.param := by
  cases entry with
  | named => cases h
  | _ => rfl

/-- Entries that all have names, or all have none, stand for themselves. -/
theorem groupParams_of_alikeNamed (start : Location) {entries : List ParamEntry} {ps : List Param}
    (hps : AlikeNamed ps)
    (h : entries.map (fun entry => entry.param.unplaced) = ps.map ParamOf.unplaced) :
    groupParams start entries = .ok (entries.map ParamEntry.param) := by
  -- an entry has a name exactly if the parameter it is read from has one
  have hmem : ∀ entry ∈ entries, ∃ p ∈ ps, entry.isNamed = p.name.isSome := by
    intro entry hentry
    have hmem := List.mem_map_of_mem (f := fun entry : ParamEntry => entry.param.unplaced) hentry
    rw [h] at hmem
    obtain ⟨p, hp, heq⟩ := List.mem_map.mp hmem
    have hname := congrArg (fun p => p.name.isSome) heq
    exact ⟨p, hp, by simpa [ParamOf.unplaced, isNamed_eq] using hname.symm⟩
  rcases hps with hnone | hsome
  · have hunnamed : ∀ entry ∈ entries, entry.isNamed = false := by
      intro entry hentry
      obtain ⟨p, hp, heq⟩ := hmem entry hentry
      rw [heq, hnone p hp, Option.isSome_none]
    have hany : entries.any ParamEntry.isNamed = false :=
      List.any_eq_false.mpr (by simpa using hunnamed)
    rw [groupParams, hany, if_neg Bool.false_ne_true]
    exact congrArg Except.ok
      (List.map_congr_left fun entry hentry => asType_eq_param (hunnamed entry hentry))
  · have hnamed : ∀ entry ∈ entries, entry.isNamed = true := by
      intro entry hentry
      obtain ⟨p, hp, heq⟩ := hmem entry hentry
      obtain ⟨id, hid, -⟩ := hsome p hp
      rw [heq, hid, Option.isSome_some]
    cases entries with
    | nil => rfl
    | cons entry entries =>
      have hany : (entry :: entries).any ParamEntry.isNamed = true := by
        rw [List.any_cons, hnamed entry List.mem_cons_self, Bool.true_or]
      rw [groupParams, hany, if_pos rfl, nameParams_of_isNamed start hnamed]

/-- What stands between commas is read back in order. -/
private theorem takes_paramEntries {ps : List Param} (h : ∀ p ∈ ps, ReadsParam elem p)
    (rest : List Spelling) :
    Takes (commaSpelling.intercalate (ps.map ParamOf.spelling) ++ (.op, ")") :: rest) rest
      (fun entries => entries.map (fun entry => entry.param.unplaced) = ps.map ParamOf.unplaced)
      (many (nextParam elem)) := by
  refine takes_many_intercalate (fun p hp => ?_) (fun p hp ss => ?_) (fun p hp => ?_) ?_
  · obtain ⟨x, more, hspelling, -⟩ := (h p hp).first
    rw [hspelling]
    exact List.cons_ne_nil x more
  · exact takes_nextParam (h p hp) (.inl rfl)
  · exact takes_nextParam (h p hp) (.inr ⟨rfl, rfl⟩)
  · exact takes_nextParam_none rest

/-- A parameter list is read back. -/
theorem takes_params {ps : List Param} (hps : AlikeNamed ps) (h : ∀ p ∈ ps, ReadsParam elem p)
    (rest : List Spelling) :
    Takes (parenSpelling (ps.map ParamOf.spelling) ++ rest) rest
      (fun ps' => ps'.map ParamOf.unplaced = ps.map ParamOf.unplaced) (params elem) := by
  rw [parenSpelling, List.cons_append, List.append_assoc]
  refine takes_tok fun t ht => takes_bind (takes_op _ _) fun _ _ => ?_
  refine takes_bind (takes_paramEntries h rest) fun entries hentries c hc => ?_
  refine ⟨entries.map ParamEntry.param, c, ?_, hc, ?_⟩
  · rw [groupParams_of_alikeNamed t.location hps hentries]
  · rw [List.map_map]
    exact hentries

/-! ### Function types -/

private theorem startsType_of_startsType {t : Token} {x : Spelling} (ht : t.spelling = x)
    (hx : x.startsType = true) (hvariadic : x ≠ (.op, "...")) : startsType t = true := by
  rw [startsType, Token.kind_of_spelling ht, Token.text_of_spelling ht]
  simp only [Spelling.startsType, Bool.or_eq_true, beq_iff_eq, List.contains_eq_mem,
    decide_eq_true_eq, List.mem_cons, List.not_mem_nil, or_false] at hx
  rcases hx with hx | rfl | rfl | rfl | rfl | rfl | rfl | rfl | rfl | rfl
  · rw [hx]
  all_goals first | decide | exact absurd rfl hvariadic

private theorem startsType_of_endsType {t : Token} {x : Spelling} (ht : t.spelling = x)
    (hx : x.endsType = true) : startsType t = false := by
  rw [startsType, Token.kind_of_spelling ht, Token.text_of_spelling ht]
  simp only [Spelling.endsType, Bool.or_eq_true, beq_iff_eq, List.contains_eq_mem,
    decide_eq_true_eq, List.mem_cons, List.not_mem_nil, or_false] at hx
  rcases hx with ((hx | hx) | hx) | rfl | rfl | rfl | rfl
  · rw [hx]
  · rw [hx]
  · rw [hx]
  all_goals decide

/-- A single result without a name is written without parentheses. -/
private theorem exists_of_soleUnnamed {results : List Param} (h : soleUnnamed results = true) :
    ∃ e, results = [⟨none, e⟩] := by
  match results, h with
  | [⟨none, e⟩], _ => exact ⟨e, rfl⟩

/-- Results are read after the parameters. -/
theorem takes_signature {type : FuncType} (l : Location) (hparams : AlikeNamed type.params)
    (hresults : AlikeNamed type.results) (hparam : ∀ p ∈ type.params, ReadsParam elem p)
    (hresult : ∀ p ∈ type.results, ReadsParam elem p)
    (hsole : soleUnnamed type.results = true → ∀ p ∈ type.results,
      (∃ n, p.type.Legible n) ∧ Rereads elem p.type ∧ p.type.isVariadic = false)
    (hrest : Spelling.endsType (firstSpelling rest) = true) :
    Takes (signatureSpelling (type.params.map ParamOf.spelling)
      (type.results.map ParamOf.spelling) (soleUnnamed type.results) ++ rest) rest
      (fun type' => type'.unplaced = type.unplaced) (signature elem l) := by
  obtain ⟨ps, results, l'⟩ := type
  rw [signatureSpelling, List.append_assoc]
  refine takes_bind (takes_params hparams hparam _) fun ps' hps' => takes_tok fun t ht => ?_
  have hdone {results' : List Param}
      (h : results'.map ParamOf.unplaced = results.map ParamOf.unplaced) :
      SignatureOf.unplaced ⟨ps', results', l⟩ = SignatureOf.unplaced ⟨ps, results, l'⟩ := by
    rw [SignatureOf.unplaced, hps', h, SignatureOf.unplaced]
  cases hbare : soleUnnamed results with
  | true =>
    -- the text of the only result follows without parentheses, and does not start with one
    obtain ⟨e, rfl⟩ := exists_of_soleUnnamed hbare
    obtain ⟨⟨n, hlegible⟩, hread, hvariadic⟩ := hsole hbare _ List.mem_cons_self
    obtain ⟨x, more, hspelling, hx, -, hpoints⟩ := hlegible.exists_spelling_eq_cons
    simp only [List.map_singleton, List.intercalate_singleton] at ht ⊢
    change t.spelling = firstSpelling (e.spelling ++ rest) at ht
    change Takes (e.spelling ++ rest) _ _ _
    rw [hspelling] at ht
    have ht : t.spelling = x := ht
    have hnotPoints : x ≠ (.op, "...") := fun h => by
      have := hpoints h
      rw [hvariadic] at this
      cases this
    refine takes_ite_neg (Token.not_isOp ht hx rfl) ?_
    refine takes_ite_pos (startsType_of_startsType ht hx hnotPoints) ?_
    refine takes_bind (hread rest hrest) fun e' he' => takes_pure (hdone ?_)
    rw [List.map_singleton, List.map_singleton, ParamOf.unplaced, ParamOf.unplaced, he']
  | false =>
    rw [hbare] at ht
    cases results with
    | nil =>
      refine takes_ite_neg (Token.not_isOp (x := firstSpelling rest) ht hrest rfl) ?_
      refine takes_ite_neg ?_ (takes_pure (hdone rfl))
      rw [startsType_of_endsType (x := firstSpelling rest) ht hrest]
      exact Bool.false_ne_true
    | cons p results =>
      refine takes_ite_pos (Token.isOp_self ht) ?_
      exact takes_bind (takes_params hresults hresult rest) fun results' hresults' =>
        takes_pure (hdone hresults')

/-- A function type is read back from its parameters and its results. -/
theorem rereads_func {type : FuncType} (hparams : AlikeNamed type.params)
    (hresults : AlikeNamed type.results) (hparam : ∀ p ∈ type.params, ReadsParam inner p)
    (hresult : ∀ p ∈ type.results, ReadsParam inner p)
    (hsole : soleUnnamed type.results = true → ∀ p ∈ type.results,
      (∃ n, p.type.Legible n) ∧ Rereads inner p.type ∧ p.type.isVariadic = false) :
    Rereads (typeExprWith elem inner) (.func type) := by
  intro rest hrest
  rw [TypeExpr.spelling, TypeExpr.spellingParams_eq, TypeExpr.spellingParams_eq]
  refine takes_keywordType fun l => takes_advance_bind ?_
  refine takes_bind (takes_signature l hparams hresults hparam hresult hsole hrest) ?_
  intro type' htype'
  exact takes_pure (by rw [TypeExpr.unplaced_func, htype', TypeExpr.unplaced_func])

end Parser

end GoPages

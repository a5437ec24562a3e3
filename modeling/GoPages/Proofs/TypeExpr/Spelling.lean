import GoPages.Proofs.Token.Writes
import GoPages.Proofs.TypeExpr.Legible

/-!
# The tokens of a type expression

`TypeExpr.spelling` are the tokens that the text of a type expression is made of. It follows
`TypeExpr.render` case by case, and for a legible type expression the text is read as these tokens,
whatever follows it (`TypeExpr.Legible.writes`).

Two facts about these tokens decide how they are parsed: with which token a type starts
(`TypeExpr.Legible.exists_spelling_eq_cons`), and that their brackets match
(`TypeExpr.Legible.balanced`).
-/

namespace GoPages

/-! ### Tokens of types -/

/-- The tokens of a name. -/
def Ident.spelling (id : Ident) : List Spelling := [(.ident, id.name)]

/-- The tokens of a parameter, given those of its type. -/
def paramSpelling (name : Option Ident) (type : List Spelling) : List Spelling :=
  match name with
  | some id => id.spelling ++ type
  | none => type

/-- The tokens of a tag. -/
def tagSpelling (tag : Option String) : List Spelling :=
  match tag with
  | some tag => [(.string, Text.quote tag)]
  | none => []

/-- The tokens of a field declaration, given those of its type. -/
def fieldSpelling (names : List Ident) (type : List Spelling) (tag : Option String) :
    List Spelling :=
  (if names.isEmpty then [] else commaSpelling.intercalate (names.map Ident.spelling)) ++ type ++
    tagSpelling tag

/-- The tokens of a list in parentheses. -/
def parenSpelling (items : List (List Spelling)) : List Spelling :=
  (.op, "(") :: (commaSpelling.intercalate items ++ [(.op, ")")])

/-- The tokens of the parameters and results of a function type, given those of each. -/
def signatureSpelling (params results : List (List Spelling)) (soleResultUnnamed : Bool) :
    List Spelling :=
  parenSpelling params ++
    if results.isEmpty then []
    else if soleResultUnnamed then commaSpelling.intercalate results
    else parenSpelling results

/-- The tokens of the word and the arrow of a channel type. -/
def ChanDir.spelling : ChanDir → List Spelling
  | .both => [(.keyword, "chan")]
  | .send => [(.keyword, "chan"), (.op, "<-")]
  | .recv => [(.op, "<-"), (.keyword, "chan")]

namespace TypeExpr

mutual

/-- The tokens of a type expression. -/
def spelling : TypeExpr → List Spelling
  | ident id => id.spelling
  | qualified package id => package.spelling ++ (.op, ".") :: id.spelling
  | generic base args =>
    spelling base ++ (.op, "[") :: (commaSpelling.intercalate (spellingArgs args) ++ [(.op, "]")])
  | pointer _ elem => (.op, "*") :: spelling elem
  | slice _ elem => (.op, "[") :: (.op, "]") :: spelling elem
  | array _ len elem => (.op, "[") :: (lengthSpelling len ++ (.op, "]") :: spelling elem)
  | map _ key value =>
    (.keyword, "map") :: (.op, "[") :: (spelling key ++ (.op, "]") :: spelling value)
  | chan _ dir elem => dir.spelling ++ spelling elem
  | func ⟨params, results, _⟩ =>
    (.keyword, "func") ::
      signatureSpelling (spellingParams params) (spellingParams results) (soleUnnamed results)
  | struct _ fields =>
    (.keyword, "struct") :: (.op, "\x7b") ::
      (semicolonSpelling.intercalate (spellingFields fields) ++ [(.op, "\x7d")])
  | interface _ empty =>
    (.keyword, "interface") :: (.op, "\x7b") ::
      ((if empty then [] else [(.op, "...")]) ++ [(.op, "\x7d")])
  | ellipsis _ elem => (.op, "...") :: spelling elem

/-- The tokens of each type argument. -/
def spellingArgs : List TypeExpr → List (List Spelling)
  | [] => []
  | arg :: args => spelling arg :: spellingArgs args

/-- The tokens of each parameter or result. -/
def spellingParams : List (ParamOf TypeExpr) → List (List Spelling)
  | [] => []
  | ⟨name, type⟩ :: params => paramSpelling name (spelling type) :: spellingParams params

/-- The tokens of each field declaration. -/
def spellingFields : List (FieldOf TypeExpr) → List (List Spelling)
  | [] => []
  | ⟨names, type, tag⟩ :: fields => fieldSpelling names (spelling type) tag :: spellingFields fields

end

end TypeExpr

/-- The tokens of a parameter. -/
def ParamOf.spelling (p : Param) : List Spelling := paramSpelling p.name p.type.spelling

/-- The tokens of a field declaration. -/
def FieldOf.spelling (f : FieldDecl) : List Spelling :=
  fieldSpelling f.names f.type.spelling f.tag

/-- The text of a parameter. -/
def ParamOf.render (p : Param) : String := renderParam p.name p.type.render

/-- The text of a field declaration. -/
def FieldOf.render (f : FieldDecl) : String := renderField f.names f.type.render f.tag

namespace TypeExpr

/-- Type arguments are spelled each by itself. -/
theorem spellingArgs_eq (args : List TypeExpr) : spellingArgs args = args.map spelling := by
  induction args with
  | nil => rfl
  | cons arg args ih => rw [spellingArgs, ih, List.map_cons]

/-- Parameters are spelled each by itself. -/
theorem spellingParams_eq (ps : List Param) : spellingParams ps = ps.map ParamOf.spelling := by
  induction ps with
  | nil => rfl
  | cons p ps ih => rw [spellingParams, ih, List.map_cons, ParamOf.spelling]

/-- Fields are spelled each by itself. -/
theorem spellingFields_eq (fs : List FieldDecl) : spellingFields fs = fs.map FieldOf.spelling := by
  induction fs with
  | nil => rfl
  | cons f fs ih => rw [spellingFields, ih, List.map_cons, FieldOf.spelling]

/-- Type arguments are written each by itself. -/
theorem renderArgs_eq (args : List TypeExpr) : renderArgs args = args.map render := by
  induction args with
  | nil => rfl
  | cons arg args ih => rw [renderArgs, ih, List.map_cons]

/-- Parameters are written each by itself. -/
theorem renderParams_eq (ps : List Param) : renderParams ps = ps.map ParamOf.render := by
  induction ps with
  | nil => rfl
  | cons p ps ih => rw [renderParams, ih, List.map_cons, ParamOf.render]

/-- Fields are written each by itself. -/
theorem renderFields_eq (fs : List FieldDecl) : renderFields fs = fs.map FieldOf.render := by
  induction fs with
  | nil => rfl
  | cons f fs ih => rw [renderFields, ih, List.map_cons, FieldOf.render]

end TypeExpr

/-- The first item, and then every other one with the separator before it. -/
theorem intercalate_cons_eq_flatMap {ι : Type} (sep : Spelling) (f : ι → List Spelling) (x : ι)
    (items : List ι) : [sep].intercalate ((x :: items).map f) =
      f x ++ items.flatMap fun y => sep :: f y := by
  induction items generalizing x with
  | nil => simp
  | cons y items ih =>
    rw [List.map_cons, List.map_cons, List.intercalate_cons_cons, ← List.map_cons, ih,
      List.append_assoc, List.flatMap_cons]
    rfl

/-! ### Brackets -/

/-- Texts with matching brackets have matching brackets when a separator is put between them. -/
private theorem balanced_intercalate {sep : Spelling} (hsep : Spelling.isBracket sep = false)
    {items : List (List Spelling)} (h : ∀ x ∈ items, Balanced x) :
    Balanced ([sep].intercalate items) := by
  induction items with
  | nil => exact .nil
  | cons x items ih =>
    obtain ⟨hx, hitems⟩ := List.forall_mem_cons.mp h
    cases items with
    | nil => rwa [List.intercalate_singleton]
    | cons y items =>
      rw [List.intercalate_cons_cons, List.append_assoc]
      exact hx.append (.plain hsep (ih hitems))

private theorem balanced_parenSpelling {items : List (List Spelling)}
    (h : ∀ x ∈ items, Balanced x) : Balanced (parenSpelling items) :=
  have hpair : ("(", ")") ∈ bracketPairs := by decide
  .group hpair (balanced_intercalate (by decide) h) .nil

/-- A signature has matching brackets if its parameters and results have. -/
private theorem balanced_signatureSpelling {params results : List (List Spelling)}
    (hparams : ∀ x ∈ params, Balanced x) (hresults : ∀ x ∈ results, Balanced x) (sole : Bool) :
    Balanced (signatureSpelling params results sole) := by
  refine (balanced_parenSpelling hparams).append ?_
  split
  · exact .nil
  split
  · exact balanced_intercalate (by decide) hresults
  · exact balanced_parenSpelling hresults

private theorem Ident.balanced_spelling (id : Ident) : Balanced id.spelling := .plain rfl .nil

private theorem FieldOf.balanced_spelling {f : FieldDecl} (h : Balanced f.type.spelling) :
    Balanced f.spelling := by
  obtain ⟨names, type, tag⟩ := f
  refine ((?_ : Balanced _).append h).append ?_
  · dsimp only
    split
    · exact .nil
    · refine balanced_intercalate (by decide) fun x hx => ?_
      obtain ⟨id, -, rfl⟩ := List.mem_map.mp hx
      exact id.balanced_spelling
  · cases tag with
    | none => exact .nil
    | some tag => exact .plain rfl .nil

private theorem balanced_brackets {inner ss : List Spelling} (hinner : Balanced inner)
    (h : Balanced ss) : Balanced ((.op, "[") :: (inner ++ (.op, "]") :: ss)) :=
  have hpair : ("[", "]") ∈ bracketPairs := by decide
  .group hpair hinner h

private theorem balanced_braces {inner : List Spelling} (hinner : Balanced inner) :
    Balanced ((.op, "\x7b") :: (inner ++ [(.op, "\x7d")])) :=
  have hpair : ("\x7b", "\x7d") ∈ bracketPairs := by decide
  .group hpair hinner .nil

namespace TypeExpr

/-- What holds of a name holds of a parameter that is a name alone. -/
theorem type_of_isLone {P : TypeExpr → Prop} {p : Param}
    (hident : ∀ id, p.type = ident id → P (ident id)) (h : p.isLone = false → P p.type) :
    P p.type := by
  obtain ⟨_ | id, type⟩ := p
  · cases type with
    | ident id => exact hident id rfl
    | _ => exact h rfl
  · exact h rfl

private theorem balanced_param {p : Param} (h : p.isLone = false → Balanced p.type.spelling) :
    Balanced p.spelling := by
  have htype : Balanced p.type.spelling :=
    type_of_isLone (P := fun e => Balanced e.spelling) (fun id _ => id.balanced_spelling) h
  obtain ⟨_ | id, type⟩ := p
  · exact htype
  · exact id.balanced_spelling.append htype

/-- The brackets of a legible type expression match. -/
theorem Legible.balanced {n : Nat} {e : TypeExpr} (h : e.Legible n) : Balanced e.spelling := by
  induction h with
  | @ident n id h => exact id.balanced_spelling
  | @qualified n package id hpackage h =>
    exact package.balanced_spelling.append (.plain rfl id.balanced_spelling)
  | generic hname hbase hne hargs ihbase ihargs =>
    rw [spelling, spellingArgs_eq]
    refine ihbase.append (balanced_brackets (balanced_intercalate (by decide) ?_) .nil)
    exact List.forall_mem_map.mpr ihargs
  | pointer l _ ih => exact .plain rfl ih
  | slice l _ ih => exact balanced_brackets .nil ih
  | array l hlen _ ih => exact balanced_brackets hlen.balanced ih
  | map l _ _ ihkey ihvalue => exact .plain rfl (balanced_brackets ihkey ihvalue)
  | @chan n l dir elem _ _ ih =>
    cases dir with
    | both => exact .plain rfl ih
    | send => exact .plain rfl (.plain rfl ih)
    | recv => exact .plain rfl (.plain rfl ih)
  | @func n type hparams hresults hsole hparam hresult ihparam ihresult =>
    rw [spelling, spellingParams_eq, spellingParams_eq]
    refine .plain rfl (balanced_signatureSpelling (List.forall_mem_map.mpr fun p hp => ?_)
      (List.forall_mem_map.mpr fun p hp => ?_) _)
    · exact balanced_param (ihparam p hp)
    · exact balanced_param fun hlone => ihresult p hp (.inr hlone)
  | @struct n l fields hfields htags hfield ih =>
    rw [spelling, spellingFields_eq]
    refine .plain rfl (balanced_braces (balanced_intercalate (by decide) ?_))
    exact List.forall_mem_map.mpr fun f hf => FieldOf.balanced_spelling (ih f hf)
  | interface l empty =>
    refine .plain rfl (balanced_braces ?_)
    cases empty with
    | false => exact .plain rfl .nil
    | true => exact .nil
  | ellipsis l _ ih => exact .plain rfl ih

end TypeExpr

/-! ### First tokens -/

/-- Can a type start with the token? -/
def Spelling.startsType (x : Spelling) : Bool :=
  x.1 == .ident ||
    [(.keyword, "map"), (.keyword, "chan"), (.keyword, "func"), (.keyword, "struct"),
      (.keyword, "interface"), (.op, "*"), (.op, "["), (.op, "<-"), (.op, "...")].contains x

/-- A type starts with an identifier, a keyword or an operator. -/
theorem Spelling.kind_ne_of_startsType {x : Spelling} (hx : x.startsType = true)
    {kind : TokenKind} (hkind : kind ∉ [.ident, .keyword, .op]) : x.1 ≠ kind := by
  rintro rfl
  simp only [startsType, Bool.or_eq_true, beq_iff_eq, List.contains_eq_mem, decide_eq_true_eq,
    List.mem_cons, List.not_mem_nil, or_false] at hx
  rcases hx with hx | rfl | rfl | rfl | rfl | rfl | rfl | rfl | rfl | rfl
  · simp [hx] at hkind
  all_goals simp at hkind

namespace TypeExpr

/-- The first token of a legible type expression. An arrow starts only a channel of received values,
and three points only a variadic type. -/
theorem Legible.exists_spelling_eq_cons {n : Nat} {e : TypeExpr} (h : e.Legible n) :
    ∃ x ss, e.spelling = x :: ss ∧ Spelling.startsType x = true ∧
      (x = (.op, "<-") → e.isRecv = true) ∧ (x = (.op, "...") → e.isVariadic = true) := by
  induction h with
  | @generic n base args hname hbase hne hargs ihbase ihargs =>
    obtain ⟨x, ss, hbase, hx, harrow, hpoints⟩ := ihbase
    rw [spelling, hbase]
    refine ⟨x, _, rfl, hx, fun h => ?_, fun h => ?_⟩
    · have := harrow h
      cases base <;> cases hname <;> cases this
    · have := hpoints h
      cases base <;> cases hname <;> cases this
  | @chan n l dir elem _ _ ih =>
    cases dir with
    | recv => exact ⟨_, _, rfl, rfl, fun _ => rfl, nofun⟩
    | _ => exact ⟨_, _, rfl, rfl, nofun, nofun⟩
  | ellipsis => exact ⟨_, _, rfl, rfl, by simp, fun _ => rfl⟩
  | _ => exact ⟨_, _, rfl, rfl, by simp, by simp⟩

/-- A type that can be embedded starts with a name or a star. -/
theorem Legible.of_canEmbed {n : Nat} {e : TypeExpr} (h : e.Legible n) (hembed : e.canEmbed = true)
    {x : Spelling} {ss : List Spelling} (hspelling : e.spelling = x :: ss) :
    x.1 = .ident ∨ x = (.op, "*") := by
  cases h with
  | pointer => exact .inr (List.cons.inj hspelling).1.symm
  | @generic n base args hname =>
    rw [spelling] at hspelling
    cases base with
    | ident | qualified => exact .inl (by rw [← (List.cons.inj hspelling).1])
    | _ => cases hname
  | ident | qualified => exact .inl (by rw [← (List.cons.inj hspelling).1])
  | _ => cases hembed

/-- A type that starts with a name is the name, or a point or the brackets of type arguments follow
the name. -/
theorem Legible.of_spelling_eq_ident {n : Nat} {e : TypeExpr} (h : e.Legible n) {x : Spelling}
    {ss : List Spelling} (hspelling : e.spelling = x :: ss) (hx : x.1 = .ident) :
    (∃ id, e = TypeExpr.ident id) ∨ (∃ more, ss = (.op, ".") :: more) ∨
      ∃ y more, Spelling.startsType y = true ∧ Balanced (y :: more) ∧
        ss = (.op, "[") :: (y :: more ++ [(.op, "]")]) := by
  cases h with
  | ident => exact .inl ⟨_, rfl⟩
  | qualified =>
    cases hspelling
    exact .inr (.inl ⟨_, rfl⟩)
  | @generic n base args hname hbase hne hargs =>
    rw [spelling, spellingArgs_eq] at hspelling
    cases base with
    | qualified =>
      cases hspelling
      exact .inr (.inl ⟨_, rfl⟩)
    | ident id =>
      -- the brackets hold at least one type argument
      obtain ⟨first, others, rfl⟩ := List.exists_cons_of_ne_nil hne
      have hbalanced : Balanced (commaSpelling.intercalate ((first :: others).map spelling)) :=
        balanced_intercalate (by decide)
          (List.forall_mem_map.mpr fun arg harg => (hargs arg harg).balanced)
      obtain ⟨y, more, hfirst, hy, -⟩ := (hargs first List.mem_cons_self).exists_spelling_eq_cons
      rw [commaSpelling, intercalate_cons_eq_flatMap, hfirst, List.cons_append]
        at hspelling hbalanced
      cases hspelling
      exact .inr (.inr ⟨y, _, hy, hbalanced, rfl⟩)
    | _ => cases hname
  | @chan n l dir elem =>
    cases dir <;> cases hspelling <;> cases hx
  | _ =>
    cases hspelling
    cases hx

/-- A type that starts with a bracket is an array or slice type. -/
theorem Legible.of_spelling_eq_bracket {n : Nat} {e : TypeExpr} (h : e.Legible n)
    {ss : List Spelling} (hspelling : e.spelling = (.op, "[") :: ss) :
    ∃ inner y more, Balanced inner ∧ Spelling.startsType y = true ∧
      ss = inner ++ (.op, "]") :: y :: more := by
  cases h with
  | @slice n l elem helem =>
    cases hspelling
    obtain ⟨y, more, hmore, hy, -⟩ := helem.exists_spelling_eq_cons
    exact ⟨[], y, more, .nil, hy, by rw [hmore]; rfl⟩
  | @array n l len elem hlen helem =>
    cases hspelling
    obtain ⟨y, more, hmore, hy, -⟩ := helem.exists_spelling_eq_cons
    exact ⟨lengthSpelling len, y, more, hlen.balanced, hy, by rw [hmore]⟩
  | @generic n base args hname =>
    rw [spelling] at hspelling
    cases base <;> cases hname <;> cases hspelling
  | @chan n l dir elem => cases dir <;> simp [spelling, ChanDir.spelling] at hspelling
  | _ => simp [spelling, Ident.spelling] at hspelling

/-- The text of a legible type expression does not start with an equals sign. -/
theorem Legible.startsBy_render {n : Nat} {e : TypeExpr} (h : e.Legible n) :
    startsBy (· != '=') e.render = true := by
  have hword {id : Ident} (hid : id.IsWord) : startsBy (· != '=') id.name = true := by
    obtain ⟨c, cs, htext, hstart, -⟩ := Lexeme.isWord_of_isWhole hid
    rw [startsBy, htext, List.head?_cons, Option.any_some, bne_iff_ne]
    exact Lexeme.startsIdent_ne hstart (by decide)
  induction h with
  | ident h => exact hword h
  | qualified hpackage h =>
    rw [render]
    exact startsBy_append (startsBy_append (hword hpackage) _) _
  | generic hname hbase hne hargs ihbase ihargs =>
    rw [render]
    exact startsBy_append (startsBy_append (startsBy_append ihbase _) _) _
  | array =>
    rw [render]
    exact startsBy_append (startsBy_append (startsBy_append (by decide) _) _) _
  | map =>
    rw [render]
    exact startsBy_append (startsBy_append (startsBy_append (by decide) _) _) _
  | @chan n l dir elem _ _ ih => cases dir <;> exact startsBy_append (by decide) _
  | struct =>
    rw [render]
    exact startsBy_append (startsBy_append (by decide) _) _
  | interface l empty =>
    rw [render]
    cases empty <;> decide
  | _ =>
    rw [render]
    exact startsBy_append (by decide) _

end TypeExpr

/-! ### Texts -/

/-- An array length is read before a closing bracket. -/
theorem spells_cutTokens {cs tail : List Char} {ss rest : List Spelling} {d : Char}
    (h : cutTokens cs = some ss) (hd : d ∈ Lexeme.delimiters)
    (htail : ∀ pending, Spells pending (d :: tail) rest) (pending : Bool) :
    Spells pending (cs ++ d :: tail) (ss ++ rest) := by
  fun_induction cutTokens cs generalizing ss pending with
  | case1 =>
    cases h
    exact htail pending
  | case2 c cs kind text more hscan _ ih =>
    obtain ⟨ss, hmore, rfl⟩ := Option.map_eq_some_iff.mp h
    exact .token (Lexeme.scan_append_delimiter hscan hd tail) (ih hmore _)
  | case3 => cases h

/-- A legible length writes its tokens before the closing bracket. -/
theorem IsLength.writes {len b : String} {t : List Spelling} (hlen : IsLength len)
    (hb : Writes b t) : Writes (len ++ ("]" ++ b)) (lengthSpelling len ++ (.op, "]") :: t) := by
  intro pending tail rest hend h
  have hclose (pending : Bool) :=
    Writes.op (show isFinal "]" = true by decide) hb pending tail rest hend h
  have htext : ("]" ++ b).toList ++ tail = ']' :: (b.toList ++ tail) := by
    rw [String.toList_append]
    rfl
  rw [htext] at hclose
  rw [String.toList_append, List.append_assoc, List.append_assoc, htext]
  exact spells_cutTokens hlen.tokens (by decide) hclose pending

private theorem writes_parens {ι : Type} {text : ι → String} {spelling : ι → List Spelling}
    {items : List ι} (h : ∀ x ∈ items, Writes (text x) (spelling x)) :
    Writes ("(" ++ commaList (items.map text) ++ ")") (parenSpelling (items.map spelling)) :=
  writes_brackets (by decide) (by decide) (by decide) (by decide) separates_comma h

/-- A signature writes its tokens if its parameters and results write theirs. -/
private theorem writes_signature {params results : List Param}
    (hparams : ∀ p ∈ params, Writes p.render p.spelling)
    (hresults : ∀ p ∈ results, Writes p.render p.spelling) (sole : Bool) :
    Writes (renderSignature (params.map ParamOf.render) (results.map ParamOf.render) sole)
      (signatureSpelling (params.map ParamOf.spelling) (results.map ParamOf.spelling) sole) := by
  rw [renderSignature, signatureSpelling, List.isEmpty_map, List.isEmpty_map]
  by_cases hnone : results.isEmpty
  · rw [if_pos hnone, if_pos hnone, String.append_empty, List.append_nil]
    exact writes_parens hparams
  rw [if_neg hnone, if_neg hnone]
  cases sole with
  | true =>
    have hne : results ≠ [] := fun h => hnone (List.isEmpty_iff.mpr h)
    refine (writes_parens hparams).append (.blank ?_) (breaksWord_append (by decide) _)
    exact writes_intercalate separates_comma hne hresults
  | false =>
    have hparen : " (" = " " ++ "(" := rfl
    refine (writes_parens hparams).append ?_ (breaksWord_append (breaksWord_append (by decide) _) _)
    rw [hparen, append_group]
    exact (writes_parens hresults).blank

/-- The names in a parameter list are words. -/
theorem AlikeNamed.isWord {ps : List Param} (h : AlikeNamed ps) :
    ∀ p ∈ ps, ∀ id, p.name = some id → id.IsWord := by
  intro p hp id hid
  rcases h with h | h
  · rw [h p hp] at hid
    cases hid
  · obtain ⟨id', hid', hword⟩ := h p hp
    rw [hid, Option.some.injEq] at hid'
    rwa [hid']

/-- Parameters write their tokens if the types among them do. -/
theorem AreWritten.writes {ps : List Param} (h : AreWritten ps)
    (htype : ∀ p ∈ ps, p.isLone = false → Writes p.type.render p.type.spelling) :
    ∀ p ∈ ps, Writes p.render p.spelling := by
  intro p hp
  have htype : Writes p.type.render p.type.spelling := by
    refine TypeExpr.type_of_isLone (P := fun e => Writes e.render e.spelling) (fun id hid => ?_)
      (htype p hp)
    have hwritten := h.2 p hp
    rw [hid] at hwritten
    cases hwritten with
    | ident hword => exact .ident hword
  have hname := h.1.isWord p hp
  obtain ⟨_ | id, type⟩ := p
  · exact htype
  · have hid := Writes.ident (hname id rfl)
    rw [ParamOf.render, renderParam, String.append_assoc]
    exact hid.append htype.blank (breaksWord_append (by decide) _)

/-- A field writes its tokens if its tag is shown as it is and its type writes its own. -/
theorem FieldOf.IsWritten.writes {f : FieldDecl} (h : f.IsWritten)
    (htag : ∀ tag, f.tag = some tag → Text.allShown tag = true)
    (htype : Writes f.type.render f.type.spelling) : Writes f.render f.spelling := by
  obtain ⟨names, type, tag⟩ := f
  -- without names the field is its type alone; otherwise a blank parts them
  have hnamed : Writes
      ((if names.isEmpty then "" else commaList (names.map Ident.name) ++ " ") ++ type.render)
      ((if names.isEmpty then [] else commaSpelling.intercalate (names.map Ident.spelling)) ++
        type.spelling) := by
    by_cases hnone : names.isEmpty
    · rw [if_pos hnone, if_pos hnone, String.empty_append]
      exact htype
    · have hne : names ≠ [] := fun h => hnone (List.isEmpty_iff.mpr h)
      have hnames := writes_intercalate separates_comma hne fun id hid => .ident (h.names id hid)
      rw [if_neg hnone, if_neg hnone, String.append_assoc]
      exact hnames.append htype.blank (breaksWord_append (by decide) _)
  cases tag with
  | none =>
    rw [render, renderField, FieldOf.spelling, fieldSpelling, tagSpelling, String.append_empty,
      List.append_nil]
    exact hnamed
  | some tag =>
    exact hnamed.append (Writes.quote (htag tag rfl)).blank (breaksWord_append (by decide) _)

namespace TypeExpr

/-- The text of a legible type expression is read as its tokens. -/
theorem Legible.writes {n : Nat} {e : TypeExpr} (h : e.Legible n) : Writes e.render e.spelling := by
  -- the words and brackets of `render` are cut into tokens, and the parts write their own
  induction h with
  | ident h => exact .ident h
  | @qualified n package id hpackage h =>
    rw [render, String.append_assoc]
    exact (Writes.ident hpackage).append (.point h) (breaksWord_append (by decide) _)
  | @generic n base args hname hbase hne hargs ihbase ihargs =>
    rw [spelling, spellingArgs_eq, render, renderArgs_eq, append_group]
    refine ihbase.append ?_ (breaksWord_append (breaksWord_append (by decide) _) _)
    exact writes_brackets (by decide) (by decide) (by decide) (by decide) separates_comma ihargs
  | pointer l h ih => exact ih.star h.startsBy_render
  | @slice n l elem _ ih =>
    have hbrackets : "[]" = "[" ++ "]" := rfl
    rw [render, hbrackets, String.append_assoc]
    exact .op (by decide) (.op (by decide) ih)
  | array l hlen _ ih =>
    rw [render, String.append_assoc, String.append_assoc]
    exact .op (by decide) (hlen.writes ih)
  | map l _ _ ihkey ihvalue =>
    have hmap : "map[" = "map" ++ "[" := rfl
    rw [render, hmap, String.append_assoc, String.append_assoc, String.append_assoc]
    refine .keyword (by decide) (.op (by decide) ?_) (breaksWord_append (by decide) _)
    exact ihkey.append (.op (by decide) ihvalue) (breaksWord_append (by decide) _)
  | @chan n l dir elem _ _ ih =>
    cases dir with
    | both =>
      have hchan : "chan " = "chan" ++ " " := rfl
      rw [render, hchan, String.append_assoc]
      exact .keyword (by decide) ih.blank (breaksWord_append (by decide) _)
    | send =>
      have hchan : "chan<- " = "chan" ++ ("<-" ++ " ") := rfl
      rw [render, hchan, String.append_assoc, String.append_assoc]
      exact .keyword (by decide) (.op (by decide) ih.blank) (breaksWord_append (by decide) _)
    | recv =>
      have hchan : "<-chan " = "<-" ++ ("chan" ++ " ") := rfl
      rw [render, hchan, String.append_assoc, String.append_assoc]
      exact .op (by decide) (.keyword (by decide) ih.blank (breaksWord_append (by decide) _))
  | @func n type hparams hresults hsole hparam hresult ihparam ihresult =>
    rw [spelling, spellingParams_eq, spellingParams_eq, render, renderParams_eq, renderParams_eq]
    refine .keyword (by decide) (writes_signature (hparams.writes ihparam) ?_ _) ?_
    · exact hresults.writes fun p hp hlone => ihresult p hp (.inr hlone)
    · exact breaksWord_append (breaksWord_append (breaksWord_append (by decide) _) _) _
  | @struct n l fields hfields htags hfield ih =>
    have hstruct : "struct\x7b" = "struct" ++ "\x7b" := rfl
    rw [spelling, spellingFields_eq, render, renderFields_eq, hstruct, append_group]
    refine .keyword (by decide) ?_ (breaksWord_append (breaksWord_append (by decide) _) _)
    refine writes_brackets (by decide) (by decide) (by decide) (by decide) separates_semicolon ?_
    exact fun f hf => (hfields f hf).writes (htags f hf) (ih f hf)
  | interface l empty =>
    have hclose := Writes.closing (show isFinal "\x7d" = true by decide) (by decide)
    cases empty with
    | true =>
      have htext : (TypeExpr.interface l true).render = "interface" ++ ("\x7b" ++ "\x7d") := rfl
      rw [htext]
      exact .keyword (by decide) (.op (by decide) hclose) (by decide)
    | false =>
      have htext : (TypeExpr.interface l false).render =
          "interface" ++ ("\x7b" ++ ("..." ++ "\x7d")) := rfl
      rw [htext]
      exact .keyword (by decide) (.op (by decide) (.op (by decide) hclose)) (by decide)
  | ellipsis l _ ih => exact .op (by decide) ih

end TypeExpr

end GoPages

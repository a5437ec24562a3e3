import GoPages.Proofs.Reread.Contexts
import GoPages.Proofs.Reread.Declaration

/-!
# Array types in declarations and in fields

After the name of a declared type an opening bracket starts a list of type parameters or the length
of an array; after the name of a field it starts type arguments or the length of an array. The
parser decides by different looks at the tokens. For a field it looks at the token after the
brackets, and for a declaration at the first two tokens inside.

For lengths that are made of operands and operators (`IsArithmetic`) the look is right for every
field, and for a declaration if and only if the length does not start with a name that other tokens
follow (`SourceFile.parse_arrays`). Such a length is taken for type parameters, and the declared
type for the element type of the array (`SourceFile.not_forall_parse_arrays`).

The brackets of the element type are taken to match. The parser also accepts array lengths with
brackets that do not, such as that of `[1)]int`, and so element types that are left out here.
-/

namespace GoPages

/-! ### Array lengths -/

/-- The tokens of an operand: a number, a name, or a name of a package. -/
inductive IsOperand : List Spelling → Prop
  | number (text : String) : IsOperand [(.number, text)]
  | ident (name : String) : IsOperand [(.ident, name)]
  | qualified (package name : String) : IsOperand [(.ident, package), (.op, "."), (.ident, name)]

/-- The binary operators of array lengths, but for the star. -/
def lengthOperators : List String := ["+", "-", "/", "%"]

/-- The tokens of operands with binary operators between them. -/
inductive IsArithmetic : List Spelling → Prop
  | operand {ss : List Spelling} (h : IsOperand ss) : IsArithmetic ss
  | binary {ss rest : List Spelling} {op : String} (h : IsOperand ss) (hop : op ∈ lengthOperators)
    (hrest : IsArithmetic rest) : IsArithmetic (ss ++ (.op, op) :: rest)

/-- Is the token neither a bracket nor a separator? -/
def Spelling.isInner (x : Spelling) : Bool :=
  !x.isBracket && x.1 != .semicolon && x != (.op, ",")

private theorem Spelling.isInner_of_ne_op {x : Spelling} (hop : x.1 ≠ .op)
    (hkind : x.1 ≠ .semicolon) : x.isInner = true := by
  have hne (text : String) : (x == (.op, text)) = false := beq_false_of_ne fun h => hop (by rw [h])
  simp [isInner, isBracket, bracketPairs, hne, hkind, bne]

/-- The length of an array has no brackets or separators. -/
theorem IsArithmetic.isInner {ls : List Spelling} (h : IsArithmetic ls) :
    ∀ x ∈ ls, x.isInner = true := by
  have hoperand {ss : List Spelling} (h : IsOperand ss) : ∀ x ∈ ss, Spelling.isInner x = true := by
    have hident (name : String) : Spelling.isInner (.ident, name) = true :=
      Spelling.isInner_of_ne_op nofun nofun
    cases h with
    | number text => exact List.forall_mem_singleton.mpr (Spelling.isInner_of_ne_op nofun nofun)
    | ident name => exact List.forall_mem_singleton.mpr (hident name)
    | qualified package name =>
      refine List.forall_mem_cons.mpr ⟨hident package, List.forall_mem_cons.mpr ⟨by decide, ?_⟩⟩
      exact List.forall_mem_singleton.mpr (hident name)
  have hoperator : ∀ op ∈ lengthOperators, Spelling.isInner (.op, op) = true := by decide
  induction h with
  | operand h => exact hoperand h
  | binary h hop _ ih =>
    exact List.forall_mem_append.mpr ⟨hoperand h, List.forall_mem_cons.mpr ⟨hoperator _ hop, ih⟩⟩

/-- A length has at least one operand. -/
theorem IsArithmetic.ne_nil {ls : List Spelling} (h : IsArithmetic ls) : ls ≠ [] := by
  cases h with
  | operand h => cases h <;> exact List.cons_ne_nil _ _
  | binary => simp

/-- Tokens without brackets are balanced. -/
private theorem balanced_of_isInner {ls : List Spelling} (h : ∀ x ∈ ls, x.isInner = true) :
    Balanced ls := by
  induction ls with
  | nil => exact .nil
  | cons x ls ih =>
    obtain ⟨hx, hls⟩ := List.forall_mem_cons.mp h
    simp only [Spelling.isInner, Bool.and_eq_true, Bool.not_eq_true'] at hx
    exact .plain hx.1.1 (ih hls)

/-- The names that are read if the length of an array is taken for type parameters, and none if it
is not. -/
def misreadParams : List Spelling → List String
  | (.ident, name) :: _ :: _ => [name]
  | _ => []

/-- Before the first comma only the first token can be the name of a type parameter. -/
private theorem typeParamNames_cons {t : Token} (ht : t.spelling.isInner = true) (fresh : Bool)
    (ts : List Token) : typeParamNames 0 fresh (t :: ts) =
      if fresh ∧ t.kind = .ident then t.text :: typeParamNames 0 false ts
      else typeParamNames 0 false ts := by
  simp only [Spelling.isInner, Bool.and_eq_true, Bool.not_eq_true', bne_iff_ne] at ht
  obtain ⟨⟨hbracket, -⟩, hcomma⟩ := ht
  obtain ⟨⟨hopens, hcloses⟩, -⟩ := Token.isOp_of_isBracket rfl hbracket
  have hnoComma : t.isOp "," = false := by
    rw [Token.isOp_of_spelling rfl]
    exact beq_false_of_ne hcomma
  simp [typeParamNames, hopens, hcloses, hnoComma]

/-- After a token no type parameter starts before the next comma. -/
theorem typeParamNames_eq_nil {ts : List Token} (h : ∀ t ∈ ts, t.spelling.isInner = true) :
    typeParamNames 0 false ts = [] := by
  induction ts with
  | nil => rfl
  | cons t ts ih =>
    obtain ⟨ht, hts⟩ := List.forall_mem_cons.mp h
    rw [typeParamNames_cons ht, ih hts]
    simp

namespace Parser

variable {ls ss rest : List Spelling} {e : TypeExpr} {n m : Nat}

/-! ### Tokens with which a type starts -/

/-- Is the token one with which the parser starts to read a type? -/
def opensType (x : Spelling) : Bool :=
  x.1 == .ident || x.1 == .keyword ||
    [(.op, "*"), (.op, "["), (.op, "<-"), (.op, "("), (.op, "...")].contains x

/-- A type is read from a token that opens one. -/
private theorem opensType_of_typeExpr {c c' : Cursor} (h : typeExpr n c = .ok (e, c')) :
    opensType c.tok.spelling = true := by
  cases n with
  | zero => cases h
  | succ n =>
    rw [typeExpr_succ] at h
    obtain ⟨t, _, ⟨⟩, h⟩ := exists_of_bind h
    generalize c.tok = t at h
    obtain ⟨kind, text, l⟩ := t
    cases kind with
    | ident => rfl
    | keyword => rfl
    | op =>
      dsimp only [operatorType] at h
      split at h
      all_goals first | rfl | cases h
    | _ => cases h

/-- The tokens of a type start with one of these. -/
theorem Accepts.exists_cons (h : Accepts n ss e) :
    ∃ x more, ss = x :: more ∧ opensType x = true := by
  obtain ⟨more, c, c', hc, hok, -⟩ := h
  have hopens := opensType_of_typeExpr hok
  rw [c.spelling_tok, hc] at hopens
  cases ss with
  | nil => cases hopens
  | cons x ss => exact ⟨x, ss, rfl, hopens⟩

/-- Such a token does not end the type of a field, so the brackets before it are those of a length.
-/
private theorem endsFieldType_of_opensType {x : Spelling} (hx : opensType x = true) :
    endsFieldType x = false := by
  have hkind : x.1 ∈ [TokenKind.ident, .keyword, .op] := by
    simp only [opensType, Bool.or_eq_true, beq_iff_eq, List.contains_eq_mem,
      decide_eq_true_eq] at hx
    rcases hx with (hx | hx) | hx
    · simp [hx]
    · simp [hx]
    · revert x
      decide
  have hne {kind : TokenKind} (h : kind ∉ [TokenKind.ident, .keyword, .op]) : x.1 ≠ kind :=
    fun hx => h (hx ▸ hkind)
  rw [endsFieldType, Bool.or_eq_false_iff, Bool.or_eq_false_iff]
  refine ⟨⟨?_, ?_⟩, beq_false_of_ne (Spelling.ne_op hx rfl)⟩
  · exact beq_false_of_ne (hne (by decide))
  · exact beq_false_of_ne (hne (by decide))

end Parser

/-! ### Array types -/

/-- The text of the length of an array, as the parser joins it. -/
def lengthText (ls : List Spelling) : String := String.join (ls.map Prod.snd)

/-- The array type of this length, without places. -/
def TypeExpr.arrayOf (ls : List Spelling) (e : TypeExpr) : TypeExpr :=
  .array .unknown (lengthText ls) e

/-- The struct type with one field, without places. -/
def TypeExpr.structOf (field : String) (e : TypeExpr) : TypeExpr :=
  .struct .unknown [⟨[⟨field, .unknown⟩], e, none⟩]

/-- The name is declared as a type of its own with these type parameters, up to places. -/
structure TypeSpec.Declares (spec : TypeSpec) (name : String) (params : List String)
    (e : TypeExpr) : Prop where
  name : spec.name.name = name
  isAlias : spec.isAlias = false
  typeParams : spec.typeParams = params
  type : spec.type.unplaced = e.unplaced

/-- The tokens of an array type. -/
def arraySpelling (ls ss : List Spelling) : List Spelling :=
  (.op, "[") :: (ls ++ (.op, "]") :: ss)

private theorem arraySpelling_append (ls ss rest : List Spelling) :
    arraySpelling ls ss ++ rest = (.op, "[") :: (ls ++ (.op, "]") :: (ss ++ rest)) := by
  rw [arraySpelling, List.cons_append, List.append_assoc, List.cons_append]

/-- The tokens of a file that declares the name as an array type. -/
def arrayDeclaration (name : String) (ls ss : List Spelling) : List Spelling :=
  (.keyword, "package") :: (.ident, "p") :: lineEnd :: (.keyword, "type") :: (.ident, name) ::
    (arraySpelling ls ss ++ [lineEnd])

/-- The tokens of a file that declares a struct type with a field of an array type. -/
def arrayField (name field : String) (ls ss : List Spelling) : List Spelling :=
  (.keyword, "package") :: (.ident, "p") :: lineEnd :: (.keyword, "type") :: (.ident, name) ::
    (.keyword, "struct") :: (.op, "\x7b") :: (.ident, field) ::
      (arraySpelling ls ss ++ [lineEnd, (.op, "\x7d"), lineEnd])

namespace Parser

variable {ls ss rest : List Spelling} {e : TypeExpr} {n m : Nat}

/-- Before an array type stands no embedded field: after the brackets comes the element type. -/
theorem startsEmbedded_array {c : Cursor} {x y : Spelling} (hlen : IsArithmetic ls)
    (hy : opensType y = true)
    (hc : c.spellings = x :: (.op, "[") :: (ls ++ (.op, "]") :: y :: rest)) :
    startsEmbedded c = false := by
  rw [startsEmbedded_bracket (balanced_of_isInner hlen.isInner) hc]
  have hfirst : firstSpelling (y :: rest) = y := rfl
  rw [hfirst, endsFieldType_of_opensType hy, Bool.false_and]

/-- A declaration seems to have type parameters where the length starts with a name and goes on. -/
theorem startsTypeParams_array {c : Cursor} (hlen : IsArithmetic ls)
    (hc : c.spellings = (.op, "[") :: (ls ++ (.op, "]") :: rest)) :
    startsTypeParams c = !(misreadParams ls).isEmpty := by
  obtain ⟨⟨kind, text⟩, ls', rfl⟩ := List.exists_cons_of_ne_nil hlen.ne_nil
  have htok := c.spelling_tok
  have hfirst := c.spelling_peek 1
  have hsecond := c.spelling_peek 2
  rw [hc] at htok hfirst hsecond
  have hbracket : c.tok.isOp "[" = true := Token.isOp_self htok
  have hkind : (c.peek 1).kind = kind := Token.kind_of_spelling hfirst
  rw [startsTypeParams, hbracket, hkind, Token.isOp_of_spelling hsecond, Bool.true_and]
  cases ls' with
  | nil => cases kind <;> rfl
  | cons y ls' =>
    have hy := hlen.isInner y (List.mem_cons_of_mem _ List.mem_cons_self)
    have hne : (firstSpelling (List.drop 2 ((.op, "[") :: ((kind, text) :: y :: ls' ++
        (.op, "]") :: rest))) == (.op, "]")) = false := beq_false_of_ne (Spelling.ne_op hy rfl)
    rw [hne]
    cases kind <;> rfl

/-- The brackets of a length are read as those of type parameters. -/
theorem takes_typeParams (hlen : IsArithmetic ls) (rest : List Spelling) :
    Takes ((.op, "[") :: (ls ++ (.op, "]") :: rest)) rest
      (fun names => misreadParams ls ≠ [] → names = misreadParams ls) typeParams := by
  have hpair : ("[", "]") ∈ bracketPairs := by decide
  have hinner := hlen.isInner
  obtain ⟨⟨kind, text⟩, ls', rfl⟩ := List.exists_cons_of_ne_nil hlen.ne_nil
  intro c hc
  obtain ⟨t, ts, hleft, -, hts⟩ := List.map_eq_cons_iff.mp hc
  obtain ⟨read, more, rfl, hread, hmore⟩ := List.map_eq_append_iff.mp hts
  obtain ⟨close, more, rfl, hclose, hmore⟩ := List.map_eq_cons_iff.mp hmore
  rw [← hread] at hinner
  have hbalanced := balanced_of_isInner hinner
  obtain ⟨u, read, rfl, hu, -⟩ := List.map_eq_cons_iff.mp hread
  rw [List.forall_mem_map] at hinner
  obtain ⟨hfirst, hothers⟩ := List.forall_mem_cons.mp hinner
  refine ⟨typeParamNames 0 true (u :: read), c.after [close] more, ?_, hmore, fun hmisread => ?_⟩
  · rw [typeParams, hleft, List.drop_one, List.tail_cons,
      closing?_of_balanced hbalanced hpair hclose]
  · have hkind : u.kind = kind := Token.kind_of_spelling hu
    have htext : u.text = text := Token.text_of_spelling hu
    rw [typeParamNames_cons hfirst, typeParamNames_eq_nil hothers, hkind, htext]
    -- only a name with other tokens after it is taken for a type parameter
    cases ls' with
    | nil => cases kind <;> exact absurd rfl hmisread
    | cons y ls' => cases kind <;> rfl

/-- An array type is read with its length and its element type. -/
theorem takes_array (hlen : IsArithmetic ls) (h : Accepts n ss e) (hss : Balanced ss) (hnm : n ≤ m)
    (more : List Spelling) :
    Takes ((.op, "[") :: (ls ++ (.op, "]") :: (ss ++ lineEnd :: more))) (lineEnd :: more)
      (fun e' => e'.unplaced = (TypeExpr.arrayOf ls e).unplaced) (typeExpr (m + 1)) := by
  have hkind : ∀ x ∈ ls, x.1 ≠ .semicolon := fun x hx => by
    have hx := hlen.isInner x hx
    simp only [Spelling.isInner, Bool.and_eq_true, bne_iff_ne] at hx
    exact hx.1.2
  rw [typeExpr_succ]
  exact takes_arrayType .unknown (balanced_of_isInner hlen.isInner) hlen.ne_nil hkind
    (h.takes hss hnm more)

/-- A declaration of an array type is read, as one of the array type or with type parameters. -/
theorem takes_typeSpec_array (hlen : IsArithmetic ls) (h : Accepts n ss e) (hss : Balanced ss)
    (hn : n < typeDepth) (name : String) (doc : Option CommentGroup) :
    Takes ((.ident, name) :: (arraySpelling ls ss ++ [lineEnd])) [lineEnd]
      (fun spec => spec.Declares name (misreadParams ls)
        (if misreadParams ls = [] then .arrayOf ls e else e)) (typeSpec doc) := by
  rw [arraySpelling_append]
  refine takes_bind (takes_ident name _) fun id hid => ?_
  refine takes_look_eq (a := !(misreadParams ls).isEmpty)
    (fun c hc => startsTypeParams_array hlen hc) ?_
  -- the parser takes the other branch exactly if the length is misread
  by_cases hparams : misreadParams ls = []
  · rw [if_pos hparams, hparams]
    refine takes_ite_neg Bool.false_ne_true (takes_bind (takes_pure rfl) fun params hparams => ?_)
    refine takes_tok fun t ht => ?_
    have halias : t.isOp "=" = false := Token.isOp_of_spelling ht "="
    refine takes_ite_neg (by simp [halias]) ?_
    refine takes_bind (takes_array hlen h hss (Nat.le_of_lt_succ hn) []) fun type htype => ?_
    exact takes_pure ⟨hid, halias, hparams.symm, htype⟩
  · have hgeneric : (!(misreadParams ls).isEmpty) = true := by simpa using hparams
    rw [if_neg hparams]
    refine takes_ite_pos hgeneric (takes_bind (takes_typeParams hlen _) fun params hnames => ?_)
    refine takes_tok fun t ht => ?_
    have halias : t.isOp "=" = false := by
      obtain ⟨x, more, rfl, hx⟩ := h.exists_cons
      exact Bool.eq_false_iff.mpr (Token.not_isOp (x := x) ht hx rfl)
    refine takes_ite_neg (by simp [halias]) ?_
    refine takes_bind (h.takes hss hn.le []) fun type htype => ?_
    exact takes_pure ⟨hid, halias, hnames hparams, htype⟩

/-- After the name of a field the brackets are read as those of an array type. -/
private theorem takes_fieldNames_array (hlen : IsArithmetic ls) (h : Accepts n ss e)
    (hss : Balanced ss) (hnm : n ≤ m) (field : String) (rest : List Spelling) :
    Takes ((.ident, field) :: (.op, "[") :: (ls ++ (.op, "]") :: (ss ++ lineEnd :: rest)))
      (lineEnd :: rest) (fun r => r.1.map Ident.unplaced = [⟨field, .unknown⟩] ∧
        r.2.unplaced = (TypeExpr.arrayOf ls e).unplaced) (fieldNames (typeExpr (m + 1))) := by
  refine takes_tok fun t ht => takes_look_eq (a := false) (fun c hc => ?_) ?_
  · obtain ⟨y, more, rfl, hy⟩ := h.exists_cons
    exact startsEmbedded_array hlen hy hc
  refine takes_ite_neg ?_ (takes_ite_pos ?_ ?_)
  · rw [Token.isOp_of_spelling ht, Bool.and_false]
    exact Bool.false_ne_true
  · rw [Token.kind_of_spelling ht]
    rfl
  refine takes_bind (takes_ident field _) fun id hid => ?_
  refine takes_bind (takes_many_nil (takes_tok fun t ht => takes_ite_neg ?_ (takes_pure rfl))) ?_
  · rw [Token.isOp_of_spelling ht]
    exact Bool.false_ne_true
  rintro _ rfl
  refine takes_bind (takes_array hlen h hss hnm rest) fun type htype => takes_pure ⟨?_, htype⟩
  rw [List.map_singleton, Ident.unplaced, hid]

/-- A field of an array type is read with the end of its line. -/
theorem takes_nextField_array (hlen : IsArithmetic ls) (h : Accepts n ss e) (hss : Balanced ss)
    (hnm : n ≤ m) (field : String) (rest : List Spelling) :
    Takes ((.ident, field) :: (.op, "[") :: (ls ++ (.op, "]") :: (ss ++ lineEnd :: rest))) rest
      (fun r => ∃ f, r = some f ∧
        f.unplaced = ⟨[⟨field, .unknown⟩], (TypeExpr.arrayOf ls e).unplaced, none⟩)
      (nextField (typeExpr (m + 1))) := by
  refine takes_bind (takes_skipSemicolons nofun) fun _ _ => takes_tok fun t ht => ?_
  refine takes_ite_neg ?_ (takes_ite_neg ?_ ?_)
  · rw [Token.isOp_of_spelling ht]
    exact Bool.false_ne_true
  · rw [Token.kind_of_spelling ht]
    exact Bool.false_ne_true
  refine takes_bind (takes_fieldNames_array hlen h hss hnm field rest) ?_
  rintro ⟨names, type⟩ ⟨hnames, htype⟩
  refine takes_bind (takes_tok fun t ht => takes_ite_neg ?_ (takes_pure rfl)) ?_
  · rw [Token.kind_of_spelling ht]
    exact Bool.false_ne_true
  rintro _ rfl
  refine takes_bind (takes_endOfItem "\n" rest) fun _ _ => takes_pure ⟨_, rfl, ?_⟩
  dsimp only at hnames htype
  rw [FieldOf.unplaced, hnames, htype]

/-- A declaration of a struct type with a field of an array type is read. -/
theorem takes_typeSpec_field (hlen : IsArithmetic ls) (h : Accepts (typeDepth - 3) ss e)
    (hss : Balanced ss) (name field : String) (doc : Option CommentGroup) :
    Takes ((.ident, name) :: (.keyword, "struct") :: (.op, "\x7b") :: (.ident, field) ::
        (arraySpelling ls ss ++ [lineEnd, (.op, "\x7d"), lineEnd])) [lineEnd]
      (fun spec => spec.Declares name [] (.structOf field (.arrayOf ls e))) (typeSpec doc) := by
  rw [arraySpelling_append]
  -- neither type parameters nor an alias: the keyword after the name decides
  refine takes_bind (takes_ident name _) fun id hid => ?_
  refine takes_look_eq (a := false) (fun c hc => startsTypeParams_eq_false ?_) ?_
  · rw [hc]
    simp [firstSpelling]
  refine takes_ite_neg Bool.false_ne_true (takes_bind (takes_pure rfl) fun params hparams => ?_)
  refine takes_tok fun t ht => ?_
  have halias : t.isOp "=" = false := Token.isOp_of_spelling ht "="
  refine takes_ite_neg (by simp [halias]) ?_
  have hfield := takes_nextField_array hlen h hss le_rfl field [(.op, "\x7d"), lineEnd]
  have hread : [(TokenKind.op, "\x7d"), lineEnd].length < ((.ident, field) :: (.op, "[") :: (ls ++
      (.op, "]") :: (ss ++ lineEnd :: [(.op, "\x7d"), lineEnd])) : List Spelling).length := by
    simp only [List.length_cons, List.length_append, List.length_nil]
    omega
  -- the struct type has the one field
  have hfields := takes_many_cons hfield hread (takes_many_nil (takes_nextField_none [lineEnd]))
  have hstruct : Takes ((.keyword, "struct") :: (.op, "\x7b") :: (.ident, field) :: (.op, "[") ::
      (ls ++ (.op, "]") :: (ss ++ [lineEnd, (.op, "\x7d"), lineEnd]))) [lineEnd]
      (fun e' => e'.unplaced = (TypeExpr.structOf field (.arrayOf ls e)).unplaced)
      (typeExpr typeDepth) := by
    refine takes_keywordType fun l => takes_advance_bind ?_
    refine takes_bind (takes_bind (takes_op _ _) fun _ _ => hfields) ?_
    rintro _ ⟨f, _, rfl, hf, rfl⟩
    refine takes_pure ?_
    rw [TypeExpr.structOf, TypeExpr.unplaced_struct, TypeExpr.unplaced_struct, List.map_singleton,
      hf, List.map_singleton]
    rfl
  exact takes_bind hstruct fun type htype => takes_pure ⟨hid, halias, hparams.symm, htype⟩

end Parser

/-! ### Files -/

/-- The text is cut into tokens of these spellings, wherever there are blanks and comments. -/
def HasSpellings (name source : String) (ss : List Spelling) : Prop :=
  ∃ lexed, tokenize name source = .ok lexed ∧ lexed.tokens.map Token.spelling = ss

/-- **Array types in declarations and in fields.** A field is read as one of the array type. A
declaration is read as one of the same array type, without type parameters, if and only if the
length does not start with a name that other tokens follow; otherwise this name is read as a type
parameter, and the element type as the declared type.

The brackets of the element type match, which leaves out element types that hold array lengths such
as that of `[1)]int`, although the parser accepts them. If they do not match, then a field inside
the element type may look for its bracket beyond it, and what it finds there differs between the
two files. -/
theorem SourceFile.parse_arrays {ls ss : List Spelling} {e : TypeExpr} (hlen : IsArithmetic ls)
    (hss : Balanced ss) (he : Parser.Accepts (Parser.typeDepth - 3) ss e)
    {name source declared : String}
    (hdeclaration : HasSpellings name source (arrayDeclaration declared ls ss))
    {name' source' outer field : String}
    (hfield : HasSpellings name' source' (arrayField outer field ls ss)) :
    ∃ file file' spec spec', SourceFile.parse name source = .ok file ∧ file.types = [spec] ∧
      SourceFile.parse name' source' = .ok file' ∧ file'.types = [spec'] ∧
      spec'.Declares outer [] (.structOf field (.arrayOf ls e)) ∧
      spec.Declares declared (misreadParams ls)
        (if misreadParams ls = [] then .arrayOf ls e else e) ∧
      (spec.Declares declared [] (.arrayOf ls e) ↔ misreadParams ls = []) := by
  obtain ⟨lexed, h, htokens⟩ := hdeclaration
  obtain ⟨lexed', h', htokens'⟩ := hfield
  obtain ⟨file, hok, spec, htypes, hspec⟩ := SourceFile.exists_parse_eq_ok h htokens
    (Parser.takes_sourceFile (by simp [firstSpelling])
      (Parser.takes_typeSpec_array hlen he hss (by decide) declared) name lexed.comments)
  obtain ⟨file', hok', spec', htypes', hspec'⟩ := SourceFile.exists_parse_eq_ok h' htokens'
    (Parser.takes_sourceFile (by simp [firstSpelling])
      (Parser.takes_typeSpec_field hlen he hss outer field) name' lexed'.comments)
  refine ⟨file, file', spec, spec', hok, htypes, hok', htypes', hspec', hspec, fun harray => ?_,
    fun hnone => ?_⟩
  · exact hspec.typeParams.symm.trans harray.typeParams
  · rwa [if_pos hnone, hnone] at hspec

/-- The cursor before tokens of these spellings and the end of a statement. -/
def cursorBefore (ss : List Spelling) : Cursor :=
  ⟨0, (ss ++ [lineEnd]).map fun x => ⟨x.1, x.2, .unknown⟩, .unknown⟩

/-- What is read alone is accepted. -/
theorem Parser.exists_accepts {n : Nat} {ss : List Spelling} {text : String}
    (h : (typeExpr n (cursorBefore ss)).toOption.any (fun r => r.1.render == text &&
      r.2.spellings == [lineEnd]) = true) :
    ∃ e, e.render = text ∧ Accepts n ss e := by
  cases hok : typeExpr n (cursorBefore ss) with
  | error err =>
    rw [hok] at h
    cases h
  | ok r =>
    rw [hok, Except.toOption, Option.any_some, Bool.and_eq_true, beq_iff_eq, beq_iff_eq] at h
    refine ⟨r.1, h.1, [], cursorBefore ss, r.2, ?_, hok, h.2⟩
    simp [cursorBefore, Cursor.spellings, Token.spelling, Function.comp_def]

/-- A text that passes the test is cut into these tokens. -/
private theorem hasSpellings_of_any {name source : String} {ss : List Spelling}
    (h : (tokenize name source).toOption.any (fun lexed =>
      lexed.tokens.map Token.spelling == ss) = true) : HasSpellings name source ss := by
  obtain ⟨lexed, hok, htest⟩ := exists_tokenize_of_any h
  exact ⟨lexed, hok, beq_iff_eq.mp htest⟩

/-- A file that declares an array type, whose length goes over two lines. -/
def tableSource : String :=
  "package p\n// Table is read in blocks.\n" ++
    "type Table [8 +\n\tpkg.Size%n]map[string]func(a, b T) []T\n"

/-- A file with a field of the same array type. -/
def pageSource : String :=
  "package p\ntype Page struct \x7b\n" ++
    "\trows [8+pkg.Size % n] /* all */ map[string]func(a, b T) []T\n\x7d\n"

/-- The tokens of the length in both files. -/
def blockLength : List Spelling :=
  [(.number, "8"), (.op, "+"), (.ident, "pkg"), (.op, "."), (.ident, "Size"), (.op, "%"),
    (.ident, "n")]

/-- The tokens of the element type in both files. -/
def blockElem : List Spelling :=
  [(.keyword, "map"), (.op, "["), (.ident, "string"), (.op, "]"), (.keyword, "func"), (.op, "("),
    (.ident, "a"), (.op, ","), (.ident, "b"), (.ident, "T"), (.op, ")"), (.op, "["), (.op, "]"),
    (.ident, "T")]

set_option maxRecDepth 100000 in
/-- The hypotheses of `SourceFile.parse_arrays` hold of a length with operators and a name of a
package, which starts with a number. -/
theorem SourceFile.parse_arrays_tableSource :
    ∃ e, e.render = "map[string]func(a T, b T) []T" ∧ IsArithmetic blockLength ∧
      Balanced blockElem ∧ Parser.Accepts (Parser.typeDepth - 3) blockElem e ∧
      HasSpellings "table.go" tableSource (arrayDeclaration "Table" blockLength blockElem) ∧
      HasSpellings "page.go" pageSource (arrayField "Page" "rows" blockLength blockElem) ∧
      ∃ file file' spec spec', SourceFile.parse "table.go" tableSource = .ok file ∧
        file.types = [spec] ∧ SourceFile.parse "page.go" pageSource = .ok file' ∧
        file'.types = [spec'] ∧
        spec'.Declares "Page" [] (.structOf "rows" (.arrayOf blockLength e)) ∧
        spec.Declares "Table" [] (.arrayOf blockLength e) := by
  have hlen : IsArithmetic blockLength :=
    .binary (.number "8") (by decide) (.binary (.qualified "pkg" "Size") (by decide)
      (.operand (.ident "n")))
  have helem : Balanced blockElem := balanced_of_matchBrackets (by decide)
  obtain ⟨e, htext, he⟩ := @Parser.exists_accepts (Parser.typeDepth - 3) blockElem
    "map[string]func(a T, b T) []T" (by decide +kernel)
  have htable : HasSpellings "table.go" tableSource
      (arrayDeclaration "Table" blockLength blockElem) := hasSpellings_of_any (by decide +kernel)
  have hpage : HasSpellings "page.go" pageSource
      (arrayField "Page" "rows" blockLength blockElem) := hasSpellings_of_any (by decide +kernel)
  obtain ⟨file, file', spec, spec', hok, htypes, hok', htypes', hspec', -, hiff⟩ :=
    SourceFile.parse_arrays hlen helem he htable hpage
  exact ⟨e, htext, hlen, helem, he, htable, hpage, file, file', spec, spec', hok, htypes, hok',
    htypes', hspec', hiff.mpr rfl⟩

/-! ### A length that is taken for type parameters -/

/-- A file that declares an array type whose length starts with a name. -/
def nextSource : String := "package p\ntype A [N+1]int\n"

/-- A file with a field of the same array type. -/
def nextFieldSource : String := "package p\ntype S struct \x7b\n\tx [N+1]int\n\x7d\n"

set_option maxRecDepth 100000 in
/-- A declaration of an array type may be read as another type, and with a type parameter. -/
theorem SourceFile.not_forall_parse_arrays :
    ¬ ∀ (ls ss : List Spelling) (e : TypeExpr), IsArithmetic ls →
      Parser.Accepts (Parser.typeDepth - 3) ss e → ∀ name source declared,
      HasSpellings name source (arrayDeclaration declared ls ss) → ∀ name' source' outer field,
      HasSpellings name' source' (arrayField outer field ls ss) →
      ∃ file file' spec spec', SourceFile.parse name source = .ok file ∧ file.types = [spec] ∧
        SourceFile.parse name' source' = .ok file' ∧ file'.types = [spec'] ∧
        spec'.Declares outer [] (.structOf field (.arrayOf ls e)) ∧
        spec.Declares declared [] (.arrayOf ls e) := by
  intro hall
  have hlen : IsArithmetic [(.ident, "N"), (.op, "+"), (.number, "1")] :=
    .binary (.ident "N") (by decide) (.operand (.number "1"))
  obtain ⟨e, -, he⟩ := @Parser.exists_accepts (Parser.typeDepth - 3) [(.ident, "int")] "int"
    (by decide +kernel)
  obtain ⟨file, -, spec, -, hok, htypes, -, -, -, hspec⟩ := hall _ _ e hlen he "a.go" nextSource "A"
    (hasSpellings_of_any (by decide +kernel)) "a.go" nextFieldSource "S" "x"
    (hasSpellings_of_any (by decide +kernel))
  have hparams : (SourceFile.parse "a.go" nextSource).toOption.all (fun file =>
      file.types.all fun spec => spec.typeParams == ["N"]) = true := by
    decide +kernel
  rw [hok, Except.toOption, Option.all_some, htypes, List.all_cons, Bool.and_eq_true, beq_iff_eq,
    hspec.typeParams] at hparams
  cases hparams.1

end GoPages

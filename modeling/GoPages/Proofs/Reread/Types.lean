import GoPages.Proofs.Parser.Takes
import GoPages.Proofs.TypeExpr.Spelling

/-!
# Type expressions are read back from their tokens

`Rereads p e` says that the parser `p` reads the type expression `e` back from its tokens, up to
places, if a token follows that can end a type (`Spelling.endsType`). A legible type expression is
read back by the parser for as many levels as it has (`TypeExpr.Legible.rereads`).

The parser decides at a name what the name is: a parameter or a type, a field or an embedded type.
It looks at the next token, and at the token after the brackets if brackets follow the name. The
tokens of a legible type expression never mislead it.
-/

namespace GoPages

/-- Can the token follow a type? -/
def Spelling.endsType (x : Spelling) : Bool :=
  x.1 == .eof || x.1 == .semicolon || x.1 == .string ||
    [(.op, ","), (.op, ")"), (.op, "]"), (.op, "\x7d")].contains x

/-- A token of a kind is no operator that is not. -/
theorem Spelling.ne_op {p : Spelling → Bool} {x : Spelling} {op : String} (hx : p x = true)
    (hop : p (.op, op) = false) : x ≠ (.op, op) := by
  rintro rfl
  rw [hx] at hop
  cases hop

/-- A class of tokens that does not have the operator does not have the token. -/
theorem Token.not_isOp {t : Token} {x : Spelling} {p : Spelling → Bool} {op : String}
    (ht : t.spelling = x) (hx : p x = true) (hop : p (.op, op) = false) : ¬ t.isOp op = true :=
  mt (isOp_iff_of_spelling ht op).mp (Spelling.ne_op hx hop)

namespace Parser

/-- The parser reads the type expression back from its tokens. -/
def Rereads (p : Parser TypeExpr) (e : TypeExpr) : Prop :=
  ∀ rest, Spelling.endsType (firstSpelling rest) = true →
    Takes (e.spelling ++ rest) rest (fun e' => e'.unplaced = e.unplaced) p

variable {elem inner : Parser TypeExpr} {ss rest : List Spelling}

/-! ### One level -/

/-- The parser for one more level reads parts at the levels below. -/
theorem typeExpr_succ (n : Nat) :
    typeExpr (n + 1) = typeExprWith (typeExpr n) (typeExpr (n - 1)) := by
  cases n <;> rfl

/-- A keyword decides which kind of type is read. -/
theorem takes_keywordType {P : TypeExpr → Prop} {word : String}
    (h : ∀ l, Takes ((.keyword, word) :: ss) rest P (keywordType elem inner ⟨.keyword, word, l⟩)) :
    Takes ((.keyword, word) :: ss) rest P (typeExprWith elem inner) := by
  refine takes_tok ?_
  rintro ⟨kind, text, l⟩ ht
  cases ht
  exact h l

/-- So does an operator. -/
private theorem takes_operatorType {P : TypeExpr → Prop} {op : String}
    (h : ∀ l, Takes ((.op, op) :: ss) rest P (operatorType elem ⟨.op, op, l⟩)) :
    Takes ((.op, op) :: ss) rest P (typeExprWith elem inner) := by
  refine takes_tok ?_
  rintro ⟨kind, text, l⟩ ht
  cases ht
  exact h l

/-- And a name is that of a type. -/
private theorem takes_typeName {P : TypeExpr → Prop} {name : String}
    (h : Takes ((.ident, name) :: ss) rest P (typeName elem)) :
    Takes ((.ident, name) :: ss) rest P (typeExprWith elem inner) := by
  refine takes_tok ?_
  rintro ⟨kind, text, l⟩ ht
  cases ht
  exact h

variable {e : TypeExpr}

theorem rereads_pointer (l : Location) (h : Rereads elem e) :
    Rereads (typeExprWith elem inner) (.pointer l e) := by
  intro rest hrest
  refine takes_operatorType fun l => takes_advance_bind (takes_bind (h rest hrest) fun e' he' => ?_)
  exact takes_pure (by rw [TypeExpr.unplaced, he', TypeExpr.unplaced])

theorem rereads_ellipsis (l : Location) (h : Rereads elem e) :
    Rereads (typeExprWith elem inner) (.ellipsis l e) := by
  intro rest hrest
  refine takes_operatorType fun l => takes_advance_bind (takes_bind (h rest hrest) fun e' he' => ?_)
  exact takes_pure (by rw [TypeExpr.unplaced, he', TypeExpr.unplaced])

theorem rereads_slice (l : Location) (h : Rereads elem e) :
    Rereads (typeExprWith elem inner) (.slice l e) := by
  intro rest hrest
  refine takes_operatorType fun l => takes_advance_bind (takes_tok fun t ht => ?_)
  refine takes_ite_pos (Token.isOp_self ht) ?_
  refine takes_advance_bind (takes_bind (h rest hrest) fun e' he' => ?_)
  exact takes_pure (by rw [TypeExpr.unplaced, he', TypeExpr.unplaced])

theorem rereads_map (l : Location) {key value : TypeExpr} (hkey : Rereads elem key)
    (hvalue : Rereads elem value) : Rereads (typeExprWith elem inner) (.map l key value) := by
  intro rest hrest
  rw [TypeExpr.spelling, List.cons_append, List.cons_append, List.append_assoc]
  refine takes_keywordType fun l => takes_advance_bind (takes_bind (takes_op _ _) fun _ _ => ?_)
  refine takes_bind (hkey _ rfl) fun key' hkey' => ?_
  refine takes_bind (takes_op _ _) fun _ _ => ?_
  refine takes_bind (hvalue rest hrest) fun value' hvalue' => ?_
  exact takes_pure (by rw [TypeExpr.unplaced, hkey', hvalue', TypeExpr.unplaced])

/-- An array type is read with a length whose brackets match. -/
theorem takes_arrayType (l : Location) {len : List Spelling} (hlen : Balanced len) (hne : len ≠ [])
    (hkind : ∀ x ∈ len, x.1 ≠ .semicolon)
    (h : Takes ss rest (fun e' => e'.unplaced = e.unplaced) elem) :
    Takes ((.op, "[") :: (len ++ (.op, "]") :: ss)) rest
      (fun e' => e'.unplaced = (TypeExpr.array l (String.join (len.map Prod.snd)) e).unplaced)
      (typeExprWith elem inner) := by
  refine takes_operatorType fun l => takes_advance_bind (takes_tok fun t ht => ?_)
  have hnotSlice : ¬ t.isOp "]" = true := by
    have hpair : ("[", "]") ∈ bracketPairs := by decide
    obtain ⟨x, more, rfl⟩ := List.exists_cons_of_ne_nil hne
    rw [Token.isOp_iff_of_spelling ht]
    exact hlen.head_ne hpair
  refine takes_ite_neg hnotSlice ?_
  refine takes_bind (takes_arrayLen hlen hkind _) fun len' hlen' => ?_
  refine takes_bind h fun e' he' => takes_pure ?_
  rw [TypeExpr.unplaced, he', hlen', TypeExpr.unplaced]

/-- The length of an array is read back from its tokens. -/
theorem rereads_array (l : Location) {len : String} (hlen : IsLength len)
    (h : Rereads elem e) : Rereads (typeExprWith elem inner) (.array l len e) := by
  intro rest hrest
  have htakes := @takes_arrayType elem inner _ _ _ l _ hlen.balanced hlen.ne_nil hlen.kind_ne
    (h rest hrest)
  rw [hlen.join_texts] at htakes
  rw [TypeExpr.spelling, List.cons_append, List.append_assoc]
  exact htakes

/-- A channel is read back unless its element takes its arrow. -/
theorem rereads_chan (l : Location) {dir : ChanDir} (hdir : dir = .both → e.isRecv = false)
    {n : Nat} (hlegible : e.Legible n) (h : Rereads elem e) :
    Rereads (typeExprWith elem inner) (.chan l dir e) := by
  intro rest hrest
  rw [TypeExpr.spelling, List.append_assoc]
  have hend (l' : Location) : ∀ e', e'.unplaced = e.unplaced →
      (TypeExpr.chan l' dir e').unplaced = (TypeExpr.chan l dir e).unplaced := fun e' he' => by
    rw [TypeExpr.unplaced, he', TypeExpr.unplaced]
  cases dir with
  | both =>
    refine takes_keywordType fun l => takes_advance_bind (takes_tok fun t ht => ?_)
    -- the channel has no arrow, so it would take one that its element starts with
    obtain ⟨x, ss, hspelling, -, harrow, -⟩ := hlegible.exists_spelling_eq_cons
    rw [hspelling] at ht
    have hnotSend : ¬ t.isOp "<-" = true := by
      rw [Token.isOp_iff_of_spelling ht]
      intro hx
      have hrecv := harrow hx
      rw [hdir rfl] at hrecv
      cases hrecv
    refine takes_ite_neg hnotSend ?_
    exact takes_bind (h rest hrest) fun e' he' => takes_pure (hend _ e' he')
  | send =>
    refine takes_keywordType fun l => takes_advance_bind (takes_tok fun t ht => ?_)
    refine takes_ite_pos (Token.isOp_self ht) ?_
    refine takes_advance_bind (takes_bind (h rest hrest) fun e' he' => takes_pure (hend _ e' he'))
  | recv =>
    refine takes_operatorType fun l => takes_advance_bind (takes_tok fun t ht => ?_)
    refine takes_ite_pos (Token.isKeyword_of_spelling ht "chan") ?_
    refine takes_advance_bind (takes_bind (h rest hrest) fun e' he' => takes_pure (hend _ e' he'))

/-- Of the body of an interface only its being empty is kept. -/
private theorem takes_interfaceBody {body : List Spelling} (h : Balanced body)
    (rest : List Spelling) : Takes ((.op, "\x7b") :: (body ++ (.op, "\x7d") :: rest)) rest
      (· = body.all fun x => x.1 == .semicolon) interfaceBody := by
  have hpair : ("\x7b", "\x7d") ∈ bracketPairs := by decide
  refine takes_tok fun t ht => ?_
  refine takes_ite_pos (Token.isOp_self ht) ?_
  refine takes_bind (takes_balanced hpair h _ rest) fun ts hts => takes_pure ?_
  rw [← hts, List.all_map]
  rfl

theorem rereads_interface (l : Location) (empty : Bool) :
    Rereads (typeExprWith elem inner) (.interface l empty) := by
  intro rest _
  rw [TypeExpr.spelling, List.cons_append, List.cons_append, List.append_assoc]
  have hbalanced : Balanced (if empty then [] else [(.op, "...")]) := by
    cases empty with
    | false => exact .plain rfl .nil
    | true => exact .nil
  refine takes_keywordType fun l => takes_advance_bind ?_
  refine takes_bind (takes_interfaceBody hbalanced _) ?_
  rintro _ rfl
  refine takes_pure ?_
  cases empty <;> rfl

/-! ### Names -/

/-- Names are the same up to places if their texts are. -/
theorem unplaced_ident_eq {id id' : Ident} (h : id.name = id'.name) :
    id.unplaced = id'.unplaced := by
  rw [Ident.unplaced, h, Ident.unplaced]

/-- Reads the type arguments after a type name, if it has them. -/
def typeArgs (elem : Parser TypeExpr) (base : TypeExpr) : Parser TypeExpr := do
  let generic ← look fun c => c.tok.isOp "[" && !(c.peek 1).isOp "]"
  if generic then
    advance
    let first ← elem
    let others ← many (nextTypeArg elem)
    op "]"
    return .generic base (first :: others)
  else return base

/-- A type name is read, and then its arguments. -/
theorem takes_typeName_args {base : TypeExpr} (hname : base.isTypeName = true)
    (hss : firstSpelling ss ≠ (.op, ".")) {P : TypeExpr → Prop}
    (h : ∀ base', base'.unplaced = base.unplaced → Takes ss rest P (typeArgs elem base')) :
    Takes (base.spelling ++ ss) rest P (typeExprWith elem inner) := by
  cases base with
  | ident id =>
    refine takes_typeName (takes_bind (takes_ident id.name ss) fun id' hid' => ?_)
    refine takes_tok fun t ht => ?_
    have hnoPoint : ¬ t.isOp "." = true := mt (Token.isOp_iff_of_spelling ht _).mp hss
    refine takes_ite_neg hnoPoint (takes_bind (takes_pure ?_) h)
    rw [TypeExpr.unplaced, unplaced_ident_eq hid', TypeExpr.unplaced]
  | qualified package id =>
    refine takes_typeName (takes_bind (takes_ident package.name _) fun package' hpackage' => ?_)
    refine takes_tok fun t ht => takes_ite_pos (Token.isOp_self ht) ?_
    refine takes_advance_bind (takes_bind (takes_ident id.name ss) fun id' hid' => ?_)
    refine takes_bind (takes_pure ?_) h
    rw [TypeExpr.unplaced, unplaced_ident_eq hid', unplaced_ident_eq hpackage', TypeExpr.unplaced]
  | _ => cases hname

/-- A type name alone is read back. -/
theorem rereads_of_isTypeName (hname : e.isTypeName = true) :
    Rereads (typeExprWith elem inner) e := by
  intro rest hrest
  refine takes_typeName_args hname (Spelling.ne_op hrest rfl) fun base hbase => ?_
  refine takes_look_eq (a := false) (fun c hc => ?_) ?_
  · have htok := c.spelling_tok
    rw [hc] at htok
    have hnoBracket : ¬ c.tok.isOp "[" = true := Token.not_isOp htok hrest rfl
    simp [hnoBracket]
  · exact takes_pure hbase

private theorem takes_nextTypeArg {arg : TypeExpr} {n : Nat} (hlegible : arg.Legible n)
    (h : Rereads elem arg) (hss : Spelling.endsType (firstSpelling ss) = true) :
    Takes ((.op, ",") :: (arg.spelling ++ ss)) ss
      (fun r => ∃ a, r = some a ∧ a.unplaced = arg.unplaced) (nextTypeArg elem) := by
  obtain ⟨x, more, hspelling, hx, -⟩ := hlegible.exists_spelling_eq_cons
  refine takes_tok fun t ht => takes_ite_pos (Token.isOp_self ht) ?_
  refine takes_advance_bind (takes_tok fun t ht => ?_)
  rw [hspelling] at ht
  refine takes_ite_neg (Token.not_isOp (x := x) ht hx rfl) ?_
  exact takes_bind (h ss hss) fun a ha => takes_pure ⟨a, rfl, ha⟩

/-- Type arguments are read back one by one. -/
private theorem takes_typeArgs {others : List TypeExpr} {n : Nat}
    (hlegible : ∀ arg ∈ others, arg.Legible n) (h : ∀ arg ∈ others, Rereads elem arg)
    (rest : List Spelling) :
    Takes (others.flatMap (fun arg => (.op, ",") :: arg.spelling) ++ (.op, "]") :: rest)
      ((.op, "]") :: rest)
      (fun args => args.map TypeExpr.unplaced = others.map TypeExpr.unplaced)
      (many (nextTypeArg elem)) := by
  refine takes_many (fun arg harg ss hss => ?_) (takes_tok fun t ht => ?_)
  · refine takes_nextTypeArg (hlegible arg harg) (h arg harg) ?_
    rcases hss with hss | rfl
    · rw [hss]
      rfl
    · rfl
  · exact takes_ite_neg (mt (Token.isOp_iff_of_spelling ht _).mp (by simp [firstSpelling]))
      (takes_pure rfl)

/-- A generic type is read back from its name and its arguments. -/
theorem rereads_generic {base : TypeExpr} {args : List TypeExpr} {n : Nat}
    (hname : base.isTypeName = true) (hne : args ≠ []) (hlegible : ∀ arg ∈ args, arg.Legible n)
    (h : ∀ arg ∈ args, Rereads elem arg) :
    Rereads (typeExprWith elem inner) (.generic base args) := by
  intro rest _
  obtain ⟨first, others, rfl⟩ := List.exists_cons_of_ne_nil hne
  obtain ⟨hfirst, hothers⟩ := List.forall_mem_cons.mp h
  obtain ⟨x, more, hspelling, hx, -⟩ := (hlegible first List.mem_cons_self).exists_spelling_eq_cons
  have hss : (TypeExpr.generic base (first :: others)).spelling ++ rest =
      base.spelling ++ (.op, "[") :: (first.spelling ++
        (others.flatMap (fun arg => (.op, ",") :: arg.spelling) ++ (.op, "]") :: rest)) := by
    rw [TypeExpr.spelling, TypeExpr.spellingArgs_eq, commaSpelling, intercalate_cons_eq_flatMap]
    simp
  rw [hss]
  refine takes_typeName_args hname (by simp [firstSpelling]) fun base' hbase' => ?_
  refine takes_look_eq (a := true) (fun c hc => ?_) ?_
  · have htok := c.spelling_tok
    have hpeek := c.spelling_peek 1
    rw [hc] at htok hpeek
    rw [List.drop_one, List.tail_cons, hspelling] at hpeek
    have hbracket : c.tok.isOp "[" = true := Token.isOp_self htok
    -- brackets with nothing inside would belong to a slice type
    have hnotSlice : ¬ (c.peek 1).isOp "]" = true := Token.not_isOp (x := x) hpeek hx rfl
    simp [hbracket, hnotSlice]
  have hnext : Spelling.endsType (firstSpelling
      (others.flatMap (fun arg => (.op, ",") :: arg.spelling) ++ (.op, "]") :: rest)) = true := by
    cases others <;> rfl
  refine takes_ite_pos rfl (takes_advance_bind ?_)
  refine takes_bind (hfirst _ hnext) fun first' hfirst' => ?_
  refine takes_bind (takes_typeArgs (List.forall_mem_cons.mp hlegible).2 hothers rest) ?_
  intro others' hothers'
  refine takes_bind (takes_op "]" rest) fun _ _ => takes_pure ?_
  rw [TypeExpr.unplaced_generic, TypeExpr.unplaced_generic, hbase', List.map_cons, List.map_cons,
    hfirst', hothers']

end Parser

end GoPages

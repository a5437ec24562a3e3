import GoPages.Proofs.Reread.Params

/-!
# Struct types are read back from their tokens

A field declaration is read back as it was written (`Parser.takes_nextField`): the tokens after its
first name tell whether the name is one of the declared names or the type of an embedded field, and
a quoted tag is the tag. Hence struct types are read back, and with them every legible type
expression, by induction on its levels (`TypeExpr.Legible.rereads`).
-/

namespace GoPages

namespace Parser

variable {elem inner : Parser TypeExpr} {ss rest : List Spelling}

/-! ### Names and types of fields -/

/-- Can the token follow the type of a field declaration? -/
def endsFieldType (x : Spelling) : Bool :=
  x.1 == .semicolon || x.1 == .string || x == (.op, "\x7d")

private theorem endsField_of_spelling {t : Token} {x : Spelling} (ht : t.spelling = x) :
    endsField t = endsFieldType x := by
  subst ht
  rfl

/-- What ends the type of a field ends a type. -/
private theorem endsType_of_endsFieldType {x : Spelling} (h : endsFieldType x = true) :
    x.endsType = true := by
  simp only [endsFieldType, Bool.or_eq_true, beq_iff_eq] at h
  rcases h with (h | h) | rfl
  · simp [Spelling.endsType, h]
  · simp [Spelling.endsType, h]
  · rfl

/-- What starts a type does not end the type of a field. -/
private theorem endsFieldType_of_startsType {x : Spelling} (hx : x.startsType = true) :
    endsFieldType x = false := by
  rw [endsFieldType, Bool.or_eq_false_iff, Bool.or_eq_false_iff]
  refine ⟨⟨?_, ?_⟩, ?_⟩
  · exact beq_false_of_ne (x.kind_ne_of_startsType hx (by decide))
  · exact beq_false_of_ne (x.kind_ne_of_startsType hx (by decide))
  · exact beq_false_of_ne (Spelling.ne_op hx rfl)

/-- What a look at the token after a name tells about a field. -/
theorem startsEmbedded_eq {c : Cursor} {x : Spelling} (hc : c.spellings = x :: ss)
    (hbracket : firstSpelling ss ≠ (.op, "[")) :
    startsEmbedded c = (firstSpelling ss == (.op, ".") || endsFieldType (firstSpelling ss)) := by
  have hpeek := c.spelling_peek 1
  rw [hc, List.drop_one, List.tail_cons] at hpeek
  have hnoBracket : ¬ (c.peek 1).isOp "[" = true :=
    mt (Token.isOp_iff_of_spelling hpeek _).mp hbracket
  rw [startsEmbedded, Token.isOp_of_spelling hpeek ".", endsField_of_spelling hpeek,
    if_neg hnoBracket]
  split
  · next h => exact h.symm
  · next h => exact (Bool.eq_false_iff.mpr h).symm

/-- What a look at the brackets after a name tells about a field. -/
theorem startsEmbedded_bracket {c : Cursor} {x : Spelling} {inner : List Spelling}
    (h : Balanced inner) (hc : c.spellings = x :: (.op, "[") :: (inner ++ (.op, "]") :: ss)) :
    startsEmbedded c = (endsFieldType (firstSpelling ss) &&
      !(firstSpelling (inner ++ (.op, "]") :: ss) == (.op, "]"))) := by
  obtain ⟨t, hafter, ht⟩ := exists_afterBracket? h hc
  have hpeek := c.spelling_peek 2
  have hnext := c.spelling_peek 1
  rw [hc, List.drop_succ_cons, List.drop_succ_cons, List.drop_zero] at hpeek
  rw [hc, List.drop_one, List.tail_cons] at hnext
  have hbracket : (c.peek 1).isOp "[" = true := Token.isOp_self hnext
  have hends : ¬ ((c.peek 1).isOp "." || endsField (c.peek 1)) = true := by
    rw [Token.isOp_of_spelling hnext, endsField_of_spelling hnext]
    exact Bool.false_ne_true
  rw [startsEmbedded, if_neg hends, if_pos hbracket, hafter]
  dsimp only
  rw [endsField_of_spelling ht, Token.isOp_of_spelling hpeek]

/-- A type in front of a token that ends the type of a field is read as an embedded field. -/
private theorem takes_fieldNames_embedded {e : TypeExpr} {n : Nat} (hembed : e.canEmbed = true)
    (hlegible : e.Legible n) (h : Rereads elem e) (hss : endsFieldType (firstSpelling ss) = true) :
    Takes (e.spelling ++ ss) ss (fun r => r.1 = [] ∧ r.2.unplaced = e.unplaced)
      (fieldNames elem) := by
  obtain ⟨x, more, hspelling, hx, -⟩ := hlegible.exists_spelling_eq_cons
  have hread : Takes (e.spelling ++ ss) ss
      (fun r : List Ident × TypeExpr => r.1 = [] ∧ r.2.unplaced = e.unplaced)
      (elem >>= fun type => pure ([], type)) :=
    takes_bind (h ss (endsType_of_endsFieldType hss)) fun e' he' => takes_pure ⟨rfl, he'⟩
  refine takes_tok fun t ht => ?_
  rw [hspelling] at ht
  have ht : t.spelling = x := ht
  -- after a name the parser looks ahead, to tell an embedded field from a named one
  by_cases hident : x.1 = .ident
  · have hkind : (t.kind == .ident) = true := by
      rw [Token.kind_of_spelling ht, hident]
      rfl
    refine takes_look_eq (a := true) (fun c hc => ?_) ?_
    · rw [hspelling, List.cons_append] at hc
      -- the type is the name alone, a qualified name, or one with type arguments
      rcases hlegible.of_spelling_eq_ident hspelling hident with
        ⟨id, rfl⟩ | ⟨more, rfl⟩ | ⟨y, more, hy, hbalanced, rfl⟩
      · obtain ⟨rfl, rfl⟩ := List.cons.inj hspelling
        rw [startsEmbedded_eq hc, List.nil_append, hss, Bool.or_true]
        exact Spelling.ne_op hss rfl
      · rw [startsEmbedded_eq hc (by simp [firstSpelling])]
        rfl
      · have hne : (firstSpelling (y :: more ++ (.op, "]") :: ss) == (.op, "]")) = false :=
          beq_false_of_ne (Spelling.ne_op hy rfl)
        rw [startsEmbedded_bracket hbalanced (by simpa using hc), hss, hne]
        rfl
    exact takes_ite_pos (by simp [hkind]) hread
  · obtain rfl := (hlegible.of_canEmbed hembed hspelling).resolve_left hident
    refine takes_look_any fun embedded => ?_
    exact takes_ite_pos (by simp [Token.isOp_self ht]) hread

private theorem takes_nextName (id : Ident) (ss : List Spelling) :
    Takes ((.op, ",") :: (id.spelling ++ ss)) ss
      (fun r => ∃ id', r = some id' ∧ id'.unplaced = id.unplaced) nextName := by
  refine takes_tok fun t ht => takes_ite_pos (Token.isOp_self ht) (takes_advance_bind ?_)
  exact takes_bind (takes_ident id.name ss) fun id' hid' =>
    takes_pure ⟨id', rfl, unplaced_ident_eq hid'⟩

/-- Before its type the name of a field is no embedded field. -/
theorem startsEmbedded_of_legible {c : Cursor} {z : Spelling} {e : TypeExpr} {n : Nat}
    (hlegible : e.Legible n) (hc : c.spellings = z :: (e.spelling ++ ss)) :
    startsEmbedded c = false := by
  obtain ⟨x, more, hspelling, hx, -⟩ := hlegible.exists_spelling_eq_cons
  rw [hspelling] at hc
  by_cases hbracket : x = (.op, "[")
  · -- what follows the brackets of an array or slice type is a type
    rw [hbracket] at hspelling hc
    obtain ⟨inner, y, more, hbalanced, hy, rfl⟩ := hlegible.of_spelling_eq_bracket hspelling
    have hfirst : firstSpelling (y :: (more ++ ss)) = y := rfl
    rw [startsEmbedded_bracket hbalanced (by simpa using hc), hfirst,
      endsFieldType_of_startsType hy, Bool.false_and]
  · have hfirst : firstSpelling (x :: more ++ ss) = x := rfl
    have hpoint : x ≠ (.op, ".") := Spelling.ne_op hx rfl
    rw [startsEmbedded_eq hc hbracket, hfirst, endsFieldType_of_startsType hx, Bool.or_false]
    exact beq_false_of_ne hpoint

/-- Names in front of a type are read as the names of a field. -/
private theorem takes_fieldNames_named {e : TypeExpr} {n : Nat} {names : List Ident}
    (hne : names ≠ [])
    (hlegible : e.Legible n) (h : Rereads elem e) (hss : endsFieldType (firstSpelling ss) = true) :
    Takes (commaSpelling.intercalate (names.map Ident.spelling) ++ (e.spelling ++ ss)) ss
      (fun r => r.1.map Ident.unplaced = names.map Ident.unplaced ∧ r.2.unplaced = e.unplaced)
      (fieldNames elem) := by
  obtain ⟨x, more, hspelling, hx, -⟩ := hlegible.exists_spelling_eq_cons
  obtain ⟨first, others, rfl⟩ := List.exists_cons_of_ne_nil hne
  rw [commaSpelling, intercalate_cons_eq_flatMap, List.append_assoc]
  refine takes_tok fun t ht => ?_
  have hkind : (t.kind == .ident) = true := by
    rw [Token.kind_of_spelling ht]
    rfl
  have hstar : ¬ t.isOp "*" = true := by
    rw [Token.isOp_iff_of_spelling ht]
    rintro ⟨⟩
  refine takes_look_eq (a := false) (fun c hc => ?_) ?_
  · cases others with
    | nil => exact startsEmbedded_of_legible hlegible hc
    | cons second others =>
      -- the comma after the first name
      rw [startsEmbedded_eq hc (by simp [firstSpelling])]
      rfl
  refine takes_ite_neg (by simp [hstar]) (takes_ite_pos hkind ?_)
  refine takes_bind (takes_ident first.name _) fun first' hfirst' => ?_
  have hnames : Takes (others.flatMap (fun id => (.op, ",") :: id.spelling) ++ (e.spelling ++ ss))
      (e.spelling ++ ss) (fun ids => ids.map Ident.unplaced = others.map Ident.unplaced)
      (many nextName) := by
    refine takes_many (fun id _ ss _ => takes_nextName id ss) (takes_tok fun t ht => ?_)
    rw [hspelling] at ht
    exact takes_ite_neg (Token.not_isOp (x := x) ht hx rfl) (takes_pure rfl)
  refine takes_bind hnames fun others' hothers' => ?_
  refine takes_bind (h ss (endsType_of_endsFieldType hss)) fun e' he' => takes_pure ⟨?_, he'⟩
  rw [List.map_cons, List.map_cons, unplaced_ident_eq hfirst', hothers']

/-! ### Fields -/

/-- A tag whose characters are shown is read back, and its absence, too. -/
private theorem takes_fieldTag {tag : Option String}
    (htag : ∀ s, tag = some s → Text.allShown s = true) (hss : (firstSpelling ss).1 ≠ .string) :
    Takes (tagSpelling tag ++ ss) ss (· = tag) fieldTag := by
  refine takes_tok fun t ht => ?_
  cases tag with
  | none =>
    refine takes_ite_neg ?_ (takes_pure rfl)
    rw [Token.kind_of_spelling ht, beq_iff_eq]
    exact hss
  | some s =>
    have htext : t.text = Text.quote s := Token.text_of_spelling ht
    refine takes_ite_pos ?_ ?_
    · rw [Token.kind_of_spelling ht]
      rfl
    rw [htext, unquote_quote (htag s rfl)]
    exact takes_advance_bind (takes_pure rfl)

/-- The names and the type of a field are read back before a tag or the end of the field. -/
theorem takes_fieldNames {f : FieldDecl} {n : Nat} (hwritten : f.IsWritten)
    (hlegible : f.type.Legible n) (h : Rereads elem f.type)
    (hss : endsFieldType (firstSpelling ss) = true) :
    Takes ((if f.names.isEmpty then []
        else commaSpelling.intercalate (f.names.map Ident.spelling)) ++
      (f.type.spelling ++ ss)) ss
      (fun r => r.1.map Ident.unplaced = f.names.map Ident.unplaced ∧
        r.2.unplaced = f.type.unplaced)
      (fieldNames elem) := by
  cases hnames : f.names with
  | nil =>
    refine (takes_fieldNames_embedded (hwritten.canEmbed hnames) hlegible h hss).mono ?_
    rintro r ⟨hr, htype⟩
    exact ⟨by rw [hr], htype⟩
  | cons first others => exact takes_fieldNames_named (List.cons_ne_nil first others) hlegible h hss

/-- A field starts with a token that can start a type. -/
private theorem exists_fieldSpelling_eq_cons {f : FieldDecl} {n : Nat}
    (hlegible : f.type.Legible n) :
    ∃ x more, f.spelling = x :: more ∧ Spelling.startsType x = true := by
  obtain ⟨_ | ⟨first, others⟩, type, tag⟩ := f
  · obtain ⟨x, more, hspelling, hx, -⟩ := hlegible.exists_spelling_eq_cons
    refine ⟨x, more ++ tagSpelling tag, ?_, hx⟩
    dsimp only at hspelling
    rw [FieldOf.spelling, fieldSpelling, hspelling]
    rfl
  · rw [FieldOf.spelling, fieldSpelling, commaSpelling]
    dsimp only
    rw [intercalate_cons_eq_flatMap]
    exact ⟨(.ident, first.name), _, rfl, rfl⟩

/-- A field declaration is read with the semicolon after it. -/
theorem takes_nextField {f : FieldDecl} {n : Nat} (hwritten : f.IsWritten)
    (htag : ∀ s, f.tag = some s → Text.allShown s = true) (hlegible : f.type.Legible n)
    (h : Rereads elem f.type) {mid : List Spelling}
    (hss : ss = (.semicolon, ";") :: mid ∨ (firstSpelling ss = (.op, "\x7d") ∧ mid = ss)) :
    Takes (f.spelling ++ ss) mid (fun r => ∃ f', r = some f' ∧ f'.unplaced = f.unplaced)
      (nextField elem) := by
  obtain ⟨x, more, hspelling, hx⟩ := exists_fieldSpelling_eq_cons hlegible
  have hfirst : firstSpelling (f.spelling ++ ss) = x := by
    rw [hspelling]
    rfl
  have hend : firstSpelling ss = (.semicolon, ";") ∨ firstSpelling ss = (.op, "\x7d") := by
    rcases hss with rfl | ⟨hss, -⟩
    · exact .inl rfl
    · exact .inr hss
  have hstring : (firstSpelling ss).1 ≠ .string := by
    rcases hend with hend | hend <;> rw [hend] <;> exact nofun
  -- the type of a field ends before its tag or before the end of the field
  have hends : endsFieldType (firstSpelling (tagSpelling f.tag ++ ss)) = true := by
    cases f.tag with
    | some s => rfl
    | none =>
      change endsFieldType (firstSpelling ss) = true
      rcases hend with hend | hend <;> rw [hend] <;> rfl
  refine takes_bind (takes_skipSemicolons ?_) fun _ _ => takes_tok fun t ht => ?_
  · rw [hfirst]
    exact x.kind_ne_of_startsType hx (by decide)
  rw [hfirst] at ht
  refine takes_ite_neg (Token.not_isOp ht hx rfl) (takes_ite_neg ?_ ?_)
  · rw [Token.kind_of_spelling ht, beq_iff_eq]
    exact x.kind_ne_of_startsType hx (by decide)
  rw [FieldOf.spelling, fieldSpelling, List.append_assoc, List.append_assoc]
  refine takes_bind (takes_fieldNames hwritten hlegible h hends) ?_
  rintro ⟨names, type⟩ ⟨hnames, htype⟩
  refine takes_bind (takes_fieldTag htag hstring) fun tag htag' => ?_
  have hfield : FieldOf.unplaced ⟨names, type, tag⟩ = f.unplaced := by
    dsimp only at hnames htype
    rw [FieldOf.unplaced, hnames, htype, htag', FieldOf.unplaced]
  -- the semicolon is read with the field, and a closing brace is left to the struct type
  rcases hss with rfl | ⟨hss, rfl⟩
  · exact takes_bind (takes_endOfItem ";" mid) fun _ _ => takes_pure ⟨_, rfl, hfield⟩
  · exact takes_bind (takes_endOfItem_brace hss) fun _ _ => takes_pure ⟨_, rfl, hfield⟩

/-- The closing brace ends the fields. -/
theorem takes_nextField_none (rest : List Spelling) :
    Takes ((.op, "\x7d") :: rest) rest (· = none) (nextField elem) := by
  refine takes_bind (takes_skipSemicolons nofun) fun _ _ => takes_tok fun t ht => ?_
  exact takes_ite_pos (Token.isOp_self ht) (takes_advance_bind (takes_pure rfl))

/-- The fields of a struct type are read back one by one. -/
private theorem takes_structBody {fields : List FieldDecl} {n : Nat}
    (hfields : ∀ f ∈ fields, f.IsWritten)
    (htags : ∀ f ∈ fields, ∀ tag, f.tag = some tag → Text.allShown tag = true)
    (hlegible : ∀ f ∈ fields, f.type.Legible n) (h : ∀ f ∈ fields, Rereads elem f.type)
    (rest : List Spelling) :
    Takes ((.op, "\x7b") :: (semicolonSpelling.intercalate (fields.map FieldOf.spelling) ++
        (.op, "\x7d") :: rest)) rest
      (fun fields' => fields'.map FieldOf.unplaced = fields.map FieldOf.unplaced)
      (structBody elem) := by
  refine takes_bind (takes_op _ _) fun _ _ => ?_
  refine takes_many_intercalate (fun f hf => ?_) (fun f hf ss => ?_) (fun f hf => ?_) ?_
  · obtain ⟨x, more, hspelling, -⟩ := exists_fieldSpelling_eq_cons (hlegible f hf)
    rw [hspelling]
    exact List.cons_ne_nil x more
  · exact takes_nextField (hfields f hf) (htags f hf) (hlegible f hf) (h f hf) (.inl rfl)
  · exact takes_nextField (hfields f hf) (htags f hf) (hlegible f hf) (h f hf) (.inr ⟨rfl, rfl⟩)
  · exact takes_nextField_none rest

private theorem rereads_struct (l : Location) {fields : List FieldDecl} {n : Nat}
    (hfields : ∀ f ∈ fields, f.IsWritten)
    (htags : ∀ f ∈ fields, ∀ tag, f.tag = some tag → Text.allShown tag = true)
    (hlegible : ∀ f ∈ fields, f.type.Legible n) (h : ∀ f ∈ fields, Rereads inner f.type) :
    Rereads (typeExprWith elem inner) (.struct l fields) := by
  intro rest _
  rw [TypeExpr.spelling, TypeExpr.spellingFields_eq, List.cons_append, List.cons_append,
    List.append_assoc]
  refine takes_keywordType fun l' => takes_advance_bind ?_
  refine takes_bind (takes_structBody hfields htags hlegible h rest) fun fields' hfields' => ?_
  exact takes_pure (by rw [TypeExpr.unplaced_struct, hfields', TypeExpr.unplaced_struct])

end Parser

/-! ### All types -/

/-- **A legible type expression is read back from its tokens.** -/
theorem TypeExpr.Legible.rereads {n : Nat} {e : TypeExpr} (h : e.Legible n) :
    Parser.Rereads (Parser.typeExpr n) e := by
  -- the level of `Legible` is the one that the parser counts, so each rule takes one off both
  induction h with
  | ident h =>
    rw [Parser.typeExpr_succ]
    exact Parser.rereads_of_isTypeName rfl
  | qualified hpackage h =>
    rw [Parser.typeExpr_succ]
    exact Parser.rereads_of_isTypeName rfl
  | generic hname hbase hne hargs ihbase ihargs =>
    rw [Parser.typeExpr_succ]
    exact Parser.rereads_generic hname hne hargs ihargs
  | pointer l _ ih =>
    rw [Parser.typeExpr_succ]
    exact Parser.rereads_pointer l ih
  | slice l _ ih =>
    rw [Parser.typeExpr_succ]
    exact Parser.rereads_slice l ih
  | array l hlen _ ih =>
    rw [Parser.typeExpr_succ]
    exact Parser.rereads_array l hlen ih
  | map l _ _ ihkey ihvalue =>
    rw [Parser.typeExpr_succ]
    exact Parser.rereads_map l ihkey ihvalue
  | chan l hdir h ih =>
    rw [Parser.typeExpr_succ]
    exact Parser.rereads_chan l hdir h ih
  | @func n type hparams hresults hsole hparam hresult ihparam ihresult =>
    rw [Parser.typeExpr_succ]
    refine Parser.rereads_func hparams.1 hresults.1 (fun p hp => ?_) (fun p hp => ?_) ?_
    · exact Parser.readsParam (hparam p hp) (ihparam p hp)
    · exact Parser.readsParam (fun hlone => hresult p hp (.inr hlone))
        fun hlone => ihresult p hp (.inr hlone)
    · exact fun hbare p hp =>
        ⟨⟨_, hresult p hp (.inl hbare)⟩, ihresult p hp (.inl hbare), hsole hbare p hp⟩
  | struct l hfields htags hfield ih =>
    rw [Parser.typeExpr_succ]
    exact Parser.rereads_struct l hfields htags hfield ih
  | interface l empty =>
    rw [Parser.typeExpr_succ]
    exact Parser.rereads_interface l empty
  | ellipsis l _ ih =>
    rw [Parser.typeExpr_succ]
    exact Parser.rereads_ellipsis l ih

end GoPages

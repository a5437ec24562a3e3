import GoPages.Proofs.Parser.Safety
import GoPages.Proofs.Parser.Yields

/-!
# Where declarations are read

Every declaration of a file has been read from a place in the tokens of the file. `Parser.ReadsAt`
says that a parser reads a value at a place, and the lemmas go from a file down to the parsers of
single declarations:

* `Parser.exists_of_mem_many`: every value of a repeated step is read by one round of it.
* `Parser.exists_of_mem_funcs`: a function is read at its keyword.
* `Parser.exists_of_mem_types`: a type is read in a declaration that starts with its keyword, either
  at the token after the keyword, or inside the parentheses after it.
-/

namespace GoPages

/-! ### Places -/

variable {lexed : Lexed} {c c' : Cursor}

/-- Reading a token moves on by one position. -/
theorem Cursor.IsIn.position_advance (h : c.IsIn lexed) (htok : c.tok.kind ≠ .eof) :
    lexed.position c.advance = lexed.position c + 1 := by
  have hle := h.size_le
  have hlt := Parser.size_advance_lt htok
  have hsize : c.advance.size = c.size - 1 := by
    rw [Cursor.size, Cursor.size, Parser.left_advance, List.length_tail]
  rw [Lexed.position, Lexed.position, hsize]
  omega

namespace Parser

variable {α : Type} {p : Parser α} {a : α}

/-- The parser reads the value at the place `i` of the tokens. -/
def ReadsAt (lexed : Lexed) (p : Parser α) (i : Nat) (a : α) : Prop :=
  ∃ c c', c.IsIn lexed ∧ lexed.position c = i ∧ p c = .ok (a, c')

/-- A stepwise parser stays in the tokens and does not go back. -/
theorem Steps.isIn (hp : p.Steps) (hc : c.IsIn lexed) (h : p c = .ok (a, c')) :
    c'.IsIn lexed ∧ lexed.position c ≤ lexed.position c' := by
  obtain ⟨trace, hrun⟩ := hp c
  exact ⟨(hrun.isIn hc).2 a c' h, Nat.sub_le_sub_left (hp.reads.size_le h) _⟩

/-- Every value of a repeated step is read by one round of it, at a cursor where everything holds
that the rounds keep. -/
theorem exists_of_mem_many {I : Cursor → Prop} {step : Parser (Option α)} {as : List α}
    (hstep : ∀ d, I d → ∀ r d', step d = .ok (r, d') → I d') (hc : I c)
    (h : many step c = .ok (as, c')) : ∀ a ∈ as, ∃ d d', I d ∧ step d = .ok (some a, d') := by
  change manyFrom step c = .ok (as, c') at h
  fun_induction manyFrom step c generalizing as c' with
  | case1 => cases h
  | case2 c c₁ hround =>
    cases h
    exact List.forall_mem_nil _
  | case3 => cases h
  | case4 c a c₁ hround hsize as' c₂ hrest ih =>
    cases h
    exact List.forall_mem_cons.mpr ⟨⟨c, c₁, hc, hround⟩, ih (hstep c hc _ _ hround) hrest⟩
  | case5 => cases h

/-- In a file, the rounds of a repeated step are read one after the other. -/
theorem exists_isIn_of_mem_many {step : Parser (Option α)} (hstep : step.Steps) {as : List α}
    (hc : c.IsIn lexed) (h : many step c = .ok (as, c')) :
    ∀ a ∈ as, ∃ d d', (d.IsIn lexed ∧ lexed.position c ≤ lexed.position d) ∧
      step d = .ok (some a, d') := by
  refine exists_of_mem_many (fun d hd r d' hround => ?_) ⟨hc, le_rfl⟩ h
  obtain ⟨hd', hle⟩ := hstep.isIn hd.1 hround
  exact ⟨hd', hd.2.trans hle⟩

/-! ### Single declarations -/

variable {comments : List Comment}

/-- The doc comment of what starts at the cursor. -/
def docAt (comments : List Comment) (c : Cursor) : Option CommentGroup :=
  docComment comments c.prevLine c.tok.location.line

/-- A name is that of the token at the cursor. -/
private theorem yields_ident_eq {t : Token} :
    Yields (fun c => c.tok = t) (fun id => t.kind = .ident ∧ id = ⟨t.text, t.location⟩) ident := by
  intro c hc htok id c' h
  refine ⟨?_, (yields_ident (h := fun _ => True) c hc trivial id c' h).2⟩
  rw [ident, htok] at h
  split at h
  · next hkind =>
    cases h
    exact ⟨hkind, rfl⟩
  · cases h

/-- A type specification starts with its name, and has the doc comment that it is given. -/
theorem yields_typeSpec_eq (doc : Option CommentGroup) {t : Token} :
    Yields (fun c => c.tok = t)
      (fun spec => (t.kind = .ident ∧ spec.name = ⟨t.text, t.location⟩) ∧ spec.doc = doc)
      (typeSpec doc) := by
  refine yields_bind yields_ident_eq fun name hname => yields_then (steps_look _) fun generic => ?_
  refine yields_join (yields_bind steps_typeParams.yields)
    (yields_bind (steps_pure _).yields) fun params _ => ?_
  refine yields_then steps_tok fun t => yields_optional steps_advance ?_
  exact yields_then (advances_typeExpr _).steps fun type => yields_pure ⟨hname, rfl⟩

/-- What a parser gives, it has read somewhere. -/
theorem Steps.yields_read {h : Cursor → Prop} (hp : p.Steps) :
    Yields h (fun a => ∃ c c', c.HasWords ∧ p c = .ok (a, c')) p :=
  fun c hc hh a c' hok => ⟨⟨c, c', hc, hok⟩, (hp.yields c hc hh a c' hok).2⟩

/-- A function has the doc comment of the place where it is read, and its signature is read. -/
theorem yields_funcDecl_eq {doc : Option CommentGroup} :
    Yields (fun c => docAt comments c = doc)
      (fun decl => decl.doc = doc ∧ ∃ c c', c.HasWords ∧
        signature (typeExpr (typeDepth - 1)) decl.name.location c = .ok (decl.type, c'))
      (funcDecl comments) := by
  refine yields_look fun declDoc => ?_
  by_cases hdoc : declDoc = doc
  · refine yields_then steps_advance fun _ => yields_then steps_receiver fun recv => ?_
    refine yields_then advances_ident.steps fun name => yields_then steps_tok fun t => ?_
    refine yields_join (yields_bind steps_typeParams.yields)
      (yields_bind (steps_pure _).yields) fun generics _ => ?_
    refine yields_bind (steps_signature (advances_typeExpr _) _).yields_read fun type htype => ?_
    refine yields_then steps_tok fun u => yields_optional advances_balanced.steps ?_
    exact yields_then steps_endOfItem fun _ => yields_pure ⟨hdoc, htype⟩
  · exact fun c _ hc => absurd (hc.2.symm.trans hc.1) hdoc

/-! ### Declarations of a file -/

/-- A type of a group is read after the semicolons before it. -/
private theorem nextType_eq_some {groupDoc : Option CommentGroup} {spec : TypeSpec}
    (h : nextType comments groupDoc c = .ok (some spec, c')) :
    ∃ d e, skipSemicolons c = .ok ((), d) ∧
      typeSpec (docAt comments d <|> groupDoc) d = .ok (spec, e) := by
  obtain ⟨⟨⟩, d, hskip, h⟩ := exists_of_bind h
  obtain ⟨_, _, ⟨⟩, h⟩ := exists_of_bind h
  split at h
  · obtain ⟨_, _, -, h⟩ := exists_of_bind h
    cases h
  split at h
  · cases h
  obtain ⟨_, _, ⟨⟩, h⟩ := exists_of_bind h
  obtain ⟨spec', e, hspec, h⟩ := exists_of_bind h
  obtain ⟨_, _, -, h⟩ := exists_of_bind h
  cases h
  exact ⟨d, e, hskip, hspec⟩

/-- A type declaration has one type, or a group of them in parentheses. -/
theorem typeDecl_eq_ok {specs : List TypeSpec} (h : typeDecl comments c = .ok (specs, c')) :
    (c.advance.tok.isOp "(" = true ∧
      ∃ d, many (nextType comments (docAt comments c)) c.advance.advance = .ok (specs, d)) ∨
    c.advance.tok.isOp "(" = false ∧
      ∃ spec d, typeSpec (docAt comments c) c.advance = .ok (spec, d) ∧ specs = [spec] := by
  obtain ⟨_, _, ⟨⟩, h⟩ := exists_of_bind h
  obtain ⟨_, _, ⟨⟩, h⟩ := exists_of_bind h
  obtain ⟨_, _, ⟨⟩, h⟩ := exists_of_bind h
  split at h
  · next hop =>
    obtain ⟨_, _, ⟨⟩, h⟩ := exists_of_bind h
    obtain ⟨specs', d, hspecs, h⟩ := exists_of_bind h
    obtain ⟨_, _, -, h⟩ := exists_of_bind h
    cases h
    exact .inl ⟨hop, d, hspecs⟩
  · next hop =>
    obtain ⟨spec, d, hspec, h⟩ := exists_of_bind h
    obtain ⟨_, _, ⟨⟩, h⟩ := exists_of_bind h
    obtain ⟨_, _, -, h⟩ := exists_of_bind h
    cases h
    exact .inr ⟨Bool.eq_false_iff.mpr hop, spec, d, hspec, rfl⟩

/-- A declaration of types or of a function is read at its keyword. -/
theorem nextDecl_eq_some {decl : Decl} (h : nextDecl comments c = .ok (some decl, c')) :
    ∃ d, skipSemicolons c = .ok ((), d) ∧
      ((d.tok.isKeyword "type" = true ∧
          ∃ specs e, typeDecl comments d = .ok (specs, e) ∧ decl = .types specs) ∨
        (d.tok.isKeyword "func" = true ∧
          ∃ func e, funcDecl comments d = .ok (func, e) ∧ decl = .func func) ∨
        decl = .values) := by
  obtain ⟨⟨⟩, d, hskip, h⟩ := exists_of_bind h
  obtain ⟨_, _, ⟨⟩, h⟩ := exists_of_bind h
  refine ⟨d, hskip, ?_⟩
  split at h
  · cases h
  split at h
  · next htype =>
    obtain ⟨specs, e, hspecs, h⟩ := exists_of_bind h
    cases h
    exact .inl ⟨htype, specs, _, hspecs, rfl⟩
  split at h
  · next hfunc =>
    obtain ⟨func, e, hdecl, h⟩ := exists_of_bind h
    cases h
    exact .inr (.inl ⟨hfunc, func, _, hdecl, rfl⟩)
  split at h
  · obtain ⟨_, _, -, h⟩ := exists_of_bind h
    cases h
    exact .inr (.inr rfl)
  split at h <;> cases h

/-- Every declaration of a file is read at a place in its tokens. -/
theorem exists_decls_of_sourceFile {name : String} {file : SourceFile}
    (hc : c.IsIn lexed) (h : sourceFile name comments c = .ok (file, c')) :
    ∃ decls : List Decl, file.types = decls.flatMap Decl.typeSpecs ∧
      file.funcs = decls.filterMap Decl.funcDecl? ∧
      ∀ decl ∈ decls, ∃ d d', d.IsIn lexed ∧ nextDecl comments d = .ok (some decl, d') := by
  obtain ⟨package, c₁, hpackage, h⟩ := exists_of_bind h
  obtain ⟨_, c₂, hskip, h⟩ := exists_of_bind h
  obtain ⟨imports, c₃, himports, h⟩ := exists_of_bind h
  obtain ⟨decls, c₄, hdecls, h⟩ := exists_of_bind h
  cases h
  have hc₁ := (steps_packageClause.isIn hc hpackage).1
  have hc₂ := (steps_skipSemicolons.isIn hc₁ hskip).1
  have hc₃ := ((steps_many isRound_nextImportDecl).isIn hc₂ himports).1
  refine ⟨decls, rfl, rfl, fun decl hdecl => ?_⟩
  obtain ⟨d, d', ⟨hd, -⟩, hread⟩ :=
    exists_isIn_of_mem_many (isRound_nextDecl comments).steps hc₃ hdecls decl hdecl
  exact ⟨d, d', hd, hread⟩

/-- A function is read at its keyword. -/
theorem exists_of_mem_funcs {name : String} {file : SourceFile} (hc : c.IsIn lexed)
    (h : sourceFile name comments c = .ok (file, c')) {func : FuncDecl}
    (hfunc : func ∈ file.funcs) :
    ∃ d d', d.IsIn lexed ∧ d.tok.isKeyword "func" = true ∧
      funcDecl comments d = .ok (func, d') := by
  obtain ⟨decls, -, hfuncs, hdecls⟩ := exists_decls_of_sourceFile hc h
  rw [hfuncs, List.mem_filterMap] at hfunc
  obtain ⟨decl, hdecl, hsome⟩ := hfunc
  obtain ⟨b, b', hb, hread⟩ := hdecls decl hdecl
  obtain ⟨d, hskip, hcases⟩ := nextDecl_eq_some hread
  have hd := (steps_skipSemicolons.isIn hb hskip).1
  rcases hcases with ⟨-, specs, d', -, rfl⟩ | ⟨hkeyword, func', d', hfunc', rfl⟩ | rfl
  · cases hsome
  · cases hsome
    exact ⟨d, d', hd, hkeyword, hfunc'⟩
  · cases hsome

/-- A type is read in a declaration that starts with its keyword. -/
theorem exists_of_mem_types {name : String} {file : SourceFile} (hc : c.IsIn lexed)
    (h : sourceFile name comments c = .ok (file, c')) {spec : TypeSpec}
    (hspec : spec ∈ file.types) :
    ∃ d specs d', d.IsIn lexed ∧ d.tok.isKeyword "type" = true ∧
      typeDecl comments d = .ok (specs, d') ∧ spec ∈ specs := by
  obtain ⟨decls, htypes, -, hdecls⟩ := exists_decls_of_sourceFile hc h
  rw [htypes, List.mem_flatMap] at hspec
  obtain ⟨decl, hdecl, hmem⟩ := hspec
  obtain ⟨b, b', hb, hread⟩ := hdecls decl hdecl
  obtain ⟨d, hskip, hcases⟩ := nextDecl_eq_some hread
  have hd := (steps_skipSemicolons.isIn hb hskip).1
  rcases hcases with ⟨hkeyword, specs, d', hspecs, rfl⟩ | ⟨-, func, d', -, rfl⟩ | rfl
  · exact ⟨d, specs, d', hd, hkeyword, hspecs, hmem⟩
  · cases hmem
  · cases hmem

/-- In a declaration of types, a type is read at the token after the keyword, or inside the
parentheses after it. -/
theorem exists_of_mem_typeDecl (hc : c.IsIn lexed) (hkeyword : c.tok.isKeyword "type" = true)
    {specs : List TypeSpec} (h : typeDecl comments c = .ok (specs, c')) {spec : TypeSpec}
    (hspec : spec ∈ specs) :
    (c.advance.tok.isOp "(" = false ∧
      ∃ d, typeSpec (docAt comments c) c.advance = .ok (spec, d)) ∨
    c.advance.tok.isOp "(" = true ∧ ∃ d d', d.IsIn lexed ∧
      lexed.position c + 1 < lexed.position d ∧
        typeSpec (docAt comments d <|> docAt comments c) d = .ok (spec, d') := by
  rcases typeDecl_eq_ok h with ⟨hop, e, hmany⟩ | ⟨hop, spec', e, hread, rfl⟩
  · have hnext := hc.position_advance (kind_ne_eof_of_isKeyword hkeyword)
    have hafter := hc.advance.position_advance (kind_ne_eof_of_isOp hop)
    obtain ⟨b, b', ⟨hb, hle⟩, hround⟩ :=
      exists_isIn_of_mem_many (isRound_nextType _ _).steps hc.advance.advance hmany spec hspec
    obtain ⟨d, d', hskip, hread⟩ := nextType_eq_some hround
    obtain ⟨hd, hle'⟩ := steps_skipSemicolons.isIn hb hskip
    exact .inr ⟨hop, d, d', hd, by omega, hread⟩
  · obtain rfl := List.mem_singleton.mp hspec
    exact .inl ⟨hop, e, hread⟩

end Parser

end GoPages

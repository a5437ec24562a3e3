import GoPages.Proofs.Package.Lines
import GoPages.Proofs.Parser.Docs
import GoPages.Proofs.Parser.Origins
import GoPages.Proofs.Token.Comments

/-!
# Documented declarations

The doc comment of a declaration is found among the comments of the file by lines alone. In a file
these lines say where a comment stands: `Lexed.Documents` says that the comments found for the token
at a place are the longest run that can document what starts there, that there are some whenever a
comment ends on the line above and starts after the line of the token before, and that no token
stands between them and what they document.

* `Cursor.IsIn.documents`: at every place in a file, what is found documents what starts there.
* `SourceFile.isDocumented_of_parse`: so every function is documented at its keyword, a type that is
  declared alone at the keyword, and a type of a group at its name, with the comments above the
  keyword of the group if it has none of its own.
* `Lexed.Documents.eq_of_isAloneAbove`: a comment that stands alone above a token documents what
  starts there.
-/

namespace GoPages

/-- The line of the token before the place `i`, zero if there is none. -/
def Lexed.lineBefore (lexed : Lexed) (i : Nat) : Nat := lastLine (lexed.allTokens.take i)

/-- The comments `own` are those that document what starts with the token `t` at the place `i`. -/
structure Lexed.Documents (lexed : Lexed) (i : Nat) (t : Token) (own : Option CommentGroup) :
    Prop where
  tok : lexed.allTokens[i]? = some t
  isSome_iff : own.isSome ↔ ∃ c ∈ lexed.comments,
    lexed.lineBefore i < c.location.line ∧ c.endLine + 1 = t.location.line
  run : ∀ group, own = some group → ∃ run first,
    IsLongestDocRun lexed.comments (lexed.lineBefore i) t.location.line run ∧
      run.head? = some first ∧ group = ⟨run.map Comment.text, first.location⟩ ∧
      -- no token stands between the first comment and the token
      ∀ u ∈ lexed.allTokens, u.location.line < first.location.line ∨ t.location.AtMost u.location

variable {file source : String} {lexed : Lexed}

private theorem areInOrder_comments (h : tokenize file source = .ok lexed) :
    AreInOrder lexed.comments :=
  ⟨(Lexed.pairwise_comments h).1, (Lexed.pairwise_comments h).2⟩

/-- Before a place stand only tokens up to the line before it, and from it on only tokens that do
not stand before its own. -/
theorem Lexed.line_le_or_atMost (h : tokenize file source = .ok lexed) {i : Nat} {t : Token}
    (ht : lexed.allTokens[i]? = some t) {u : Token} (hu : u ∈ lexed.allTokens) :
    u.location.line ≤ lexed.lineBefore i ∨ t.location.AtMost u.location := by
  have hpairwise := Lexed.pairwise_allTokens h
  obtain ⟨hi, rfl⟩ := List.getElem?_eq_some_iff.mp ht
  obtain ⟨j, hj, rfl⟩ := List.mem_iff_getElem.mp hu
  rcases lt_trichotomy j i with hlt | rfl | hlt
  · -- the token is the one before the place, or it stands before that one
    have hlast : lexed.lineBefore i = (lexed.allTokens[i - 1]).location.line := by
      rw [lineBefore, lastLine, List.getLast?_take, if_neg (by omega),
        List.getElem?_eq_getElem (by omega)]
      rfl
    rw [hlast]
    rcases Nat.lt_or_ge j (i - 1) with hlt' | hge
    · exact .inl (List.pairwise_iff_getElem.mp hpairwise j (i - 1) hj (by omega) hlt').line_le
    · obtain rfl : j = i - 1 := by omega
      exact .inl le_rfl
  · exact .inr (.inl rfl)
  · exact .inr (List.pairwise_iff_getElem.mp hpairwise i j hi hj hlt)

/-- What is found at a place in a file documents what starts there. -/
theorem Cursor.IsIn.documents (h : tokenize file source = .ok lexed) {c : Cursor}
    (hc : c.IsIn lexed) :
    lexed.Documents (lexed.position c) c.tok (Parser.docAt lexed.comments c) := by
  have hordered := areInOrder_comments h
  have hrange := hc.inRange
  have hline : c.prevLine = lexed.lineBefore (lexed.position c) := hrange.prevLine
  rw [Parser.docAt, hline]
  refine ⟨hrange.tok, ?_, fun group hgroup => ?_⟩
  · rw [Option.isSome_iff_ne_none, ne_eq, docComment_eq_none_iff hordered]
    simp only [not_forall, not_le, exists_prop]
    exact exists_congr fun c => and_congr_right fun _ => and_comm
  · obtain ⟨run, first, hrun, hhead, heq⟩ := docComment_eq_some hordered hgroup
    refine ⟨run, first, hrun, hhead, heq, fun u hu => ?_⟩
    obtain ⟨first', hhead', hfirst⟩ := hrun.first
    obtain rfl := Option.some.inj (hhead.symm.trans hhead')
    exact (Lexed.line_le_or_atMost h hrange.tok hu).imp_left fun hle => by omega

/-- The names that are left are read from their texts. -/
theorem Cursor.IsIn.hasWords (h : tokenize file source = .ok lexed) {c : Cursor}
    (hc : c.IsIn lexed) : c.HasWords := by
  intro t ht
  rw [hc.left] at ht
  exact Cursor.hasWords_start h t (List.mem_of_mem_drop ht)

/-! ### Declarations -/

/-- The token is the name. -/
def Token.IsName (t : Token) (id : Ident) : Prop :=
  t.kind = .ident ∧ id = ⟨t.text, t.location⟩

/-- A function has the comments that document its keyword. -/
def Lexed.DocumentsFunc (lexed : Lexed) (func : FuncDecl) : Prop :=
  ∃ i t, (Parser.funcDecl lexed.comments).ReadsAt lexed i func ∧ t.isKeyword "func" = true ∧
    lexed.Documents i t func.doc

/-- A type that is declared alone has the comments that document the keyword before its name. A type
of a group has the comments that document its name, or else those that document the keyword of the
group. -/
def Lexed.DocumentsType (lexed : Lexed) (spec : TypeSpec) : Prop :=
  ∃ k t next specs ofDecl, (Parser.typeDecl lexed.comments).ReadsAt lexed k specs ∧ spec ∈ specs ∧
    t.isKeyword "type" = true ∧ lexed.Documents k t ofDecl ∧ lexed.allTokens[k + 1]? = some next ∧
    ((next.isOp "(" = false ∧ next.IsName spec.name ∧ spec.doc = ofDecl ∧
        (Parser.typeSpec spec.doc).ReadsAt lexed (k + 1) spec) ∨
      next.isOp "(" = true ∧ ∃ i u own, k + 1 < i ∧ u.IsName spec.name ∧ lexed.Documents i u own ∧
        spec.doc = (own <|> ofDecl) ∧ (Parser.typeSpec spec.doc).ReadsAt lexed i spec)

section Declarations

variable (h : tokenize file source = .ok lexed)
include h

/-- A function of a file is documented by what stands above its keyword. -/
theorem documentsFunc {parsed : SourceFile} {name : String} {c : Cursor}
    (hparsed : Parser.sourceFile name lexed.comments (.start lexed) = .ok (parsed, c))
    {func : FuncDecl} (hfunc : func ∈ parsed.funcs) : lexed.DocumentsFunc func := by
  obtain ⟨d, d', hd, hkeyword, hread⟩ := Parser.exists_of_mem_funcs (.start lexed) hparsed hfunc
  have hdoc := (Parser.yields_funcDecl_eq d (hd.hasWords h) rfl func d' hread).1.1
  exact ⟨lexed.position d, d.tok, ⟨d, d', hd, rfl, hread⟩, hkeyword, hdoc ▸ hd.documents h⟩

/-- A type of a file is documented by what stands above its name or above the keyword of its group.
-/
theorem documentsType {parsed : SourceFile} {name : String} {c : Cursor}
    (hparsed : Parser.sourceFile name lexed.comments (.start lexed) = .ok (parsed, c))
    {spec : TypeSpec} (hspec : spec ∈ parsed.types) : lexed.DocumentsType spec := by
  obtain ⟨d, specs, d', hd, hkeyword, hread, hmem⟩ :=
    Parser.exists_of_mem_types (.start lexed) hparsed hspec
  have hnext := hd.position_advance (Parser.kind_ne_eof_of_isKeyword hkeyword)
  refine ⟨lexed.position d, d.tok, d.advance.tok, specs, Parser.docAt lexed.comments d,
    ⟨d, d', hd, rfl, hread⟩, hmem, hkeyword, hd.documents h, hnext ▸ hd.advance.inRange.tok, ?_⟩
  rcases Parser.exists_of_mem_typeDecl hd hkeyword hread hmem with
    ⟨hop, e, hread'⟩ | ⟨hop, e, e', he, hlt, hread'⟩
  · obtain ⟨hname, hdoc⟩ :=
      (Parser.yields_typeSpec_eq _ d.advance (hd.advance.hasWords h) rfl spec e hread').1
    exact .inl ⟨hop, hname, hdoc, d.advance, e, hd.advance, hnext, hdoc ▸ hread'⟩
  · obtain ⟨hname, hdoc⟩ := (Parser.yields_typeSpec_eq _ e (he.hasWords h) rfl spec e' hread').1
    exact .inr ⟨hop, lexed.position e, e.tok, _, hlt, hname, he.documents h, hdoc, e, e', he, rfl,
      hdoc ▸ hread'⟩

end Declarations

/-- **Doc comments.** Every function and every type of a file has the comments that document it. -/
theorem SourceFile.isDocumented_of_parse {name source : String} {file : SourceFile}
    (h : SourceFile.parse name source = .ok file) :
    ∃ lexed, tokenize name source = .ok lexed ∧ (∀ func ∈ file.funcs, lexed.DocumentsFunc func) ∧
      ∀ spec ∈ file.types, lexed.DocumentsType spec := by
  rw [parse] at h
  split at h
  · cases h
  · next lexed htokens =>
    split at h
    · cases h
    · next hparsed =>
      cases h
      exact ⟨lexed, htokens, fun _ => documentsFunc htokens hparsed,
        fun _ => documentsType htokens hparsed⟩

/-- A file with comments before its declarations, of which not all document one. -/
def commentedSource : String :=
  "package p\n\n// T is a number,\n/* and\nnot more */\ntype T int\n\n" ++
    "var n T = 1 // on the line of the token before\ntype (\n\t// A is a number\n\tA T\n" ++
    "\tB T // at the end of its line\n)\n\n// before a blank line\n\nfunc F() \x7b\x7d\n"

set_option maxRecDepth 100000 in
/-- Of the declarations of this file, the first type has two comments, one type of the group has a
comment of its own, and the others have none. -/
theorem SourceFile.isDocumented_commentedSource :
    ∃ file, SourceFile.parse "p.go" commentedSource = .ok file ∧
      (file.types.map fun spec => spec.doc.map CommentGroup.comments) =
        [some ["// T is a number,", "/* and\nnot more */"], some ["// A is a number"], none] ∧
      (file.funcs.map fun func => func.doc.map CommentGroup.comments) = [none] ∧
      ∃ lexed, tokenize "p.go" commentedSource = .ok lexed ∧
        (∀ func ∈ file.funcs, lexed.DocumentsFunc func) ∧
          ∀ spec ∈ file.types, lexed.DocumentsType spec := by
  have hall : (SourceFile.parse "p.go" commentedSource).toOption.any (fun file =>
      (file.types.map fun spec => spec.doc.map CommentGroup.comments) ==
        [some ["// T is a number,", "/* and\nnot more */"], some ["// A is a number"], none] &&
      (file.funcs.map fun func => func.doc.map CommentGroup.comments) == [none]) = true := by
    rw [SourceFile.parse_eq_parseChars, ← Text.chars_eq_toList]
    decide +kernel
  cases h : SourceFile.parse "p.go" commentedSource with
  | error e =>
    rw [h] at hall
    cases hall
  | ok file =>
    rw [h, Except.toOption, Option.any_some, Bool.and_eq_true, beq_iff_eq, beq_iff_eq] at hall
    exact ⟨file, rfl, hall.1, hall.2, SourceFile.isDocumented_of_parse h⟩

/-! ### Comments that stand alone -/

/-- The comment stands alone above the token at the place `i`: it ends on the line above, after the
line of the token before, and the comments before it end further above. -/
structure Lexed.IsAloneAbove (lexed : Lexed) (i : Nat) (t : Token) (c : Comment) : Prop where
  above : c.endLine + 1 = t.location.line
  after : lexed.lineBefore i < c.location.line
  alone : ∃ before later, lexed.comments = before ++ c :: later ∧
    (∀ d ∈ before, d.endLine + 1 < c.location.line) ∧ ∀ d ∈ later, c.endLine < d.location.line

/-- A comment that stands alone documents what is below it. -/
theorem Lexed.Documents.eq_of_isAloneAbove (h : tokenize file source = .ok lexed) {i : Nat}
    {t : Token} {own : Option CommentGroup} (hdoc : lexed.Documents i t own) {c : Comment}
    (hc : lexed.IsAloneAbove i t c) : own = some ⟨[c.text], c.location⟩ := by
  obtain ⟨before, later, hsplit, hbefore, hlater⟩ := hc.alone
  have hmem : c ∈ lexed.comments := by simp [hsplit]
  obtain ⟨group, rfl⟩ := Option.isSome_iff_exists.mp
    (hdoc.isSome_iff.mpr ⟨c, hmem, hc.after, hc.above⟩)
  obtain ⟨run, first, hrun, hhead, rfl, -⟩ := hdoc.run group rfl
  obtain ⟨earlier, later', hsplit', hlater'⟩ := hrun.consecutive
  obtain ⟨last, hlast, hline⟩ := hrun.last
  obtain ⟨init, rfl⟩ := List.getLast?_eq_some_iff.mp hlast
  have heq : (earlier ++ init) ++ last :: later' = before ++ c :: later := by
    rw [← hsplit, hsplit', List.append_assoc, List.append_assoc, List.append_assoc]
    rfl
  -- the run ends with the comment, which is the last one that ends on the line above
  have hends : later' = later := by
    refine eq_of_append_cons_eq heq hline hc.above hlater' fun d hd => ?_
    have hlt := hlater d hd
    have hle := (areInOrder_comments h).ends d (by simp [hsplit, hd])
    have habove := hc.above
    omega
  rw [hends, List.append_cons, List.append_cons before] at heq
  obtain ⟨hinit, rfl⟩ := List.append_singleton_inj.mp (List.append_cancel_right heq)
  -- and it starts with it, since the comment before it ends further above
  rcases List.eq_nil_or_concat' init with rfl | ⟨init', d, rfl⟩
  · obtain rfl := Option.some.inj hhead
    rfl
  · have hlt := hbefore d (by rw [← hinit]; simp)
    have hchain := hrun.neighbours
    rw [List.isChain_append] at hchain
    have hle := hchain.2.2 d (by simp) last rfl
    omega

/-! ### Where declarations start -/

/-- The function is read at the token, its keyword. -/
structure Lexed.StartsFunc (lexed : Lexed) (i : Nat) (t : Token) (func : FuncDecl) : Prop where
  keyword : t.isKeyword "func" = true
  read : (Parser.funcDecl lexed.comments).ReadsAt lexed i func

/-- The type is declared alone with the token as its keyword, or in a group with the token as its
name. -/
def Lexed.StartsType (lexed : Lexed) (i : Nat) (t : Token) (spec : TypeSpec) : Prop :=
  ∃ k keyword next specs, (Parser.typeDecl lexed.comments).ReadsAt lexed k specs ∧ spec ∈ specs ∧
    lexed.allTokens[k]? = some keyword ∧ keyword.isKeyword "type" = true ∧
    lexed.allTokens[k + 1]? = some next ∧
    (next.isOp "(" = false ∧ i = k ∧ (Parser.typeSpec spec.doc).ReadsAt lexed (k + 1) spec ∨
      next.isOp "(" = true ∧ k + 1 < i ∧ t.IsName spec.name ∧
        (Parser.typeSpec spec.doc).ReadsAt lexed i spec)

/-- A comment that stands alone above a function documents it. -/
theorem Lexed.DocumentsFunc.exists_starts (h : tokenize file source = .ok lexed) {func : FuncDecl}
    (hfunc : lexed.DocumentsFunc func) :
    ∃ i t, lexed.allTokens[i]? = some t ∧ lexed.StartsFunc i t func ∧
      ∀ c, lexed.IsAloneAbove i t c → func.doc = some ⟨[c.text], c.location⟩ := by
  obtain ⟨i, t, hread, hkeyword, hdoc⟩ := hfunc
  exact ⟨i, t, hdoc.tok, ⟨hkeyword, hread⟩, fun c hc => hdoc.eq_of_isAloneAbove h hc⟩

/-- A comment that stands alone above a type documents it. -/
theorem Lexed.DocumentsType.exists_starts (h : tokenize file source = .ok lexed) {spec : TypeSpec}
    (hspec : lexed.DocumentsType spec) :
    ∃ i t, lexed.allTokens[i]? = some t ∧ lexed.StartsType i t spec ∧
      ∀ c, lexed.IsAloneAbove i t c → spec.doc = some ⟨[c.text], c.location⟩ := by
  obtain ⟨k, t, next, specs, ofDecl, hspecs, hmem, hkeyword, hdoc, hnext, hcases⟩ := hspec
  rcases hcases with ⟨hop, -, heq, hread⟩ | ⟨hop, i, u, own, hlt, hname, hown, heq, hread⟩
  · exact ⟨k, t, hdoc.tok, ⟨k, t, next, specs, hspecs, hmem, hdoc.tok, hkeyword, hnext,
      .inl ⟨hop, rfl, hread⟩⟩, fun c hc => heq.trans (hdoc.eq_of_isAloneAbove h hc)⟩
  · refine ⟨i, u, hown.tok, ⟨k, t, next, specs, hspecs, hmem, hdoc.tok, hkeyword, hnext,
      .inr ⟨hop, hlt, hname, hread⟩⟩, fun c hc => ?_⟩
    rw [heq, hown.eq_of_isAloneAbove h hc]
    rfl

end GoPages

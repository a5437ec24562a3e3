import GoPages.Proofs.Package.Lines
import GoPages.Proofs.Reread.Fields

/-!
# Type expressions are read back from their text

`TypeExpr.declaration` is a file that declares a type expression as an alias, written as
`TypeExpr.render` writes it. For a type expression of a file, this file can be read and declares the
same type expression, up to places, if no part of it is one whose text means something else
(`TypeExpr.isClear`) and if it nests no deeper than a declared type may
(`SourceFile.parse_declaration`).

Without the first condition this fails: a channel of channels from which values are received is
written without the parentheses that it needs (`not_forall_parse_declaration`).
-/

namespace GoPages

/-- The text of a file that declares the type expression as an alias. -/
def TypeExpr.declaration (e : TypeExpr) : String := "package p\ntype X = " ++ e.render

/-- The name is declared as an alias of the type expression, up to places. -/
structure TypeSpec.IsAliasOf (spec : TypeSpec) (name : String) (e : TypeExpr) : Prop where
  name : spec.name.name = name
  isAlias : spec.isAlias = true
  type : spec.type.unplaced = e.unplaced

/-! ### The tokens of the declaration -/

/-- The tokens of the declaration before those of the type expression. -/
def headSpelling : List Spelling :=
  [(.keyword, "package"), (.ident, "p"), (.semicolon, "\n"), (.keyword, "type"), (.ident, "X"),
    (.op, "=")]

/-- The text of the declaration is cut into its tokens. -/
private theorem TypeExpr.Legible.spells_declaration {n : Nat} {e : TypeExpr} (h : e.Legible n) :
    Spells false e.declaration.toList (headSpelling ++ (e.spelling ++ [(.semicolon, "\n")])) := by
  have hp : Lexeme.IsWhole ⟨.token .ident, "p".toList⟩ := ⟨'p', [], rfl, rfl⟩
  have hX : Lexeme.IsWhole ⟨.token .ident, "X".toList⟩ := ⟨'X', [], rfl, rfl⟩
  -- the text is put together from its end, each word in front of what follows it
  have htype := h.writes false [] [(.semicolon, "\n")] endsWord_nil (.nil true)
  rw [List.append_nil] at htype
  have htext : e.declaration.toList = "package".toList ++ ' ' :: ("p".toList ++ '\n' ::
      ("type".toList ++ ' ' :: ("X".toList ++ ' ' :: ("=".toList ++ ' ' :: e.render.toList)))) :=
    String.toList_append
  have hequals : Spells true ("=".toList ++ ' ' :: e.render.toList)
      ((.op, "=") :: (e.spelling ++ [(.semicolon, "\n")])) := by
    refine .operator (by decide) (by decide) (by decide) (fun d hd => ?_) (.blank htype)
    rw [List.head?_cons, Option.some.injEq] at hd
    subst hd
    decide
  have hname : Spells false ("X".toList ++ ' ' :: ("=".toList ++ ' ' :: e.render.toList)) _ :=
    .ident hX (endsWord_cons (by decide) _) (.blank hequals)
  have hkeyword : Spells false ("type".toList ++ ' ' :: _) _ :=
    .keyword (show "type" ∈ keywords by decide) (endsWord_cons (by decide) _) (.blank hname)
  have hpackage : Spells false ("p".toList ++ '\n' :: _) _ :=
    .ident hp (endsWord_cons (by decide) _) (.newline hkeyword)
  rw [htext]
  exact .keyword (show "package" ∈ keywords by decide) (endsWord_cons (by decide) _)
    (.blank hpackage)

/-! ### The declaration is read -/

namespace Parser

private theorem takes_packageClause (name : String) (ss : List Spelling) :
    Takes ((.keyword, "package") :: (.ident, name) :: (.semicolon, "\n") :: ss) ss
      (fun id => id.name = name) packageClause := by
  refine takes_bind (takes_skipSemicolons nofun) fun _ _ => takes_tok fun t ht => ?_
  refine takes_ite_pos (Token.isKeyword_of_spelling ht "package") (takes_advance_bind ?_)
  refine takes_bind (takes_ident name _) fun id hid => ?_
  exact takes_bind (takes_endOfItem "\n" ss) fun _ _ => takes_pure hid

/-- Type parameters start with a bracket. -/
theorem startsTypeParams_eq_false {c : Cursor} (h : firstSpelling c.spellings ≠ (.op, "[")) :
    startsTypeParams c = false := by
  have hnoBracket : ¬ c.tok.isOp "[" = true := mt (Token.isOp_iff_of_spelling c.spelling_tok _).mp h
  simp [startsTypeParams, hnoBracket]

/-- The alias is read back with its type. -/
private theorem takes_typeSpec {e : TypeExpr} (h : Rereads (typeExpr typeDepth) e)
    (doc : Option CommentGroup) (name : String) {rest : List Spelling}
    (hrest : Spelling.endsType (firstSpelling rest) = true) :
    Takes ((.ident, name) :: (.op, "=") :: (e.spelling ++ rest)) rest
      (fun spec => spec.IsAliasOf name e) (typeSpec doc) := by
  refine takes_bind (takes_ident name _) fun id hid => ?_
  refine takes_look_eq (a := false) (fun c hc => startsTypeParams_eq_false ?_) ?_
  · rw [hc]
    simp [firstSpelling]
  refine takes_ite_neg Bool.false_ne_true (takes_bind (takes_pure rfl) fun params hparams => ?_)
  refine takes_tok fun t ht => ?_
  have halias : t.isOp "=" = true := Token.isOp_self ht
  refine takes_ite_pos halias (takes_advance_bind ?_)
  refine takes_bind (h rest hrest) fun type htype => takes_pure ⟨hid, halias, htype⟩

section OneType

variable {ss : List Spelling} {P : TypeSpec → Prop} (hss : firstSpelling ss ≠ (.op, "("))
  (h : ∀ doc, Takes ss [(.semicolon, "\n")] P (typeSpec doc))
include hss h

/-- The declaration of a type is read with the semicolon after it. -/
theorem takes_typeDecl (comments : List Comment) :
    Takes ((.keyword, "type") :: ss) [] (fun specs => ∃ spec, specs = [spec] ∧ P spec)
      (typeDecl comments) := by
  refine takes_look_any fun doc => takes_advance_bind ?_
  refine takes_tok fun t ht => takes_ite_neg ?_ (takes_bind (h doc) fun spec hspec => ?_)
  · rw [Token.isOp_iff_of_spelling ht]
    exact hss
  · refine takes_bind (takes_pure rfl) ?_
    rintro _ rfl
    exact takes_bind (takes_endOfItem "\n" []) fun _ _ => takes_pure ⟨spec, rfl, hspec⟩

/-- One declaration is read, and nothing comes after it. -/
private theorem takes_nextDecl (comments : List Comment) :
    Takes ((.keyword, "type") :: ss) []
      (fun r => ∃ decl, r = some decl ∧ ∃ spec, decl = .types [spec] ∧ P spec)
      (nextDecl comments) := by
  refine takes_bind (takes_skipSemicolons nofun) fun _ _ => takes_tok fun t ht => ?_
  have hkind : t.kind = .keyword := Token.kind_of_spelling ht
  refine takes_ite_neg (by simp [hkind]) (takes_ite_pos (Token.isKeyword_of_spelling ht "type") ?_)
  refine takes_bind (takes_typeDecl hss h comments) ?_
  rintro _ ⟨spec, rfl, hspec⟩
  exact takes_pure ⟨_, rfl, spec, rfl, hspec⟩

end OneType

private theorem takes_nextDecl_none (comments : List Comment) :
    Takes [] [] (· = none) (nextDecl comments) := by
  refine takes_bind (takes_skipSemicolons nofun) fun _ _ => takes_tok fun t ht => ?_
  have hkind : t.kind = .eof := Token.kind_of_spelling ht
  exact takes_ite_pos (by simp [hkind]) (takes_pure rfl)

/-- Other keywords start no import. -/
private theorem takes_nextImportDecl_none {ss : List Spelling}
    (h : firstSpelling ss ≠ (.keyword, "import")) : Takes ss ss (· = none) nextImportDecl := by
  refine takes_tok fun t ht => takes_ite_neg ?_ (takes_pure rfl)
  rw [Token.isKeyword_of_spelling ht, beq_iff_eq]
  exact h

/-- A file that declares one type is read. -/
theorem takes_sourceFile {ss : List Spelling} {P : TypeSpec → Prop}
    (hss : firstSpelling ss ≠ (.op, "("))
    (h : ∀ doc, Takes ss [(.semicolon, "\n")] P (typeSpec doc)) (name : String)
    (comments : List Comment) :
    Takes ((.keyword, "package") :: (.ident, "p") :: (.semicolon, "\n") :: (.keyword, "type") :: ss)
      [] (fun file => ∃ spec, file.types = [spec] ∧ P spec) (sourceFile name comments) := by
  refine takes_bind (takes_packageClause "p" _) fun package _ => ?_
  refine takes_bind (takes_skipSemicolons nofun) fun _ _ => ?_
  refine takes_bind (takes_many_nil (takes_nextImportDecl_none ?_)) ?_
  · simp [firstSpelling]
  rintro _ rfl
  refine takes_bind (takes_many_cons (takes_nextDecl hss h comments) (Nat.succ_pos _)
    (takes_many_nil (takes_nextDecl_none comments))) ?_
  rintro _ ⟨_, _, rfl, ⟨spec, rfl, hspec⟩, rfl⟩
  exact takes_pure ⟨spec, rfl, hspec⟩

end Parser

/-- A text is read as its tokens are. -/
theorem SourceFile.exists_parse_eq_ok {name source : String} {lexed : Lexed} {ss : List Spelling}
    {P : SourceFile → Prop} (h : tokenize name source = .ok lexed)
    (hss : lexed.tokens.map Token.spelling = ss)
    (hfile : Parser.Takes ss [] P (Parser.sourceFile name lexed.comments)) :
    ∃ file, SourceFile.parse name source = .ok file ∧ P file := by
  obtain ⟨file, c, hok, -, hP⟩ := hfile (Cursor.start lexed) hss
  refine ⟨file, ?_, hP⟩
  rw [SourceFile.parse, h]
  dsimp only
  rw [hok]

/-- **A clear type expression is read back from its text.** Type expressions with an array length of
unmatched brackets, such as `[1)]int`, are not clear although the parser accepts them. -/
theorem SourceFile.parse_declaration {name source : String} {file : SourceFile}
    (h : SourceFile.parse name source = .ok file) {e : TypeExpr} (he : e ∈ file.typeExprs)
    (hclear : ∀ p ∈ e.parts, p.isClear = true) (hlevels : e.levels ≤ Parser.typeDepth)
    (name' : String) :
    ∃ again spec, SourceFile.parse name' e.declaration = .ok again ∧ again.types = [spec] ∧
      spec.IsAliasOf "X" e := by
  have hlegible : e.Legible Parser.typeDepth :=
    (SourceFile.isWritten_of_mem_typeExprs h e he).legible hlevels hclear
  -- the text is cut into the tokens of the declaration, and these are read
  obtain ⟨lexed, hlexed, htokens, -⟩ := hlegible.spells_declaration.tokenize name'
  have hspellings : lexed.tokens.map Token.spelling =
      headSpelling ++ (e.spelling ++ [(.semicolon, "\n")]) := by
    rw [Lexed.allTokens, List.map_append] at htokens
    exact List.append_cancel_right htokens
  have hfile := Parser.takes_sourceFile (by simp [firstSpelling])
    (fun doc => Parser.takes_typeSpec hlegible.rereads doc "X" rfl) name' lexed.comments
  obtain ⟨again, hok, spec, htypes, hspec⟩ :=
    SourceFile.exists_parse_eq_ok hlexed hspellings hfile
  exact ⟨again, spec, hok, htypes, hspec⟩

/-- A file with a struct type that holds types of many kinds. -/
def gridSource : String :=
  "package app\ntype Grid struct \x7b\n\tA, B [2 * N]int `json:\"a\"`\n\t*q.Base\n" ++
    "\tC chan<- (<-chan T)\n" ++
    "\tF func(x, y int, zs ...[]string) (map[string]Pair[K, *V], error)\n\x7d\n"

/-- The text of the struct type. -/
def gridText : String :=
  "struct\x7bA, B [2*N]int \"json:\\\"a\\\"\"; *q.Base; C chan<- <-chan T; " ++
    "F func(x int, y int, zs ...[]string) (map[string]Pair[K, *V], error)\x7d"

set_option maxRecDepth 100000 in
/-- The hypotheses of `SourceFile.parse_declaration` hold of a struct type with an array length, a
tag, an embedded field, channels of both directions, and a function type. -/
theorem SourceFile.parse_declaration_gridSource :
    ∃ file, SourceFile.parse "app.go" gridSource = .ok file ∧
      ∃ e ∈ file.typeExprs, e.render = gridText ∧ (∀ p ∈ e.parts, p.isClear = true) ∧
        e.levels ≤ Parser.typeDepth ∧
        ∃ again spec, SourceFile.parse "x.go" e.declaration = .ok again ∧ again.types = [spec] ∧
          spec.IsAliasOf "X" e := by
  have hall : (SourceFile.parse "app.go" gridSource).toOption.any (fun file =>
      file.typeExprs.any fun e => e.render == gridText &&
        (e.parts.all TypeExpr.isClear && decide (e.levels ≤ Parser.typeDepth))) = true := by
    rw [SourceFile.parse_eq_parseChars, ← Text.chars_eq_toList]
    decide +kernel
  cases h : SourceFile.parse "app.go" gridSource with
  | error e =>
    rw [h] at hall
    cases hall
  | ok file =>
    rw [h, Except.toOption, Option.any_some, List.any_eq_true] at hall
    obtain ⟨e, he, hspec⟩ := hall
    rw [Bool.and_eq_true, Bool.and_eq_true, beq_iff_eq, List.all_eq_true,
      decide_eq_true_eq] at hspec
    obtain ⟨htext, hclear, hlevels⟩ := hspec
    exact ⟨file, rfl, e, he, htext, hclear, hlevels,
      SourceFile.parse_declaration h he hclear hlevels "x.go"⟩

/-! ### A text with another meaning -/

/-- The direction of a channel. -/
def TypeExpr.chanDir? : TypeExpr → Option ChanDir
  | chan _ dir _ => some dir
  | _ => none

private theorem TypeExpr.chanDir?_unplaced (e : TypeExpr) : e.unplaced.chanDir? = e.chanDir? := by
  cases e with
  | func type => rw [unplaced_func]; rfl
  | generic base args => rw [unplaced_generic]; rfl
  | _ => rfl

/-- A file with a channel of channels from which values are received. -/
def receiversSource : String := "package p\ntype T chan (<-chan int)\n"

set_option maxRecDepth 100000 in
/-- The text of a type expression may mean another one: without parentheses the arrow belongs to the
channel before it. -/
theorem SourceFile.not_forall_parse_declaration :
    ¬ ∀ (name source : String) (file : SourceFile), SourceFile.parse name source = .ok file →
      ∀ e ∈ file.typeExprs, ∀ name', ∃ again spec,
        SourceFile.parse name' e.declaration = .ok again ∧ again.types = [spec] ∧
          spec.IsAliasOf "X" e := by
  intro hread
  obtain ⟨hall, hagain⟩ :
      (SourceFile.parse "p.go" receiversSource).toOption.any (fun file =>
        file.typeExprs.any fun e =>
          e.render == "chan <-chan int" && e.chanDir? == some .both) = true ∧
      (SourceFile.parse "x.go" ("package p\ntype X = " ++ "chan <-chan int")).toOption.all
        (fun file => file.types.all fun spec => spec.type.chanDir? == some .send) = true := by
    decide +kernel
  cases h : SourceFile.parse "p.go" receiversSource with
  | error e =>
    rw [h] at hall
    cases hall
  | ok file =>
    rw [h, Except.toOption, Option.any_some, List.any_eq_true] at hall
    obtain ⟨e, he, hspec⟩ := hall
    rw [Bool.and_eq_true, beq_iff_eq, beq_iff_eq] at hspec
    obtain ⟨htext, hboth⟩ := hspec
    obtain ⟨again, spec, hok, htypes, hname, halias, htype⟩ := hread _ _ _ h e he "x.go"
    have hdeclaration : e.declaration = "package p\ntype X = " ++ "chan <-chan int" :=
      congrArg ("package p\ntype X = " ++ ·) htext
    rw [hdeclaration] at hok
    rw [hok, Except.toOption, Option.all_some, htypes, List.all_cons, Bool.and_eq_true,
      beq_iff_eq] at hagain
    -- the two types differ in their direction
    have hdir := congrArg TypeExpr.chanDir? htype
    rw [TypeExpr.chanDir?_unplaced, TypeExpr.chanDir?_unplaced, hagain.1, hboth] at hdir
    cases hdir

end GoPages

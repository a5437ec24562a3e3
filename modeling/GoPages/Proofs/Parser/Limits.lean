import GoPages.Proofs.Parser.Runs
import GoPages.Proofs.TypeExpr.Height

/-!
# The limit on nested types

The parser of type expressions counts levels and fails at the limit. A parser with a lower limit
goes as one with a higher limit does, or it fails because types are nested too deeply.

* `Parser.Caps P p q` says so of parsers `p` and `q`, where the values of `p` have the property `P`.
  It has a rule for each way in which parsers are put together.
* `Parser.caps_typeExpr`: the height of a type expression is at most by one greater than the limit.
  A name that stands alone in a parameter list is not counted.
* `SourceFile.parseWithin` is the parser of files with another limit. `SourceFile.parse_height`:
  type expressions of a file that is accepted are at most 66 levels high, and a file that is
  accepted with another limit, but has a higher type expression, is rejected.
-/

namespace GoPages

/-- The types that a declaration names. -/
def Decl.typeExprs (decl : Decl) : List TypeExpr :=
  decl.typeSpecs.map TypeSpec.type ++ decl.funcDecl?.toList.flatMap FuncDecl.types

namespace Parser

variable {α β : Type} {P : α → Prop} {Q : β → Prop}

/-! ### Lower and higher limits -/

/-- The first result is the second one, with a value that has the property `P`, or it is that types
are nested too deeply. -/
def Capped (P : α → Prop) (r s : Except SyntaxError (α × Cursor)) : Prop :=
  (r = s ∧ ∀ a c, r = .ok (a, c) → P a) ∨ ∃ e, r = .error e ∧ e.fault = .nestedTooDeeply

/-- The parser `p` gives what `q` gives, with the property `P`, or it fails because types are nested
too deeply. -/
def Caps (P : α → Prop) (p q : Parser α) : Prop := ∀ c, Capped P (p c) (q c)

/-- The same error at both limits is no matter of the limit. -/
private theorem capped_error (e : SyntaxError) : Capped P (.error e) (.error e) :=
  .inl ⟨rfl, fun _ _ h => nomatch h⟩

/-- What does not depend on the limit. -/
theorem caps_self (p : Parser α) : Caps (fun _ => True) p p :=
  fun _ => .inl ⟨rfl, fun _ _ _ => trivial⟩

/-- A value within the limit is given in both. -/
private theorem caps_pure {a : α} (ha : P a) : Caps P (pure a) (pure a) := by
  refine fun c => .inl ⟨rfl, fun a' c' hok => ?_⟩
  cases hok
  exact ha

private theorem caps_failAt (l : Location) (fault : SyntaxFault) :
    Caps P (failAt l fault) (failAt l fault) :=
  fun _ => capped_error _

private theorem caps_fail (fault : SyntaxFault) : Caps P (fail fault) (fail fault) :=
  fun _ => capped_error _

private theorem caps_failExpected (what : String) :
    Caps P (failExpected what) (failExpected what) :=
  fun _ => capped_error _

/-- At the limit a parser fails, whatever a higher limit gives. -/
theorem caps_nestedTooDeeply (q : Parser α) : Caps P (fail .nestedTooDeeply) q :=
  fun _ => .inr ⟨_, rfl, rfl⟩

/-- What holds of the values may be weakened. -/
theorem Caps.mono {P' : α → Prop} {p q : Parser α} (h : Caps P' p q) (hP : ∀ a, P' a → P a) :
    Caps P p q :=
  fun c => (h c).imp_left fun ⟨heq, hok⟩ => ⟨heq, fun a c' ha => hP a (hok a c' ha)⟩

/-- Parsers in sequence go alike up to the limit if each of them does. -/
private theorem caps_bind {p q : Parser α} {k k' : α → Parser β} (h : Caps P p q)
    (hk : ∀ a, P a → Caps Q (k a) (k' a)) : Caps Q (p >>= k) (q >>= k') := by
  intro c
  rcases h c with ⟨heq, hok⟩ | ⟨e, herror, hfault⟩
  · cases hp : p c with
    | error e =>
      have hq : q c = .error e := heq ▸ hp
      rw [bind_of_error hp, bind_of_error hq]
      exact capped_error e
    | ok r =>
      have hq : q c = .ok r := heq ▸ hp
      rw [bind_of_ok hp, bind_of_ok hq]
      exact hk r.1 (hok r.1 r.2 hp) r.2
  · exact .inr ⟨e, bind_of_error herror, hfault⟩

/-- What is read first does not depend on the limit. -/
theorem caps_then (p : Parser α) {k k' : α → Parser β} (hk : ∀ a, Caps Q (k a) (k' a)) :
    Caps Q (p >>= k) (p >>= k') :=
  caps_bind (caps_self p) fun a _ => hk a

/-- A choice that does not depend on the limit is made alike. -/
private theorem caps_ite {b : Prop} [Decidable b] {p p' q q' : Parser α} (hp : b → Caps P p p')
    (hq : ¬ b → Caps P q q') : Caps P (if b then p else q) (if b then p' else q') := by
  split
  · next hb => exact hp hb
  · next hb => exact hq hb

/-- A branch that may be left out. -/
theorem caps_optional {b : Prop} [Decidable b] (p : Parser α) {q q' : Parser β}
    (hq : Caps Q q q') :
    Caps Q (if b then p >>= fun _ => q else q) (if b then p >>= fun _ => q' else q') :=
  caps_ite (fun _ => caps_then p fun _ => hq) fun _ => hq

/-- Two branches that go on in the same way. -/
theorem caps_join {b : Prop} [Decidable b] {p p' q q' : Parser β} {k k' : α → Parser β}
    (hp : (∀ a, P a → Caps Q (k a) (k' a)) → Caps Q p p')
    (hq : (∀ a, P a → Caps Q (k a) (k' a)) → Caps Q q q')
    (hk : ∀ a, P a → Caps Q (k a) (k' a)) :
    Caps Q (if b then p else q) (if b then p' else q') :=
  caps_ite (fun _ => hp hk) fun _ => hq hk

/-- Repeated steps go alike up to the limit. -/
private theorem capped_manyFrom {step step' : Parser (Option α)}
    (h : Caps (fun r => ∀ a, r = some a → P a) step step') (c : Cursor) :
    Capped (fun as => ∀ a ∈ as, P a) (manyFrom step c) (manyFrom step' c) := by
  -- either both steps do the same and the rest goes on, or the limited one has failed already
  rcases h c with ⟨heq, hok⟩ | ⟨e, herror, hfault⟩
  · rw [manyFrom, manyFrom, ← heq]
    cases hstep : step c with
    | error e => exact capped_error e
    | ok r =>
      obtain ⟨_ | a, c'⟩ := r
      · refine .inl ⟨rfl, fun as c'' hmany => ?_⟩
        cases hmany
        exact List.forall_mem_nil _
      · by_cases hsize : c'.size < c.size
        · simp only [if_pos hsize]
          rcases capped_manyFrom h c' with ⟨heq', hok'⟩ | ⟨e, herror, hfault⟩
          · rw [← heq']
            refine .inl ⟨rfl, fun as c'' hmany => ?_⟩
            cases hrest : manyFrom step c' with
            | error e =>
              rw [hrest] at hmany
              cases hmany
            | ok rest =>
              rw [hrest] at hmany
              cases hmany
              exact List.forall_mem_cons.mpr ⟨hok _ _ hstep a rfl, hok' _ _ hrest⟩
          · rw [herror]
            exact .inr ⟨e, rfl, hfault⟩
        · simp only [if_neg hsize]
          exact capped_error _
  · rw [manyFrom, herror]
    exact .inr ⟨e, rfl, hfault⟩
termination_by c.size

/-- A step that is repeated. -/
theorem caps_many {step step' : Parser (Option α)}
    (h : Caps (fun r => ∀ a, r = some a → P a) step step') :
    Caps (fun as => ∀ a ∈ as, P a) (many step) (many step') :=
  capped_manyFrom h

/-! ### Type expressions -/

section Types

variable {elem elem' inner inner' : Parser TypeExpr} {k : ℕ}

/-- The height of type expressions is at most `k`. -/
abbrev CapsTypes (k : ℕ) (elem elem' : Parser TypeExpr) : Prop :=
  Caps (fun e => e.height ≤ k) elem elem'

private theorem caps_nextTypeArg (helem : CapsTypes k elem elem') :
    Caps (fun r => ∀ e, r = some e → e.height ≤ k) (nextTypeArg elem) (nextTypeArg elem') := by
  refine caps_then tok fun t => caps_ite (fun _ => ?_) fun _ => caps_pure nofun
  refine caps_then advance fun _ => caps_then tok fun u => ?_
  refine caps_ite (fun _ => caps_pure nofun) fun _ => caps_bind helem fun e he => caps_pure ?_
  rintro _ ⟨⟩
  exact he

private theorem caps_typeName (helem : CapsTypes k elem elem') (hk : 1 ≤ k) :
    CapsTypes (k + 1) (typeName elem) (typeName elem') := by
  have hname {e : TypeExpr} (he : e.height = 1) :
      Caps (fun base : TypeExpr => base.height = 1) (pure e) (pure e) := caps_pure he
  refine caps_then ident fun first => caps_then tok fun t => ?_
  refine caps_join (P := fun base : TypeExpr => base.height = 1) (fun hrest => ?_)
    (fun hrest => caps_bind (hname (by rw [TypeExpr.height])) hrest) fun base hbase => ?_
  · refine caps_then advance fun _ => caps_then ident fun name => ?_
    exact caps_bind (hname (by rw [TypeExpr.height])) hrest
  refine caps_then (look _) fun generic => caps_ite (fun _ => ?_) fun _ => caps_pure (by omega)
  refine caps_then advance fun _ => caps_bind helem fun e he => ?_
  refine caps_bind (caps_many (caps_nextTypeArg helem)) fun es hes => ?_
  refine caps_then (op _) fun _ => caps_pure (TypeExpr.height_le_succ_iff.mpr ?_)
  exact List.forall_mem_cons.mpr ⟨by omega, List.forall_mem_cons.mpr ⟨he, hes⟩⟩

/-- Parameters are as high as the entries that they come from. -/
private theorem height_groupParams {start : Location} {entries : List ParamEntry} {ps : List Param}
    (hentries : ∀ entry ∈ entries, entry.asType.type.height ≤ k)
    (h : groupParams start entries = .ok ps) : ∀ p ∈ ps, p.type.height ≤ k := by
  rw [groupParams] at h
  split at h
  · intro p hp
    obtain ⟨name, id, type, rfl, htype, -⟩ := exists_of_mem_nameParams h hp
    exact hentries _ htype
  · cases h
    exact List.forall_mem_map.mpr hentries

/-- A name that stands alone is not counted, but it is no higher than any other type. -/
theorem caps_paramEntry (helem : CapsTypes k elem elem') (hk : 1 ≤ k) :
    Caps (fun entry => entry.asType.type.height ≤ k) (paramEntry elem) (paramEntry elem') := by
  refine caps_then tok fun t => caps_then (look _) fun next => caps_then (look _) fun generic => ?_
  refine caps_ite (fun _ => caps_bind helem fun type htype => caps_pure htype) fun _ => ?_
  refine caps_ite (fun _ => ?_) fun _ => caps_ite (fun _ => ?_) fun _ => ?_
  · refine caps_then ident fun id => caps_pure ?_
    rwa [ParamEntry.asType, TypeExpr.height]
  · exact caps_bind helem fun type htype => caps_pure htype
  · exact caps_then ident fun id => caps_bind helem fun type htype => caps_pure htype

private theorem caps_nextParam (helem : CapsTypes k elem elem') (hk : 1 ≤ k) :
    Caps (fun r => ∀ entry, r = some entry → entry.asType.type.height ≤ k) (nextParam elem)
      (nextParam elem') := by
  refine caps_then skipSemicolons fun _ => caps_then tok fun t => caps_ite (fun _ => ?_) fun _ => ?_
  · exact caps_then advance fun _ => caps_pure nofun
  refine caps_bind (caps_paramEntry helem hk) fun entry hentry => ?_
  have hsome : ∀ e, some entry = some e → e.asType.type.height ≤ k := by
    rintro _ ⟨⟩
    exact hentry
  refine caps_then skipSemicolons fun _ => caps_then tok fun u => caps_ite (fun _ => ?_) fun _ => ?_
  · exact caps_then advance fun _ => caps_pure hsome
  · exact caps_ite (fun _ => caps_pure hsome) fun _ => caps_failExpected _

/-- A list of parameters is within the limit for its entries. -/
private theorem caps_params (helem : CapsTypes k elem elem') (hk : 1 ≤ k) :
    Caps (fun ps => ∀ p ∈ ps, p.type.height ≤ k) (params elem) (params elem') := by
  refine caps_then tok fun start => caps_then (op _) fun _ => ?_
  refine caps_bind (caps_many (caps_nextParam helem hk)) fun entries hentries c => .inl ⟨rfl, ?_⟩
  intro ps c' hok
  split at hok
  · cases hok
  · next hgroup =>
    cases hok
    exact height_groupParams hentries hgroup

private theorem caps_signature (helem : CapsTypes k elem elem') (hk : 1 ≤ k) (l : Location) :
    Caps (fun s => ∀ p ∈ s.params ++ s.results, p.type.height ≤ k) (signature elem l)
      (signature elem' l) := by
  refine caps_bind (caps_params helem hk) fun ps hps => caps_then tok fun t => ?_
  refine caps_ite (fun _ => ?_) fun _ => caps_ite (fun _ => ?_) fun _ => caps_pure ?_
  · refine caps_bind (caps_params helem hk) fun rs hrs => caps_pure ?_
    exact List.forall_mem_append.mpr ⟨hps, hrs⟩
  · refine caps_bind helem fun type htype => caps_pure ?_
    exact List.forall_mem_append.mpr ⟨hps, List.forall_mem_singleton.mpr htype⟩
  · exact List.forall_mem_append.mpr ⟨hps, List.forall_mem_nil _⟩

/-! ### Structs -/

private theorem caps_fieldNames (helem : CapsTypes k elem elem') :
    Caps (fun r => r.2.height ≤ k) (fieldNames elem) (fieldNames elem') := by
  refine caps_then tok fun t => caps_then (look _) fun embedded => ?_
  refine caps_ite (fun _ => ?_) fun _ => ?_
  · exact caps_bind helem fun type htype => caps_pure htype
  refine caps_ite (fun _ => ?_) fun _ => caps_failExpected _
  refine caps_then ident fun first => caps_then (many nextName) fun others => ?_
  exact caps_bind helem fun type htype => caps_pure htype

private theorem caps_nextField (helem : CapsTypes k elem elem') :
    Caps (fun r => ∀ f, r = some f → f.type.height ≤ k) (nextField elem) (nextField elem') := by
  refine caps_then skipSemicolons fun _ => caps_then tok fun t => caps_ite (fun _ => ?_) fun _ => ?_
  · exact caps_then advance fun _ => caps_pure nofun
  refine caps_ite (fun _ => caps_failExpected _) fun _ => ?_
  refine caps_bind (caps_fieldNames helem) fun r hr => caps_then fieldTag fun tag => ?_
  refine caps_then endOfItem fun _ => caps_pure ?_
  rintro _ ⟨⟩
  exact hr

/-- The fields of a struct type are within the limit for its parts. -/
private theorem caps_structBody (helem : CapsTypes k elem elem') :
    Caps (fun fs => ∀ f ∈ fs, f.type.height ≤ k) (structBody elem) (structBody elem') :=
  caps_then (op _) fun _ => caps_many (caps_nextField helem)

/-! ### All types -/

/-- A type of one part. -/
theorem height_le_succ_of_children {e elem : TypeExpr} (h : e.children = [elem])
    (helem : elem.height ≤ k) : e.height ≤ k + 1 :=
  TypeExpr.height_le_succ_iff.mpr (h ▸ List.forall_mem_singleton.mpr helem)

private theorem caps_chanType (helem : CapsTypes k elem elem') (l : Location) :
    CapsTypes (k + 1) (chanType elem l) (chanType elem' l) := by
  refine caps_then tok fun t => caps_ite (fun _ => ?_) fun _ => ?_
  · refine caps_then advance fun _ => caps_bind helem fun type htype => caps_pure ?_
    exact height_le_succ_of_children rfl htype
  · exact caps_bind helem fun type htype => caps_pure (height_le_succ_of_children rfl htype)

private theorem caps_operatorType (helem : CapsTypes k elem elem') (t : Token) :
    CapsTypes (k + 1) (operatorType elem t) (operatorType elem' t) := by
  have hone {wrap : TypeExpr → TypeExpr} (hwrap : ∀ e, (wrap e).children = [e]) :
      CapsTypes (k + 1) (elem >>= fun e => pure (wrap e)) (elem' >>= fun e => pure (wrap e)) :=
    caps_bind helem fun e he => caps_pure (height_le_succ_of_children (hwrap e) he)
  unfold operatorType
  split
  · exact caps_then advance fun _ => hone fun _ => rfl
  · refine caps_then advance fun _ => caps_then tok fun next => caps_ite (fun _ => ?_) fun _ => ?_
    · exact caps_then advance fun _ => hone fun _ => rfl
    · exact caps_then arrayLen fun len => hone fun _ => rfl
  · refine caps_then advance fun _ => caps_then tok fun next => ?_
    refine caps_ite (fun _ => ?_) fun _ => caps_failExpected _
    exact caps_then advance fun _ => hone fun _ => rfl
  · refine caps_then advance fun _ => caps_bind helem fun e he => caps_then (op _) fun _ => ?_
    exact caps_pure (Nat.le_succ_of_le he)
  · exact caps_then advance fun _ => hone fun _ => rfl
  · exact caps_failExpected _

/-- A type that starts with a keyword is one level above its parts. -/
private theorem caps_keywordType (helem : CapsTypes k elem elem')
    (hinner : CapsTypes k inner inner') (hk : 1 ≤ k) (t : Token) :
    CapsTypes (k + 1) (keywordType elem inner t) (keywordType elem' inner' t) := by
  unfold keywordType
  split
  · refine caps_then advance fun _ => caps_then (op _) fun _ => caps_bind helem fun key hkey => ?_
    refine caps_then (op _) fun _ => caps_bind helem fun value hvalue => caps_pure ?_
    exact TypeExpr.height_le_succ_iff.mpr
      (List.forall_mem_cons.mpr ⟨hkey, List.forall_mem_singleton.mpr hvalue⟩)
  · exact caps_then advance fun _ => caps_chanType helem _
  · refine caps_then advance fun _ => caps_bind (caps_signature hinner hk _) fun type htype => ?_
    refine caps_pure (TypeExpr.height_le_succ_iff.mpr ?_)
    rw [TypeExpr.children, ← List.map_append]
    exact List.forall_mem_map.mpr htype
  · refine caps_then advance fun _ => caps_bind (caps_structBody hinner) fun fs hfs => ?_
    exact caps_pure (TypeExpr.height_le_succ_iff.mpr (List.forall_mem_map.mpr hfs))
  · refine caps_then advance fun _ => caps_then interfaceBody fun empty => caps_pure ?_
    exact TypeExpr.height_le_succ_iff.mpr (List.forall_mem_nil _)
  · exact caps_failExpected _

/-- One level of the grammar adds one to the height. -/
theorem caps_typeExprWith (helem : CapsTypes k elem elem') (hinner : CapsTypes k inner inner')
    (hk : 1 ≤ k) : CapsTypes (k + 1) (typeExprWith elem inner) (typeExprWith elem' inner') := by
  refine caps_then tok fun t => ?_
  split
  · exact caps_typeName helem hk
  · exact caps_keywordType helem hinner hk t
  · exact caps_operatorType helem t
  · exact caps_failExpected _

end Types

/-- **The height of a type expression is at most by one greater than the limit**, and a higher limit
changes only that fewer type expressions are nested too deeply. -/
theorem caps_typeExpr {n m : ℕ} (h : n ≤ m) : CapsTypes (n + 1) (typeExpr n) (typeExpr m) := by
  -- elements are one level further down, the parts of function and struct types are two
  induction n using typeExpr.induct generalizing m with
  | case1 => exact caps_nestedTooDeeply _
  | case2 =>
    match m, h with
    | 1, _ => exact caps_typeExprWith (caps_nestedTooDeeply _) (caps_nestedTooDeeply _) (by omega)
    | m + 2, _ =>
      exact caps_typeExprWith (caps_nestedTooDeeply _) (caps_nestedTooDeeply _) (by omega)
  | case3 n ih₁ ih₂ =>
    match m, h with
    | m + 2, h =>
      have hinner : CapsTypes (n + 1 + 1) (typeExpr n) (typeExpr m) :=
        (ih₂ (by omega)).mono fun _ he => Nat.le_succ_of_le he
      exact caps_typeExprWith (ih₁ (Nat.le_of_succ_le_succ h)) hinner (by omega)

/-! ### Files with another limit -/

/-- Reads the declaration of one type, with at most `n` levels. -/
def typeSpecWithin (n : ℕ) (doc : Option CommentGroup) : Parser TypeSpec := do
  let name ← ident
  let generic ← look startsTypeParams
  let params ← if generic then typeParams else pure []
  let t ← tok
  let isAlias := t.isOp "="
  if isAlias then advance
  let type ← typeExpr n
  return ⟨name, params, type, isAlias, doc⟩

/-- Reads one type of a group, with at most `n` levels, or the end of the group. -/
def nextTypeWithin (n : ℕ) (comments : List Comment) (groupDoc : Option CommentGroup) :
    Parser (Option TypeSpec) := do
  skipSemicolons
  let t ← tok
  if t.isOp ")" then
    advance
    return none
  else if t.kind == .eof then failExpected "')'"
  else
    let ownDoc ← doc comments
    let spec ← typeSpecWithin n (ownDoc <|> groupDoc)
    endOfItem
    return some spec

/-- Reads a type declaration, with at most `n` levels. -/
def typeDeclWithin (n : ℕ) (comments : List Comment) : Parser (List TypeSpec) := do
  let declDoc ← doc comments
  advance
  let t ← tok
  let specs ← if t.isOp "(" then do
      advance
      many (nextTypeWithin n comments declDoc)
    else do
      let spec ← typeSpecWithin n declDoc
      pure [spec]
  endOfItem
  return specs

/-- Reads the receiver of a method, if there is one, with at most `n` levels. -/
def receiverWithin (n : ℕ) : Parser (Option Receiver) := do
  let t ← tok
  if t.isOp "(" then
    let ps ← params (typeExpr (n - 1))
    match ps with
    | [p] => return some ⟨p.name, p.type⟩
    | _ => failAt t.location .multipleReceivers
  else return none

/-- Reads the declaration of a function or method, with at most `n` levels. -/
def funcDeclWithin (n : ℕ) (comments : List Comment) : Parser FuncDecl := do
  let declDoc ← doc comments
  advance
  let recv ← receiverWithin n
  let name ← ident
  let t ← tok
  let generics ← if t.isOp "[" then typeParams else pure []
  let type ← signature (typeExpr (n - 1)) name.location
  let t ← tok
  if t.isOp "\x7b" then
    let _ ← balanced
  endOfItem
  return ⟨recv, name, generics, type, declDoc⟩

/-- Reads one declaration after the imports, with at most `n` levels, or the end of the file. -/
def nextDeclWithin (n : ℕ) (comments : List Comment) : Parser (Option Decl) := do
  skipSemicolons
  let t ← tok
  if t.kind == .eof then return none
  else if t.isKeyword "type" then
    let specs ← typeDeclWithin n comments
    return some (.types specs)
  else if t.isKeyword "func" then
    let decl ← funcDeclWithin n comments
    return some (.func decl)
  else if t.isKeyword "var" || t.isKeyword "const" then
    valueDecl
    return some .values
  else if t.isKeyword "import" then fail .misplacedImport
  else fail (.notADeclaration t.describe)

/-- Reads a file, with at most `n` levels of types. -/
def sourceFileWithin (n : ℕ) (name : String) (comments : List Comment) : Parser SourceFile := do
  let package ← packageClause
  skipSemicolons
  let imports ← many nextImportDecl
  let decls ← many (nextDeclWithin n comments)
  return ⟨name, package, imports.flatten, decls.flatMap Decl.typeSpecs,
    decls.filterMap Decl.funcDecl?⟩

private theorem sourceFileWithin_typeDepth (name : String) (comments : List Comment) :
    sourceFileWithin typeDepth name comments = sourceFile name comments := rfl

section Declarations

variable {n m : ℕ} (h : n ≤ m)
include h

private theorem caps_typeSpecWithin (doc : Option CommentGroup) :
    Caps (fun spec => spec.type.height ≤ n + 1) (typeSpecWithin n doc) (typeSpecWithin m doc) := by
  refine caps_then ident fun name => caps_then (look _) fun generic => ?_
  refine caps_join (P := fun _ => True) (fun hk => caps_bind (caps_self _) hk)
    (fun hk => caps_bind (caps_self _) hk) fun params _ => caps_then tok fun t => ?_
  refine caps_optional advance (caps_bind (caps_typeExpr h) fun type htype => caps_pure htype)

private theorem caps_nextTypeWithin (comments : List Comment) (groupDoc : Option CommentGroup) :
    Caps (fun r => ∀ spec, r = some spec → spec.type.height ≤ n + 1)
      (nextTypeWithin n comments groupDoc) (nextTypeWithin m comments groupDoc) := by
  refine caps_then skipSemicolons fun _ => caps_then tok fun t => caps_ite (fun _ => ?_) fun _ => ?_
  · exact caps_then advance fun _ => caps_pure nofun
  refine caps_ite (fun _ => caps_failExpected _) fun _ => caps_then (doc comments) fun ownDoc => ?_
  refine caps_bind (caps_typeSpecWithin h _) fun spec hspec => caps_then endOfItem fun _ => ?_
  refine caps_pure ?_
  rintro _ ⟨⟩
  exact hspec

private theorem caps_typeDeclWithin (comments : List Comment) :
    Caps (fun specs => ∀ spec ∈ specs, spec.type.height ≤ n + 1) (typeDeclWithin n comments)
      (typeDeclWithin m comments) := by
  refine caps_then (doc comments) fun declDoc => caps_then advance fun _ => ?_
  refine caps_then tok fun t => ?_
  refine caps_join (P := fun specs => ∀ spec ∈ specs, spec.type.height ≤ n + 1)
    (fun hk => caps_then advance fun _ => caps_bind (caps_many (caps_nextTypeWithin h _ _)) hk)
    (fun hk => caps_bind (caps_typeSpecWithin h _) fun spec hspec =>
      caps_bind (caps_pure fun _ hmem => List.mem_singleton.mp hmem ▸ hspec) hk)
    fun specs hspecs => caps_then endOfItem fun _ => caps_pure hspecs

private theorem caps_receiverWithin :
    Caps (fun r => ∀ recv, r = some recv → recv.type.height ≤ n + 1) (receiverWithin n)
      (receiverWithin m) := by
  refine caps_then tok fun t => caps_ite (fun _ => ?_) fun _ => caps_pure nofun
  have htypes : CapsTypes (n + 1) (typeExpr (n - 1)) (typeExpr (m - 1)) :=
    (caps_typeExpr (Nat.sub_le_sub_right h 1)).mono fun _ he => by omega
  refine caps_bind (caps_params htypes (by omega)) fun ps hps => ?_
  split
  · refine caps_pure ?_
    rintro _ ⟨⟩
    exact hps _ List.mem_cons_self
  · exact caps_failAt _ _

private theorem caps_funcDeclWithin (comments : List Comment) :
    Caps (fun decl => ∀ type ∈ decl.types, type.height ≤ n + 1) (funcDeclWithin n comments)
      (funcDeclWithin m comments) := by
  have htypes : CapsTypes (n + 1) (typeExpr (n - 1)) (typeExpr (m - 1)) :=
    (caps_typeExpr (Nat.sub_le_sub_right h 1)).mono fun _ he => by omega
  refine caps_then (doc comments) fun declDoc => caps_then advance fun _ => ?_
  refine caps_bind (caps_receiverWithin h) fun recv hrecv => caps_then ident fun name => ?_
  refine caps_then tok fun t => ?_
  refine caps_join (P := fun _ => True) (fun hk => caps_bind (caps_self _) hk)
    (fun hk => caps_bind (caps_self _) hk) fun generics _ => ?_
  refine caps_bind (caps_signature htypes (by omega) _) fun type htype => caps_then tok fun u => ?_
  refine caps_optional balanced (caps_then endOfItem fun _ => caps_pure ?_)
  rw [FuncDecl.types, List.append_assoc, ← List.map_append]
  refine List.forall_mem_append.mpr ⟨fun e he => ?_, List.forall_mem_map.mpr htype⟩
  obtain ⟨r, hr, rfl⟩ := Option.map_eq_some_iff.mp (Option.mem_toList.mp he)
  exact hrecv r hr

/-- Each kind of declaration goes alike up to the limit. -/
private theorem caps_nextDeclWithin (comments : List Comment) :
    Caps (fun r => ∀ decl, r = some decl → ∀ type ∈ decl.typeExprs, type.height ≤ n + 1)
      (nextDeclWithin n comments) (nextDeclWithin m comments) := by
  refine caps_then skipSemicolons fun _ => caps_then tok fun t => ?_
  refine caps_ite (fun _ => caps_pure nofun) fun _ => caps_ite (fun _ => ?_) fun _ => ?_
  · refine caps_bind (caps_typeDeclWithin h comments) fun specs hspecs => caps_pure ?_
    rintro _ ⟨⟩
    rw [Decl.typeExprs, List.forall_mem_append]
    exact ⟨List.forall_mem_map.mpr hspecs, List.forall_mem_nil _⟩
  refine caps_ite (fun _ => ?_) fun _ => caps_ite (fun _ => ?_) fun _ => ?_
  · refine caps_bind (caps_funcDeclWithin h comments) fun decl hdecl => caps_pure ?_
    rintro _ ⟨⟩
    simpa [Decl.typeExprs, Decl.typeSpecs, Decl.funcDecl?] using hdecl
  · refine caps_then valueDecl fun _ => caps_pure ?_
    rintro _ ⟨⟩
    exact List.forall_mem_nil _
  · exact caps_ite (fun _ => caps_fail _) fun _ => caps_fail _

/-- A file goes alike up to the limit, and its types are within it. -/
private theorem caps_sourceFileWithin (name : String) (comments : List Comment) :
    Caps (fun file => ∀ e ∈ file.typeExprs, e.height ≤ n + 1) (sourceFileWithin n name comments)
      (sourceFileWithin m name comments) := by
  refine caps_then packageClause fun package => caps_then skipSemicolons fun _ => ?_
  refine caps_then (many nextImportDecl) fun imports => ?_
  refine caps_bind (caps_many (caps_nextDeclWithin h comments)) fun decls hdecls => caps_pure ?_
  intro e he
  obtain ⟨type, htype, he⟩ := List.mem_flatMap.mp he
  refine Nat.le_trans (TypeExpr.height_le_of_mem_parts type he) ?_
  obtain ⟨decl, hdecl, htype⟩ : ∃ decl ∈ decls, type ∈ decl.typeExprs := by
    rcases List.mem_append.mp htype with htype | htype
    · obtain ⟨spec, hspec, rfl⟩ := List.mem_map.mp htype
      obtain ⟨decl, hdecl, hspec⟩ := List.mem_flatMap.mp hspec
      exact ⟨decl, hdecl, List.mem_append_left _ (List.mem_map_of_mem hspec)⟩
    · obtain ⟨func, hfunc, htype⟩ := List.mem_flatMap.mp htype
      obtain ⟨decl, hdecl, hfunc⟩ := List.mem_filterMap.mp hfunc
      refine ⟨decl, hdecl, List.mem_append_right _ (List.mem_flatMap.mpr ⟨func, ?_, htype⟩)⟩
      exact Option.mem_toList.mpr hfunc
  exact hdecls decl hdecl type htype

end Declarations

end Parser

/-- The declarations of the file `name`, read from its source text with at most `n` levels of
types. -/
def SourceFile.parseWithin (n : ℕ) (name source : String) : Except SyntaxError SourceFile :=
  match tokenize name source with
  | .error e => .error ⟨.lexical e.fault, e.location⟩
  | .ok lexed =>
    match Parser.sourceFileWithin n name lexed.comments (Cursor.start lexed) with
    | .error e => .error e
    | .ok (file, _) => .ok file

namespace SourceFile

/-- The parser of files is the one with the limit for declared types. -/
private theorem parseWithin_typeDepth (name source : String) :
    parseWithin Parser.typeDepth name source = parse name source := by
  simp only [parseWithin, Parser.sourceFileWithin_typeDepth]
  rfl

/-- A file is read as with a higher limit, with lower type expressions, or its types are nested too
deeply. -/
theorem parseWithin_cases {n m : ℕ} (h : n ≤ m) (name source : String) :
    (parseWithin n name source = parseWithin m name source ∧
      ∀ file, parseWithin n name source = .ok file → ∀ e ∈ file.typeExprs, e.height ≤ n + 1) ∨
    ∃ e, parseWithin n name source = .error e ∧ e.fault = .nestedTooDeeply := by
  rw [parseWithin, parseWithin]
  cases tokenize name source with
  | error e => exact .inl ⟨rfl, fun _ h => nomatch h⟩
  | ok lexed =>
    dsimp only
    rcases Parser.caps_sourceFileWithin h name lexed.comments (Cursor.start lexed) with
      ⟨heq, hok⟩ | ⟨e, herror, hfault⟩
    · rw [← heq]
      refine .inl ⟨rfl, fun file hfile => ?_⟩
      split at hfile
      · cases hfile
      · next hrun =>
        cases hfile
        exact hok _ _ hrun
    · rw [herror]
      exact .inr ⟨e, rfl, hfault⟩

/-- **The type expressions of a file are at most 66 levels high**, on each path down. Recursions
over them, such as what they denote and how they are written, take at most 66 calls inside each
other. A file with a higher type expression, which another limit may let pass, is rejected because
its types are nested too deeply. -/
theorem parse_height (name source : String) :
    (∀ file, parse name source = .ok file → ∀ e ∈ file.typeExprs, e.height ≤ 66 ∧
      (∀ us, TypeExpr.Path e us → us.length ≤ 66) ∧
      TypeExpr.foldWithin TypeExpr.renderStep 66 e = some e.render ∧
      ∀ s : Scope, TypeExpr.foldWithin s.resolveStep 66 e = some (s.resolve e) ∧
        TypeExpr.foldWithin s.problemsStep 66 e = some (s.problems e)) ∧
    ∀ n file, parseWithin n name source = .ok file → (∃ e ∈ file.typeExprs, 66 < e.height) →
      ∃ e, parse name source = .error e ∧ e.fault = .nestedTooDeeply := by
  -- a name that stands alone in a parameter list takes no level, so a height may be one above the
  -- limit
  have hheight {n : ℕ} {file : SourceFile} (h : parseWithin n name source = .ok file) :
      ∀ e ∈ file.typeExprs, e.height ≤ n + 1 := by
    rcases parseWithin_cases (Nat.le_refl n) name source with ⟨-, hok⟩ | ⟨e, herror, -⟩
    · exact hok file h
    · rw [herror] at h
      cases h
  constructor
  · intro file hfile e he
    have hle : e.height ≤ 66 := hheight ((parseWithin_typeDepth name source).trans hfile) e he
    refine ⟨hle, TypeExpr.height_le_iff_path.mp hle, ?_, fun s => ⟨?_, ?_⟩⟩
    · rw [TypeExpr.foldWithin_eq TypeExpr.render_eq_renderStep, if_pos hle]
    · rw [TypeExpr.foldWithin_eq s.resolve_eq_resolveStep, if_pos hle]
    · rw [TypeExpr.foldWithin_eq s.problems_eq_problemsStep, if_pos hle]
  · rintro n file hfile ⟨e, he, hhigh⟩
    have hle := hheight hfile e he
    -- a limit that lets the higher type expression pass is above that of the parser
    have hlimit : Parser.typeDepth ≤ n := by
      rw [Parser.typeDepth]
      omega
    rw [← parseWithin_typeDepth]
    rcases parseWithin_cases hlimit name source with ⟨heq, hok⟩ | herror
    · exact absurd (hok file (heq.trans hfile) e he) (Nat.not_le.mpr hhigh)
    · exact herror

/-- A file that declares a type of `n` pointers to a function. -/
def starredFunc (n : ℕ) : String :=
  "package p\ntype T " ++ String.ofList (List.replicate n '*') ++ "func(a)\n"

/-- With 64 pointers the type has the height 66. With one more it is rejected, where a limit that is
by one higher lets it pass. -/
theorem parse_height_starredFunc :
    (∃ file, parse "p.go" (starredFunc 64) = .ok file ∧
      file.typeExprs.map TypeExpr.height = (List.range' 1 66).reverse ∧
      ∀ e ∈ file.typeExprs, e.height ≤ 66) ∧
    (∃ file, parseWithin 66 "p.go" (starredFunc 65) = .ok file ∧
      ∃ e ∈ file.typeExprs, 66 < e.height) ∧
    ∃ e, parse "p.go" (starredFunc 65) = .error e ∧ e.fault = .nestedTooDeeply := by
  have hlow : (parse "p.go" (starredFunc 64)).toOption.any (fun file =>
      file.typeExprs.map TypeExpr.height == (List.range' 1 66).reverse) = true := by
    decide +kernel
  have hhigh : (parseWithin 66 "p.go" (starredFunc 65)).toOption.any (fun file =>
      file.typeExprs.any fun e => decide (66 < e.height)) = true := by
    decide +kernel
  cases hparse : parse "p.go" (starredFunc 64) with
  | error e =>
    rw [hparse] at hlow
    cases hlow
  | ok file =>
    rw [hparse, Except.toOption, Option.any_some, beq_iff_eq] at hlow
    cases hwithin : parseWithin 66 "p.go" (starredFunc 65) with
    | error e =>
      rw [hwithin] at hhigh
      cases hhigh
    | ok file' =>
      rw [hwithin, Except.toOption, Option.any_some, List.any_eq_true] at hhigh
      obtain ⟨e, he, hlt⟩ := hhigh
      have hdeep : ∃ e ∈ file'.typeExprs, 66 < e.height := ⟨e, he, of_decide_eq_true hlt⟩
      refine ⟨⟨file, rfl, hlow, fun u hu => ?_⟩, ⟨file', rfl, hdeep⟩, ?_⟩
      · exact ((parse_height "p.go" (starredFunc 64)).1 file hparse u hu).1
      · exact (parse_height "p.go" (starredFunc 65)).2 66 file' hwithin hdeep

end SourceFile

end GoPages

import GoPages.Parser.SourceFile
import GoPages.Proofs.Files.Token

/-!
# Parsers under another file name

No parser looks at the name of a file. `Parser.Maps φ f p q` says that `q` reads in the file under
another name what `p` reads in the file, but for the name in the locations of the value, which `f`
maps: it succeeds and fails with it, and leaves the same tokens.

The rules follow the way parsers are put together: `maps_pure`, `maps_bind`, `maps_ite` and
`maps_many`. They give `SourceFile.parse_mapFile`: a text under another file name declares the same,
in locations with this name.
-/

namespace GoPages

variable (φ : String → String)

/-! ### What has a location -/

/-- The name in another file. -/
def Ident.mapFile (id : Ident) : Ident := { id with location := id.location.mapFile φ }

namespace TypeExpr

mutual

/-- The type in another file. -/
def mapFile : TypeExpr → TypeExpr
  | ident id => ident (id.mapFile φ)
  | qualified package name => qualified (package.mapFile φ) (name.mapFile φ)
  | generic base args => generic (mapFile base) (mapFileList args)
  | pointer l elem => pointer (l.mapFile φ) (mapFile elem)
  | slice l elem => slice (l.mapFile φ) (mapFile elem)
  | array l len elem => array (l.mapFile φ) len (mapFile elem)
  | map l key value => map (l.mapFile φ) (mapFile key) (mapFile value)
  | chan l dir elem => chan (l.mapFile φ) dir (mapFile elem)
  | func ⟨params, results, l⟩ => func ⟨mapFileParams params, mapFileParams results, l.mapFile φ⟩
  | struct l fields => struct (l.mapFile φ) (mapFileFields fields)
  | interface l empty => interface (l.mapFile φ) empty
  | ellipsis l elem => ellipsis (l.mapFile φ) (mapFile elem)

/-- Types in another file. -/
def mapFileList : List TypeExpr → List TypeExpr
  | [] => []
  | t :: ts => mapFile t :: mapFileList ts

/-- Parameters or results in another file. -/
def mapFileParams : List (ParamOf TypeExpr) → List (ParamOf TypeExpr)
  | [] => []
  | ⟨name, type⟩ :: params => ⟨name.map (Ident.mapFile φ), mapFile type⟩ :: mapFileParams params

/-- Field declarations in another file. -/
def mapFileFields : List (FieldOf TypeExpr) → List (FieldOf TypeExpr)
  | [] => []
  | ⟨names, type, tag⟩ :: fields =>
    ⟨names.map (Ident.mapFile φ), mapFile type, tag⟩ :: mapFileFields fields

end

end TypeExpr

/-- The parameter in another file. -/
def ParamOf.mapFile (p : ParamOf TypeExpr) : ParamOf TypeExpr :=
  ⟨p.name.map (Ident.mapFile φ), p.type.mapFile φ⟩

/-- The field declaration in another file. -/
def FieldOf.mapFile (f : FieldOf TypeExpr) : FieldOf TypeExpr :=
  ⟨f.names.map (Ident.mapFile φ), f.type.mapFile φ, f.tag⟩

/-- The function type in another file. -/
def SignatureOf.mapFile (s : SignatureOf TypeExpr) : SignatureOf TypeExpr :=
  ⟨s.params.map (ParamOf.mapFile φ), s.results.map (ParamOf.mapFile φ), s.location.mapFile φ⟩

namespace TypeExpr

theorem mapFileList_eq (ts : List TypeExpr) : mapFileList φ ts = ts.map (mapFile φ) := by
  induction ts with
  | nil => rfl
  | cons t ts ih => rw [mapFileList, ih, List.map_cons]

theorem mapFileParams_eq (ps : List (ParamOf TypeExpr)) :
    mapFileParams φ ps = ps.map (ParamOf.mapFile φ) := by
  induction ps with
  | nil => rfl
  | cons p ps ih => rw [mapFileParams, ih, List.map_cons, ParamOf.mapFile]

theorem mapFileFields_eq (fs : List (FieldOf TypeExpr)) :
    mapFileFields φ fs = fs.map (FieldOf.mapFile φ) := by
  induction fs with
  | nil => rfl
  | cons f fs ih => rw [mapFileFields, ih, List.map_cons, FieldOf.mapFile]

theorem mapFile_generic (base : TypeExpr) (args : List TypeExpr) :
    (generic base args).mapFile φ = generic (base.mapFile φ) (args.map (mapFile φ)) := by
  rw [mapFile, mapFileList_eq]

theorem mapFile_func (type : SignatureOf TypeExpr) :
    (func type).mapFile φ = func (type.mapFile φ) := by
  rw [mapFile, mapFileParams_eq, mapFileParams_eq, SignatureOf.mapFile]

theorem mapFile_struct (l : Location) (fields : List (FieldOf TypeExpr)) :
    (struct l fields).mapFile φ = struct (l.mapFile φ) (fields.map (FieldOf.mapFile φ)) := by
  rw [mapFile, mapFileFields_eq]

/-- A type expression stands in the other file. -/
theorem location_mapFile : ∀ e : TypeExpr, (e.mapFile φ).location = e.location.mapFile φ
  | ident _ | qualified _ _ | pointer _ _ | slice _ _ | array _ _ _ | map _ _ _ | chan _ _ _
  | func _ | struct _ _ | interface _ _ | ellipsis _ _ => by simp [mapFile, location, Ident.mapFile]
  | generic base args => by
    rw [mapFile, location, location]
    exact location_mapFile base

/-- The name under which a type is embedded stands in the other file. -/
theorem embeddedName_mapFile :
    ∀ e : TypeExpr, (e.mapFile φ).embeddedName = e.embeddedName.map (Ident.mapFile φ)
  | ident _ | qualified _ _ | slice _ _ | array _ _ _ | map _ _ _ | chan _ _ _ | func _
  | struct _ _ | interface _ _ | ellipsis _ _ => by simp [mapFile, embeddedName]
  | generic base _ => by
    rw [mapFile, embeddedName, embeddedName]
    exact embeddedName_mapFile base
  | pointer _ elem => by
    rw [mapFile, embeddedName, embeddedName]
    exact embeddedName_mapFile elem

end TypeExpr

/-! ### Cursors -/

/-- The cursor in another file. -/
def Cursor.mapFile (c : Cursor) : Cursor :=
  ⟨c.prevLine, c.left.map (Token.mapFile φ), c.finish.mapFile φ⟩

/-- The error in another file. -/
def SyntaxError.mapFile (e : SyntaxError) : SyntaxError := ⟨e.fault, e.location.mapFile φ⟩

/-- The bracket that closes a list is found by the texts of tokens alone. -/
theorem closing?_mapFile (depth : Nat) (ts : List Token) :
    closing? depth (ts.map (Token.mapFile φ)) =
      (closing? depth ts).map fun (inner, close, rest) =>
        (inner.map (Token.mapFile φ), close.mapFile φ, rest.map (Token.mapFile φ)) := by
  induction ts generalizing depth with
  | nil => rfl
  | cons t ts ih =>
    have hopens : (t.mapFile φ).opens = t.opens := rfl
    have hcloses : (t.mapFile φ).closes = t.closes := rfl
    rw [List.map_cons, closing?, closing?, hopens, hcloses, ih, ih, ih]
    split
    · simp [Function.comp_def]
    split
    · split
      · rfl
      · simp [Function.comp_def]
    · simp [Function.comp_def]

namespace Cursor

variable (c : Cursor)

private theorem firstOf_mapFile (ts : List Token) :
    (c.mapFile φ).firstOf (ts.map (Token.mapFile φ)) = (c.firstOf ts).mapFile φ := by
  cases ts <;> rfl

/-- The token at the cursor is in the other file. -/
theorem tok_mapFile : (c.mapFile φ).tok = c.tok.mapFile φ := c.firstOf_mapFile φ c.left

theorem peek_mapFile (n : Nat) : (c.mapFile φ).peek n = (c.peek n).mapFile φ := by
  rw [peek, peek, ← firstOf_mapFile, List.map_drop]
  rfl

theorem advance_mapFile : (c.mapFile φ).advance = c.advance.mapFile φ := by
  obtain ⟨prevLine, left, finish⟩ := c
  cases left <;> rfl

theorem after_mapFile (read rest : List Token) :
    (c.mapFile φ).after (read.map (Token.mapFile φ)) (rest.map (Token.mapFile φ)) =
      (c.after read rest).mapFile φ := by
  rw [after, after, List.getLast?_map]
  cases read.getLast? <;> rfl

private theorem size_mapFile : (c.mapFile φ).size = c.size := List.length_map _

theorem afterBracket?_mapFile (n : Nat) :
    (c.mapFile φ).afterBracket? n = (c.afterBracket? n).map (Token.mapFile φ) := by
  have hdrop : (c.mapFile φ).left.drop (n + 1) = (c.left.drop (n + 1)).map (Token.mapFile φ) :=
    List.map_drop.symm
  rw [afterBracket?, afterBracket?, hdrop, closing?_mapFile, Option.map_map, Option.map_map]
  congr 1
  funext ⟨inner, close, rest⟩
  exact c.firstOf_mapFile φ rest

end Cursor

/-! ### Rules -/

namespace Parser

variable {α β : Type}

/-- What a parser gives, in another file. -/
def mapResult (f : α → α) : Except SyntaxError (α × Cursor) → Except SyntaxError (α × Cursor)
  | .error e => .error (e.mapFile φ)
  | .ok (a, c) => .ok (f a, c.mapFile φ)

/-- In another file, `q` reads what `p` reads in the file. -/
def Maps (f : α → α) (p q : Parser α) : Prop := ∀ c, q (c.mapFile φ) = mapResult φ f (p c)

section Rules

variable {φ : String → String} {f : α → α} {g : β → β} {p q p' q' : Parser α}

/-- A value is given without reading, and it is mapped. -/
theorem maps_pure (a : α) : Maps φ f (pure a) (pure (f a)) := fun _ => rfl

/-- Parsers in sequence agree if each does, the second one for all values of the first. -/
theorem maps_bind {k k' : α → Parser β} (h : Maps φ f p q)
    (hk : ∀ a, Maps φ g (k a) (k' (f a))) : Maps φ g (p >>= k) (q >>= k') := by
  intro c
  have hc := h c
  cases hp : p c with
  | error e =>
    rw [hp] at hc
    simp [bind, StateT.bind, Except.bind, hp, hc, mapResult]
  | ok r =>
    rw [hp] at hc
    have hr := hk r.1 r.2
    simpa [bind, StateT.bind, Except.bind, hp, hc, mapResult] using hr

/-- A choice that does not look at the file is made alike. -/
theorem maps_ite {b : Prop} [Decidable b] (hp : Maps φ f p q) (hq : Maps φ f p' q') :
    Maps φ f (if b then p else p') (if b then q else q') := by
  split
  · exact hp
  · exact hq

/-- What a look at the tokens gives is mapped. -/
theorem maps_look {h h' : Cursor → α} (hh : ∀ c, h' (c.mapFile φ) = f (h c)) :
    Maps φ f (look h) (look h') := by
  intro c
  rw [look, hh]
  rfl

/-- A repeated step agrees if the step does. -/
theorem maps_many {step step' : Parser (Option α)} (h : Maps φ (Option.map f) step step') :
    Maps φ (List.map f) (many step) (many step') := by
  intro c
  change manyFrom step' (c.mapFile φ) = mapResult φ (List.map f) (manyFrom step c)
  -- a step gets as far in the other file, so the loop goes on, ends or stalls alike
  fun_induction manyFrom step c with
  | case1 c e hstep =>
    rw [manyFrom, h, hstep]
    rfl
  | case2 c c₁ hstep =>
    rw [manyFrom, h, hstep]
    rfl
  | case3 c a c₁ hstep hsize e hrest ih =>
    have hsize' : (c₁.mapFile φ).size < (c.mapFile φ).size := by simpa [Cursor.size_mapFile]
    rw [manyFrom, h, hstep]
    simp only [mapResult, Option.map_some, hsize', if_true, ih, hrest]
  | case4 c a c₁ hstep hsize as c₂ hrest ih =>
    have hsize' : (c₁.mapFile φ).size < (c.mapFile φ).size := by simpa [Cursor.size_mapFile]
    rw [manyFrom, h, hstep]
    simp only [mapResult, Option.map_some, hsize', if_true, ih, hrest, List.map_cons]
  | case5 c a c₁ hstep hsize =>
    have hsize' : ¬ (c₁.mapFile φ).size < (c.mapFile φ).size := by
      simpa [Cursor.size_mapFile] using hsize
    rw [manyFrom, h, hstep]
    simp only [mapResult, Option.map_some, hsize', if_false, fail, Cursor.tok_mapFile]
    rfl

end Rules

/-! ### Single tokens -/

section Tokens

variable {φ : String → String} {f : α → α}

/-- A fault stands at the token at the cursor. -/
theorem maps_fail (fault : SyntaxFault) : Maps φ f (fail fault) (fail fault) := by
  intro c
  rw [fail, Cursor.tok_mapFile]
  rfl

/-- A fault stands where it is put. -/
theorem maps_failAt (l : Location) (fault : SyntaxFault) :
    Maps φ f (failAt l fault) (failAt (l.mapFile φ) fault) := fun _ => rfl

theorem maps_failExpected (what : String) : Maps φ f (failExpected what) (failExpected what) := by
  intro c
  rw [failExpected, Cursor.tok_mapFile]
  rfl

theorem maps_tok : Maps φ (Token.mapFile φ) tok tok := maps_look (Cursor.tok_mapFile φ)

theorem maps_advance : Maps φ id advance advance := by
  intro c
  rw [advance, Cursor.advance_mapFile]
  rfl

theorem maps_op (text : String) : Maps φ id (op text) (op text) := by
  intro c
  rw [op, op, Cursor.tok_mapFile, Token.isOp_mapFile]
  split
  · exact maps_advance c
  · exact maps_failExpected _ c

theorem maps_ident : Maps φ (Ident.mapFile φ) ident ident := by
  intro c
  rw [ident, ident, Cursor.tok_mapFile, Token.kind_mapFile]
  split
  · rw [Cursor.advance_mapFile]
    rfl
  · exact maps_failExpected _ c

theorem maps_endOfItem : Maps φ id endOfItem endOfItem := by
  intro c
  rw [endOfItem, endOfItem, Cursor.tok_mapFile, Token.kind_mapFile, Token.isOp_mapFile,
    Token.isOp_mapFile]
  split
  · exact maps_advance c
  split
  · rfl
  · exact maps_failExpected _ c

theorem maps_skipSemicolons : Maps φ id skipSemicolons skipSemicolons := by
  intro c
  have hsemicolon : (fun t : Token => t.kind == .semicolon) ∘ Token.mapFile φ =
      fun t => t.kind == .semicolon := rfl
  have hleft : (c.mapFile φ).left = c.left.map (Token.mapFile φ) := rfl
  simp only [skipSemicolons, hleft, List.takeWhile_map, List.dropWhile_map, hsemicolon,
    Cursor.after_mapFile]
  rfl

theorem maps_balanced : Maps φ (List.map (Token.mapFile φ)) balanced balanced := by
  intro c
  have hdrop : (c.mapFile φ).left.drop 1 = (c.left.drop 1).map (Token.mapFile φ) :=
    List.map_drop.symm
  rw [balanced, balanced, hdrop, closing?_mapFile]
  cases closing? 0 (c.left.drop 1) with
  | none => exact maps_fail _ c
  | some cut =>
    obtain ⟨inner, close, rest⟩ := cut
    have hafter := c.after_mapFile φ [close] rest
    exact congrArg (fun c' : Cursor => Except.ok (inner.map (Token.mapFile φ), c')) hafter

end Tokens

end Parser

end GoPages

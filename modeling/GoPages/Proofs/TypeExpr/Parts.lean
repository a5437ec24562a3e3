import GoPages.Parser.SourceFile
import GoPages.TypeExpr.Render

/-!
# The parts of type expressions

* `TypeExpr.unplaced` is a type expression without its locations: two type expressions with the same
  one differ in their places alone.
* `TypeExpr.parts` are a type expression and those inside it, at any depth; `SourceFile.typeExprs`
  are those of a file.
* `TypeExpr.levels` is the depth to which a type expression nests, as the parser counts it: the
  parts of a function or struct type two levels, those of every other type one. A name that stands
  alone in a parameter list is not counted.
-/

namespace GoPages

/-! ### Without places -/

/-- The name without its place. -/
def Ident.unplaced (id : Ident) : Ident := ⟨id.name, .unknown⟩

namespace TypeExpr

mutual

/-- The type expression without places. -/
def unplaced : TypeExpr → TypeExpr
  | ident id => ident id.unplaced
  | qualified package id => qualified package.unplaced id.unplaced
  | generic base args => generic (unplaced base) (unplacedList args)
  | pointer _ elem => pointer .unknown (unplaced elem)
  | slice _ elem => slice .unknown (unplaced elem)
  | array _ len elem => array .unknown len (unplaced elem)
  | map _ key value => map .unknown (unplaced key) (unplaced value)
  | chan _ dir elem => chan .unknown dir (unplaced elem)
  | func ⟨params, results, _⟩ => func ⟨unplacedParams params, unplacedParams results, .unknown⟩
  | struct _ fields => struct .unknown (unplacedFields fields)
  | interface _ empty => interface .unknown empty
  | ellipsis _ elem => ellipsis .unknown (unplaced elem)

/-- Type expressions without places. -/
def unplacedList : List TypeExpr → List TypeExpr
  | [] => []
  | t :: ts => unplaced t :: unplacedList ts

/-- Parameters or results without places. -/
def unplacedParams : List (ParamOf TypeExpr) → List (ParamOf TypeExpr)
  | [] => []
  | ⟨name, type⟩ :: params => ⟨name.map Ident.unplaced, unplaced type⟩ :: unplacedParams params

/-- Field declarations without places. -/
def unplacedFields : List (FieldOf TypeExpr) → List (FieldOf TypeExpr)
  | [] => []
  | ⟨names, type, tag⟩ :: fields =>
    ⟨names.map Ident.unplaced, unplaced type, tag⟩ :: unplacedFields fields

end

end TypeExpr

/-- The parameter without its places. -/
def ParamOf.unplaced (p : Param) : Param := ⟨p.name.map Ident.unplaced, p.type.unplaced⟩

/-- The field declaration without its places. -/
def FieldOf.unplaced (f : FieldDecl) : FieldDecl :=
  ⟨f.names.map Ident.unplaced, f.type.unplaced, f.tag⟩

/-- The function type without its places. -/
def SignatureOf.unplaced (s : FuncType) : FuncType :=
  ⟨s.params.map ParamOf.unplaced, s.results.map ParamOf.unplaced, .unknown⟩

namespace TypeExpr

private theorem unplacedList_eq (ts : List TypeExpr) : unplacedList ts = ts.map unplaced := by
  induction ts with
  | nil => rfl
  | cons t ts ih => rw [unplacedList, ih, List.map_cons]

private theorem unplacedParams_eq (ps : List Param) :
    unplacedParams ps = ps.map ParamOf.unplaced := by
  induction ps with
  | nil => rfl
  | cons p ps ih => rw [unplacedParams, ih, List.map_cons, ParamOf.unplaced]

private theorem unplacedFields_eq (fs : List FieldDecl) :
    unplacedFields fs = fs.map FieldOf.unplaced := by
  induction fs with
  | nil => rfl
  | cons f fs ih => rw [unplacedFields, ih, List.map_cons, FieldOf.unplaced]

/-- Locations are dropped from the base and from each argument. -/
theorem unplaced_generic (base : TypeExpr) (args : List TypeExpr) :
    (generic base args).unplaced = generic base.unplaced (args.map unplaced) := by
  rw [unplaced, unplacedList_eq]

/-- Locations are dropped from a function type. -/
theorem unplaced_func (type : FuncType) : (func type).unplaced = func type.unplaced := by
  rw [unplaced, unplacedParams_eq, unplacedParams_eq, SignatureOf.unplaced]

/-- Locations are dropped from a struct type and from its fields. -/
theorem unplaced_struct (l : Location) (fields : List FieldDecl) :
    (struct l fields).unplaced = struct .unknown (fields.map FieldOf.unplaced) := by
  rw [unplaced, unplacedFields_eq]

/-! ### Parts -/

mutual

/-- The type expression and all inside it. -/
def parts : TypeExpr → List TypeExpr
  | ident id => [ident id]
  | qualified package id => [qualified package id]
  | generic base args => generic base args :: (parts base ++ partsList args)
  | pointer l elem => pointer l elem :: parts elem
  | slice l elem => slice l elem :: parts elem
  | array l len elem => array l len elem :: parts elem
  | map l key value => map l key value :: (parts key ++ parts value)
  | chan l dir elem => chan l dir elem :: parts elem
  | func ⟨params, results, l⟩ =>
    func ⟨params, results, l⟩ :: (partsParams params ++ partsParams results)
  | struct l fields => struct l fields :: partsFields fields
  | interface l empty => [interface l empty]
  | ellipsis l elem => ellipsis l elem :: parts elem

/-- The parts of type expressions. -/
def partsList : List TypeExpr → List TypeExpr
  | [] => []
  | t :: ts => parts t ++ partsList ts

/-- The parts of the types of parameters or results. -/
def partsParams : List (ParamOf TypeExpr) → List TypeExpr
  | [] => []
  | ⟨_, type⟩ :: params => parts type ++ partsParams params

/-- The parts of the types of fields. -/
def partsFields : List (FieldOf TypeExpr) → List TypeExpr
  | [] => []
  | ⟨_, type, _⟩ :: fields => parts type ++ partsFields fields

end

private theorem partsList_eq (ts : List TypeExpr) : partsList ts = ts.flatMap parts := by
  induction ts with
  | nil => rfl
  | cons t ts ih => rw [partsList, ih, List.flatMap_cons]

private theorem partsParams_eq (ps : List Param) :
    partsParams ps = ps.flatMap fun p => p.type.parts := by
  induction ps with
  | nil => rfl
  | cons p ps ih => rw [partsParams, ih, List.flatMap_cons]

private theorem partsFields_eq (fs : List FieldDecl) :
    partsFields fs = fs.flatMap fun f => f.type.parts := by
  induction fs with
  | nil => rfl
  | cons f fs ih => rw [partsFields, ih, List.flatMap_cons]

/-- The parts of a type with arguments are itself and those of its base and arguments. -/
theorem parts_generic (base : TypeExpr) (args : List TypeExpr) :
    (generic base args).parts = generic base args :: (base.parts ++ args.flatMap parts) := by
  rw [parts, partsList_eq]

/-- The parts of a function type are itself and those of its parameters and results. -/
theorem parts_func (type : FuncType) : (func type).parts =
    func type :: ((type.params.flatMap fun p => p.type.parts) ++
      type.results.flatMap fun p => p.type.parts) := by
  rw [parts, partsParams_eq, partsParams_eq]

/-- The parts of a struct type are itself and those of the types of its fields. -/
theorem parts_struct (l : Location) (fields : List FieldDecl) :
    (struct l fields).parts = struct l fields :: fields.flatMap fun f => f.type.parts := by
  rw [parts, partsFields_eq]

end TypeExpr

/-- The types that a function declaration names: those of its receiver, parameters and results. -/
def FuncDecl.types (decl : FuncDecl) : List TypeExpr :=
  (decl.receiver.map Receiver.type).toList ++ decl.type.params.map ParamOf.type ++
    decl.type.results.map ParamOf.type

/-- All type expressions of a file, at any depth. -/
def SourceFile.typeExprs (file : SourceFile) : List TypeExpr :=
  (file.types.map TypeSpec.type ++ file.funcs.flatMap FuncDecl.types).flatMap TypeExpr.parts

/-! ### Levels -/

/-- Is the parameter a type name without a package, and has it no name? -/
def ParamOf.isLone (p : Param) : Bool :=
  match p with
  | ⟨none, .ident _⟩ => true
  | _ => false

namespace TypeExpr

mutual

/-- The levels to which a type expression nests. -/
def levels : TypeExpr → Nat
  | ident _ | qualified _ _ | interface _ _ => 1
  | generic _ args => levelsList args + 1
  | pointer _ elem | slice _ elem | array _ _ elem | chan _ _ elem | ellipsis _ elem =>
    levels elem + 1
  | map _ key value => max (levels key) (levels value) + 1
  | func ⟨params, results, _⟩ =>
    max 1 (max (levelsParams false params) (levelsParams (soleUnnamed results) results))
  | struct _ fields => max 1 (levelsFields fields)

/-- The most levels of some types. -/
def levelsList : List TypeExpr → Nat
  | [] => 0
  | t :: ts => max (levels t) (levelsList ts)

/-- The most levels of parameters or results, given whether one without parentheses is meant. -/
def levelsParams (bare : Bool) : List (ParamOf TypeExpr) → Nat
  | [] => 0
  | ⟨name, type⟩ :: params =>
    max (if !bare && ParamOf.isLone ⟨name, type⟩ then 0 else levels type + 2)
      (levelsParams bare params)

/-- The most levels of fields. -/
def levelsFields : List (FieldOf TypeExpr) → Nat
  | [] => 0
  | ⟨_, type, _⟩ :: fields => max (levels type + 2) (levelsFields fields)

end

/-- No member of a list nests deeper than the list. -/
theorem levels_le_levelsList {ts : List TypeExpr} : ∀ t ∈ ts, t.levels ≤ levelsList ts := by
  induction ts with
  | nil => exact fun _ h => nomatch h
  | cons t ts ih =>
    rw [levelsList]
    refine List.forall_mem_cons.mpr ⟨Nat.le_max_left _ _, fun u hu => ?_⟩
    exact Nat.le_trans (ih u hu) (Nat.le_max_right _ _)

/-- No type in a parameter list nests deeper than the list, with the two levels of the function
type; names that stand alone in a bare list are not counted. -/
theorem levels_le_levelsParams {bare : Bool} {ps : List Param} :
    ∀ p ∈ ps, bare = true ∨ p.isLone = false → p.type.levels + 2 ≤ levelsParams bare ps := by
  induction ps with
  | nil => exact fun _ h => nomatch h
  | cons p ps ih =>
    rw [levelsParams]
    refine List.forall_mem_cons.mpr ⟨fun hp => ?_, fun q hq h => ?_⟩
    · have hcounted : ¬ (!bare && ParamOf.isLone ⟨p.name, p.type⟩) = true := by
        rcases hp with rfl | hp
        · simp
        · rw [show ParamOf.isLone ⟨p.name, p.type⟩ = false from hp]
          simp
      rw [if_neg hcounted]
      exact Nat.le_max_left _ _
    · exact Nat.le_trans (ih q hq h) (Nat.le_max_right _ _)

/-- No type of a field nests deeper than the fields, with the two levels of the struct type. -/
theorem levels_le_levelsFields {fs : List FieldDecl} :
    ∀ f ∈ fs, f.type.levels + 2 ≤ levelsFields fs := by
  induction fs with
  | nil => exact fun _ h => nomatch h
  | cons f fs ih =>
    rw [levelsFields]
    refine List.forall_mem_cons.mpr ⟨Nat.le_max_left _ _, fun g hg => ?_⟩
    exact Nat.le_trans (ih g hg) (Nat.le_max_right _ _)

end TypeExpr

end GoPages

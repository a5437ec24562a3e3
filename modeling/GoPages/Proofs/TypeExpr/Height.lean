import GoPages.Proofs.Package.Resolved
import GoPages.Proofs.TypeExpr.Spelling

/-!
# The height of type expressions

`TypeExpr.children` are the type expressions that one is made of, and `TypeExpr.height` is the
number of type expressions on a longest path down from it (`TypeExpr.height_le_iff_path`).

`TypeExpr.foldWithin` is a recursion over a type expression with a bound on the calls inside each
other. It comes to its end exactly if the bound is not below the height
(`TypeExpr.foldWithin_eq`). What a type expression denotes, what is wrong with it, and how it is
written, are found by such recursions.
-/

namespace GoPages

namespace TypeExpr

variable {β : Type} {e u : TypeExpr} {n : ℕ}

/-- The type expressions that one is made of. -/
def children : TypeExpr → List TypeExpr
  | ident _ | qualified _ _ | interface _ _ => []
  | generic base args => base :: args
  | pointer _ elem | slice _ elem | array _ _ elem | chan _ _ elem | ellipsis _ elem => [elem]
  | map _ key value => [key, value]
  | func type => type.params.map ParamOf.type ++ type.results.map ParamOf.type
  | struct _ fields => fields.map FieldOf.type

/-! ### Height -/

mutual

/-- The number of type expressions on a longest path down from one. -/
def height : TypeExpr → ℕ
  | ident _ | qualified _ _ | interface _ _ => 1
  | generic base args => max (height base) (heightList args) + 1
  | pointer _ elem | slice _ elem | array _ _ elem | chan _ _ elem | ellipsis _ elem =>
    height elem + 1
  | map _ key value => max (height key) (height value) + 1
  | func ⟨params, results, _⟩ => max (heightParams params) (heightParams results) + 1
  | struct _ fields => heightFields fields + 1

/-- The greatest height of type expressions. -/
def heightList : List TypeExpr → ℕ
  | [] => 0
  | t :: ts => max (height t) (heightList ts)

/-- The greatest height of the types of parameters or results. -/
def heightParams : List (ParamOf TypeExpr) → ℕ
  | [] => 0
  | ⟨_, type⟩ :: params => max (height type) (heightParams params)

/-- The greatest height of the types of fields. -/
def heightFields : List (FieldOf TypeExpr) → ℕ
  | [] => 0
  | ⟨_, type, _⟩ :: fields => max (height type) (heightFields fields)

end

/-- A height bounds a list exactly if it bounds each of its members. -/
private theorem heightList_le_iff {ts : List TypeExpr} :
    heightList ts ≤ n ↔ ∀ t ∈ ts, t.height ≤ n := by
  induction ts with
  | nil => simp [heightList]
  | cons t ts ih => rw [heightList, Nat.max_le, ih, List.forall_mem_cons]

private theorem heightParams_le_iff {ps : List Param} :
    heightParams ps ≤ n ↔ ∀ p ∈ ps, p.type.height ≤ n := by
  induction ps with
  | nil => simp [heightParams]
  | cons p ps ih => rw [heightParams, Nat.max_le, ih, List.forall_mem_cons]

private theorem heightFields_le_iff {fs : List FieldDecl} :
    heightFields fs ≤ n ↔ ∀ f ∈ fs, f.type.height ≤ n := by
  induction fs with
  | nil => simp [heightFields]
  | cons f fs ih => rw [heightFields, Nat.max_le, ih, List.forall_mem_cons]

/-- A type expression is by one higher than those that it is made of. -/
theorem height_le_succ_iff : e.height ≤ n + 1 ↔ ∀ u ∈ e.children, u.height ≤ n := by
  cases e <;> simp [height, children, heightList_le_iff, heightParams_le_iff, heightFields_le_iff,
    or_imp, forall_and]

private theorem height_pos (e : TypeExpr) : 0 < e.height := by
  cases e <;> simp [height]

/-- A child is less high than the type expression. -/
private theorem height_lt_of_mem_children (h : u ∈ e.children) : u.height < e.height := by
  have hpos := e.height_pos
  have hle : u.height ≤ e.height - 1 := height_le_succ_iff.mp (by omega) u h
  omega

/-- The type expressions of a path down from one. -/
inductive Path : TypeExpr → List TypeExpr → Prop
  | here (e : TypeExpr) : Path e [e]
  | down {e u : TypeExpr} {us : List TypeExpr} (hu : u ∈ e.children) (h : Path u us) :
    Path e (e :: us)

/-- **The height is the length of a longest path.** -/
theorem height_le_iff_path : e.height ≤ n ↔ ∀ us, Path e us → us.length ≤ n := by
  constructor
  · intro h us hpath
    induction hpath generalizing n with
    | here e => exact Nat.le_trans e.height_pos h
    | @down e u us hu hpath ih =>
      have hlt := height_lt_of_mem_children hu
      have hrest := @ih (n - 1) (by omega)
      rw [List.length_cons]
      omega
  · intro h
    induction n generalizing e with
    | zero => exact absurd (h _ (.here e)) (by simp)
    | succ n ih =>
      refine height_le_succ_iff.mpr fun u hu => ih fun us hpath => ?_
      exact Nat.le_of_succ_le_succ (h _ (.down hu hpath))

/-- The parts of a type expression are itself and those of what it is made of. -/
theorem parts_eq_cons (e : TypeExpr) : e.parts = e :: e.children.flatMap parts := by
  cases e with
  | generic base args => rw [parts_generic, children, List.flatMap_cons]
  | func type =>
    rw [parts_func, children, List.flatMap_append, List.flatMap_map, List.flatMap_map]
  | struct l fields => rw [parts_struct, children, List.flatMap_map]
  | _ => simp [parts, children]

/-- A type expression is as high as its parts, or higher. -/
theorem height_le_of_mem_parts (e : TypeExpr) (hu : u ∈ e.parts) : u.height ≤ e.height := by
  rw [parts_eq_cons, List.mem_cons, List.mem_flatMap] at hu
  rcases hu with rfl | ⟨child, hchild, hu⟩
  · exact Nat.le_refl _
  · have hlt := height_lt_of_mem_children hchild
    exact Nat.le_trans (height_le_of_mem_parts child hu) (Nat.le_of_lt hlt)
termination_by e.height

/-! ### Recursions -/

/-- What a recursion finds, if it takes at most `n` calls inside each other. A step has a type
expression and what is found for those that it is made of. -/
def foldWithin (step : TypeExpr → List β → β) : ℕ → TypeExpr → Option β
  | 0, _ => none
  | n + 1, e => (e.children.mapM (foldWithin step n)).map (step e)

private theorem mapM_ite {p : TypeExpr → Prop} [DecidablePred p] (f : TypeExpr → β)
    (us : List TypeExpr) : us.mapM (fun u => if p u then some (f u) else none) =
      if ∀ u ∈ us, p u then some (us.map f) else none := by
  induction us with
  | nil => simp
  | cons u us ih =>
    rw [List.mapM_cons, ih]
    simp only [List.forall_mem_cons]
    by_cases hu : p u
    · by_cases hus : ∀ u ∈ us, p u
      · simp only [hu, if_pos hus, true_and, if_true]
        rfl
      · simp only [hu, if_neg hus, true_and, if_true]
        rfl
    · simp only [hu, false_and, if_false]
      rfl

/-- **A recursion needs as many calls inside each other as the type expression is high.** -/
theorem foldWithin_eq {step : TypeExpr → List β → β} {f : TypeExpr → β}
    (hf : ∀ e, f e = step e (e.children.map f)) (n : ℕ) (e : TypeExpr) :
    foldWithin step n e = if e.height ≤ n then some (f e) else none := by
  induction n generalizing e with
  | zero => rw [foldWithin, if_neg (Nat.not_le.mpr e.height_pos)]
  | succ n ih =>
    rw [foldWithin, funext ih, mapM_ite, hf e]
    simp only [height_le_succ_iff]
    split <;> rfl

/-- How a type expression is written, given how those are that it is made of. -/
def renderStep : TypeExpr → List String → String
  | ident id, _ => id.name
  | qualified package id, _ => package.name ++ "." ++ id.name
  | generic _ _, base :: args => base ++ "[" ++ commaList args ++ "]"
  | pointer _ _, [elem] => "*" ++ elem
  | slice _ _, [elem] => "[]" ++ elem
  | array _ len _, [elem] => "[" ++ len ++ "]" ++ elem
  | map _ _ _, [key, value] => "map[" ++ key ++ "]" ++ value
  | chan _ .both _, [elem] => "chan " ++ elem
  | chan _ .send _, [elem] => "chan<- " ++ elem
  | chan _ .recv _, [elem] => "<-chan " ++ elem
  | func type, texts =>
    let params := texts.take type.params.length
    let results := texts.drop type.params.length
    "func" ++ renderSignature (List.zipWith (fun p => renderParam p.name) type.params params)
      (List.zipWith (fun p => renderParam p.name) type.results results) (soleUnnamed type.results)
  | struct _ fields, texts =>
    "struct\x7b" ++ String.intercalate "; "
      (List.zipWith (fun f text => renderField f.names text f.tag) fields texts) ++ "\x7d"
  | interface _ empty, _ => if empty then "interface\x7b\x7d" else "interface\x7b...\x7d"
  | ellipsis _ _, [elem] => "..." ++ elem
  | _, _ => ""

end TypeExpr

namespace Scope

open TypeExpr

/-- What a type expression denotes, given what those denote that it is made of. -/
def resolveStep (s : Scope) : TypeExpr → List HostType → HostType
  | ident id, _ => (s.typeOfName? id.name).getD .invalid
  | qualified package id, _ =>
    match s.importPath? package.name with
    | some path => .named path id.name []
    | none => .invalid
  | generic _ _, base :: args => instantiate args base
  | pointer _ _, [elem] => .pointer elem
  | slice _ _, [elem] => .slice elem
  | ellipsis _ _, [elem] => .slice elem
  | array _ len _, [elem] => .array len elem
  | map _ _ _, [key, value] => .map key value
  | chan _ _ _, [elem] => .chan elem
  | func type, types =>
    .func (types.take type.params.length) (types.drop type.params.length) (isVariadic type.params)
  | struct _ fields, types =>
    .struct (List.zipWith (fun f type => fieldsOf f.names f.type f.tag type) fields types).flatten
  | interface _ empty, _ => .interface empty
  | _, _ => .invalid

/-- What is wrong with a type expression, given what is with those that it is made of. -/
def problemsStep (s : Scope) : TypeExpr → List (List TypeProblem) → List TypeProblem
  | ident id, _ => if (s.typeOfName? id.name).isSome then [] else [undefinedName id]
  | qualified package _, _ =>
    if (s.importPath? package.name).isSome then [] else [undefinedName package]
  | generic _ _, base :: args => args.flatten ++ base
  | generic _ _, [] => []
  | pointer _ _, problems | slice _ _, problems | ellipsis _ _, problems | array _ _ _, problems
  | map _ _ _, problems | chan _ _ _, problems | func _, problems | struct _ _, problems
  | interface _ _, problems => problems.flatten

/-- What a type expression denotes follows from what its children denote. -/
theorem resolve_eq_resolveStep (s : Scope) (e : TypeExpr) :
    s.resolve e = s.resolveStep e (e.children.map s.resolve) := by
  cases e with
  | qualified package id =>
    cases hpath : s.importPath? package.name <;> simp [resolve, resolveStep, hpath]
  | generic base args => simp [resolve, resolveStep, children, resolveList_eq]
  | func type =>
    rw [resolve, resolveStep, children, resolveParams_eq, resolveParams_eq, List.map_append,
      List.map_map, List.map_map, List.take_left' (by simp), List.drop_left' (by simp)]
    rfl
  | struct l fields =>
    rw [resolve, resolveStep, children, resolveFields_eq, List.map_map, List.zipWith_map_right,
      List.zipWith_self, List.flatMap_def]
    rfl
  | _ => simp [resolve, resolveStep, children]

/-- The problems of a type expression follow from those of its children. -/
theorem problems_eq_problemsStep (s : Scope) (e : TypeExpr) :
    s.problems e = s.problemsStep e (e.children.map s.problems) := by
  cases e with
  | generic base args =>
    simp [problems, problemsStep, children, problemsList_eq, List.flatMap_def]
  | func type =>
    rw [problems, problemsStep, children, problemsParams_eq, problemsParams_eq, List.map_append,
      List.flatten_append, List.map_map, List.map_map, List.flatMap_def, List.flatMap_def]
    rfl
  | struct l fields =>
    rw [problems, problemsStep, children, problemsFields_eq, List.map_map, List.flatMap_def]
    rfl
  | _ => simp [problems, problemsStep, children]

end Scope

/-- The text of a type expression follows from the texts of its children. -/
theorem TypeExpr.render_eq_renderStep (e : TypeExpr) :
    e.render = e.renderStep (e.children.map TypeExpr.render) := by
  cases e with
  | generic base args => simp [render, renderStep, children, renderArgs_eq]
  | chan l dir elem => cases dir <;> simp [render, renderStep, children]
  | func type =>
    rw [render, renderStep, children, renderParams_eq, renderParams_eq, List.map_append,
      List.map_map, List.map_map, List.take_left' (by simp), List.drop_left' (by simp),
      List.zipWith_map_right, List.zipWith_self, List.zipWith_map_right, List.zipWith_self]
    rfl
  | struct l fields =>
    rw [render, renderStep, children, renderFields_eq, List.map_map, List.zipWith_map_right,
      List.zipWith_self]
    rfl
  | _ => simp [render, renderStep, children]

end GoPages

import GoPages.Proofs.Analysis.AppFields
import GoPages.Proofs.Files.Package
import GoPages.Proofs.Package.Lines
import GoPages.Proofs.Package.Tables
import GoPages.Proofs.TypeExpr.Parts
import Mathlib.Logic.Relation

/-!
# Following declarations

A declared type is followed to the type of its declaration, and on from there, where every name is
followed once. This is a loop that remembers the names that it has met, and `Package.unseen` are the
declarations of the other names.

* `Package.underlyingWithin_eq` and `Package.unaliasWithin_eq`: the loops come to their end, in one
  round more than there are declarations.
* `Package.EndsIn` says that the declarations from a type on end in a type without a name. If they
  do, the loop finds this type, and otherwise it finds none (`Package.underlying_eq_of_endsIn` and
  `Package.underlying_eq_invalid`). So a declared type stands for what the type of its declaration
  stands for (`Package.underlying_eq_of_decl?`).
* `Package.unalias_unalias`: where aliases end, in a cycle or not, they end at once.

Aliases are followed in two ways: alone, and on the way to the type without a name that a type
stands for. The second looks up the type of a declaration under the type parameters of the
declaration, the first does not.

* `Scope.resolve_withTypeParams`: this makes no difference for a type expression that mentions none
  of the type parameters.
* `Package.underlying_unalias`: so a type stands for what its chain of aliases ends in stands for,
  if every alias of the chain denotes a declared type under its type parameters, or the same type
  with and without them (`Package.KeepsSense`). An alias of a type without a name that does mention
  its type parameters is unlike the type it stands for.
-/

namespace GoPages

namespace Package

variable {p : Package} {seen : List String} {name : String} {d : TypeDecl} {t u v w : HostType}
  {n m : ℕ}

/-! ### Names that have been met -/

/-- The declarations of names other than the given ones. -/
def unseen (p : Package) (seen : List String) : List TypeDecl :=
  p.typeDecls.filter fun d => d.name ∉ seen

@[simp] theorem unseen_nil (p : Package) : p.unseen [] = p.typeDecls := by
  simp [unseen]

@[simp] theorem without_unseen (p : Package) (name : String) (seen : List String) :
    without name (p.unseen seen) = p.unseen (name :: seen) := by
  rw [without, unseen, List.filter_filter, unseen]
  refine List.filter_congr fun d _ => ?_
  by_cases hname : d.name = name <;> simp [hname]

/-- Among the unseen declarations are those of all other names. -/
private theorem findDecl?_unseen (p : Package) (name : String) (seen : List String) :
    findDecl? name (p.unseen seen) = if name ∈ seen then none else p.typeDecl? name := by
  rw [findDecl?, unseen, List.find?_filter]
  split
  · next hmem =>
    refine List.find?_eq_none.mpr fun d _ hd => ?_
    simp only [decide_eq_true_eq, beq_iff_eq] at hd
    obtain ⟨hnot, hname⟩ := hd
    exact hnot (hname ▸ hmem)
  · next hmem =>
    rw [typeDecl?, findDecl?]
    congr 1
    funext d
    by_cases hname : d.name = name
    · simp [hname, hmem]
    · simp [hname]

/-- The declaration that a type of the package is followed to. -/
def decl? (p : Package) (t : HostType) : Option TypeDecl := t.localName.bind p.typeDecl?

/-- The declaration of the alias that a type is. -/
def alias? (p : Package) (t : HostType) : Option TypeDecl :=
  (p.decl? t).filter fun d => d.spec.isAlias

private theorem decl?_eq_some_iff :
    p.decl? t = some d ↔ t.localName = some d.name ∧ p.typeDecl? d.name = some d := by
  rw [decl?, Option.bind_eq_some_iff]
  constructor
  · rintro ⟨name, hname, hd⟩
    rw [name_of_typeDecl? hd]
    exact ⟨hname, hd⟩
  · exact fun h => ⟨d.name, h⟩

private theorem alias?_eq_some_iff : p.alias? t = some d ↔ p.decl? t = some d ∧ d.spec.isAlias := by
  rw [alias?, Option.filter_eq_some_iff]

/-- A declared name that is met leaves fewer to meet. -/
theorem length_unseen_cons_lt (hd : p.decl? t = some d) (hmem : d.name ∉ seen) :
    (p.unseen (d.name :: seen)).length < (p.unseen seen).length := by
  have hfind : findDecl? d.name (p.unseen seen) = some d := by
    rw [findDecl?_unseen, if_neg hmem]
    exact (decl?_eq_some_iff.mp hd).2
  rw [← without_unseen]
  exact length_without_lt hfind

/-- What holds of the names that have been met if it holds with one more declared name, holds of all
of them. -/
@[elab_as_elim]
theorem unseen_induction {motive : List String → Prop}
    (step : ∀ seen, (∀ t d, p.decl? t = some d → d.name ∉ seen → motive (d.name :: seen)) →
      motive seen) (seen : List String) : motive seen :=
  step seen fun _ d hd hmem =>
    have := length_unseen_cons_lt hd hmem
    unseen_induction step (d.name :: seen)
termination_by (p.unseen seen).length

/-- The loop for the type that a type stands for, after the names `seen`. -/
theorem underlyingFrom_unseen (p : Package) (seen : List String) (t : HostType) :
    p.underlyingFrom (p.unseen seen) t =
      match p.decl? t with
      | none => if t.localName.isSome then .invalid else t
      | some d =>
        if d.name ∈ seen then .invalid
        else p.underlyingFrom (p.unseen (d.name :: seen))
          ((p.declScope d).resolve d.spec.type) := by
  rw [underlyingFrom_eq, decl?]
  cases t.localName with
  | none => rfl
  | some name =>
    simp only [findDecl?_unseen, without_unseen, Option.bind_some]
    cases hd : p.typeDecl? name with
    | none => simp
    | some d =>
      obtain rfl := name_of_typeDecl? hd
      by_cases hmem : d.name ∈ seen <;> simp [hmem]

/-- The loop for the type that aliases end in, after the names `seen`. -/
theorem unaliasFrom_unseen (p : Package) (seen : List String) (t : HostType) :
    p.unaliasFrom (p.unseen seen) t =
      match p.alias? t with
      | none => t
      | some d =>
        if d.name ∈ seen then t
        else p.unaliasFrom (p.unseen (d.name :: seen)) ((p.scope d.file).resolve d.spec.type) := by
  rw [unaliasFrom_eq, alias?, decl?]
  cases t.localName with
  | none => rfl
  | some name =>
    simp only [findDecl?_unseen, without_unseen, Option.bind_some]
    cases hd : p.typeDecl? name with
    | none => simp
    | some d =>
      obtain rfl := name_of_typeDecl? hd
      by_cases hmem : d.name ∈ seen <;> cases halias : d.spec.isAlias <;>
        simp [hmem, halias, Option.filter]

/-! ### The loops come to their end -/

/-- The type that a type stands for, if it is found in a number of rounds after the names `seen`. -/
def underlyingWithin (p : Package) : ℕ → List String → HostType → Option HostType
  | 0, _, _ => none
  | n + 1, seen, t =>
    match p.decl? t with
    | none => some (if t.localName.isSome then .invalid else t)
    | some d =>
      if d.name ∈ seen then some .invalid
      else underlyingWithin p n (d.name :: seen) ((p.declScope d).resolve d.spec.type)

/-- The type that aliases end in, if it is found in a number of rounds after the names `seen`. -/
def unaliasWithin (p : Package) : ℕ → List String → HostType → Option HostType
  | 0, _, _ => none
  | n + 1, seen, t =>
    match p.alias? t with
    | none => some t
    | some d =>
      if d.name ∈ seen then some t
      else unaliasWithin p n (d.name :: seen) ((p.scope d.file).resolve d.spec.type)

/-- In one round more than there are unseen declarations the loop has found what it finds. -/
theorem underlyingWithin_eq (h : (p.unseen seen).length < n) :
    p.underlyingWithin n seen t = some (p.underlyingFrom (p.unseen seen) t) := by
  induction n generalizing seen t with
  | zero => omega
  | succ n ih =>
    rw [underlyingWithin, underlyingFrom_unseen]
    cases hd : p.decl? t with
    | none => rfl
    | some d =>
      by_cases hmem : d.name ∈ seen
      · simp [hmem]
      · have hlt := length_unseen_cons_lt hd hmem
        simpa only [if_neg hmem] using ih (by omega)

/-- So has the loop along aliases. -/
theorem unaliasWithin_eq (h : (p.unseen seen).length < n) :
    p.unaliasWithin n seen t = some (p.unaliasFrom (p.unseen seen) t) := by
  induction n generalizing seen t with
  | zero => omega
  | succ n ih =>
    rw [unaliasWithin, unaliasFrom_unseen]
    cases hd : p.alias? t with
    | none => rfl
    | some d =>
      by_cases hmem : d.name ∈ seen
      · simp [hmem]
      · have hlt := length_unseen_cons_lt (alias?_eq_some_iff.mp hd).1 hmem
        simpa only [if_neg hmem] using ih (by omega)

/-! ### Where declarations end -/

/-- The declarations from a type on end after a number of steps, in a type without a name. -/
inductive EndsIn (p : Package) : ℕ → HostType → HostType → Prop
  | here {t : HostType} (h : t.localName = none) : EndsIn p 0 t t
  | there {n : ℕ} {t v : HostType} {d : TypeDecl} (hd : p.decl? t = some d)
    (h : EndsIn p n ((p.declScope d).resolve d.spec.type) v) : EndsIn p (n + 1) t v

/-- After a declared type come the steps from the type of its declaration. -/
theorem EndsIn.exists_of_decl? (h : p.EndsIn n t v) (hd : p.decl? t = some d) :
    ∃ m, n = m + 1 ∧ p.EndsIn m ((p.declScope d).resolve d.spec.type) v := by
  cases h with
  | here hname => simp [decl?, hname] at hd
  | there hd' h =>
    obtain rfl := Option.some.inj (hd.symm.trans hd')
    exact ⟨_, rfl, h⟩

/-- Declarations end in one place, so the number of steps is settled. -/
theorem EndsIn.length_eq (h : p.EndsIn n t v) (h' : p.EndsIn m t w) : n = m := by
  induction h generalizing m with
  | here hname =>
    cases h' with
    | here => rfl
    | there hd => simp [decl?, hname] at hd
  | there hd _ ih =>
    obtain ⟨k, rfl, hk⟩ := h'.exists_of_decl? hd
    rw [ih hk]

/-- The loop finds where the declarations end, if it has met only names that are further away. -/
theorem underlyingFrom_eq_of_endsIn (h : p.EndsIn n t v)
    (hseen : ∀ u d m w, p.decl? u = some d → d.name ∈ seen → p.EndsIn m u w → n < m) :
    p.underlyingFrom (p.unseen seen) t = v := by
  induction h generalizing seen with
  | here hname => simp [underlyingFrom_unseen, decl?, hname]
  | @there n t v d hd h ih =>
    have hmem : d.name ∉ seen := fun hmem =>
      Nat.lt_irrefl _ (hseen t d _ v hd hmem (.there hd h))
    have hrest : p.underlyingFrom (p.unseen (d.name :: seen))
        ((p.declScope d).resolve d.spec.type) = v := by
      refine ih fun u d' m w hu hname hends => ?_
      rcases List.mem_cons.mp hname with hsame | hname
      · -- the name is that of `t`, so the steps from `u` are those from `t`
        have hdecl := (decl?_eq_some_iff.mp hu).2
        rw [hsame, (decl?_eq_some_iff.mp hd).2] at hdecl
        obtain ⟨k, rfl, hk⟩ := hends.exists_of_decl? (hu.trans hdecl.symm)
        exact (h.length_eq hk).symm ▸ Nat.lt_succ_self k
      · have := hseen u d' m w hu hname hends
        omega
    simp [underlyingFrom_unseen, hd, hmem, hrest]

/-- A declared type stands for the type that its declarations end in. -/
theorem underlying_eq_of_endsIn (h : p.EndsIn n t v) : p.underlying t = v := by
  rw [underlying, ← unseen_nil]
  exact underlyingFrom_eq_of_endsIn h fun _ _ _ _ _ hmem => absurd hmem List.not_mem_nil

/-- Where declarations do not end, the loop comes to a name that it has met or that is not declared.
-/
private theorem underlyingFrom_eq_invalid (seen : List String) (h : ∀ n v, ¬ p.EndsIn n t v) :
    p.underlyingFrom (p.unseen seen) t = .invalid := by
  induction seen using p.unseen_induction generalizing t with
  | step seen ih =>
    rw [underlyingFrom_unseen]
    cases hd : p.decl? t with
    | none =>
      have hname : t.localName.isSome := by
        rw [Option.isSome_iff_ne_none]
        exact fun hname => h 0 t (.here hname)
      simp [hname]
    | some d =>
      by_cases hmem : d.name ∈ seen
      · simp [hmem]
      · have hrest := ih t d hd hmem fun n v hends => h (n + 1) v (.there hd hends)
        simpa [hmem] using hrest

/-- A declared type whose declarations do not end stands for no type. -/
theorem underlying_eq_invalid (h : ∀ n v, ¬ p.EndsIn n t v) : p.underlying t = .invalid := by
  rw [underlying, ← unseen_nil]
  exact underlyingFrom_eq_invalid [] h

/-- **A declared type stands for what the type of its declaration stands for**, although the loop
from there has not met its name. -/
theorem underlying_eq_of_decl? (hd : p.decl? t = some d) :
    p.underlying t = p.underlying ((p.declScope d).resolve d.spec.type) := by
  by_cases hends : ∃ n v, p.EndsIn n ((p.declScope d).resolve d.spec.type) v
  · obtain ⟨n, v, h⟩ := hends
    rw [underlying_eq_of_endsIn h, underlying_eq_of_endsIn (.there hd h)]
  · rw [not_exists] at hends
    -- steps from `t` to an end would be steps from the type of its declaration, too
    rw [underlying_eq_invalid fun n v h => hends n ⟨v, h⟩, underlying_eq_invalid]
    intro n v h
    obtain ⟨m, -, hm⟩ := h.exists_of_decl? hd
    exact hends m ⟨v, hm⟩

/-! ### Where aliases end -/

/-- Aliases end in the same type when fewer names have been met, if that of the type is among
them. -/
theorem unaliasFrom_eq_of_subset {before : List String}
    (h : p.unaliasFrom (p.unseen seen) t = u) (hsubset : before ⊆ seen)
    (hu : ∀ d, p.alias? u = some d → d.name ∈ before) :
    p.unaliasFrom (p.unseen before) t = u := by
  induction seen using p.unseen_induction generalizing t before with
  | step seen ih =>
    rw [unaliasFrom_unseen] at h ⊢
    cases hd : p.alias? t with
    | none => simpa only [hd] using h
    | some d =>
      by_cases hmem : d.name ∈ seen
      · -- the longer way ends here, in `t`, whose name has been met on the shorter one as well
        simp only [hd, if_pos hmem] at h
        simp only [if_pos (hu d (h ▸ hd))]
        exact h
      · have hbefore : d.name ∉ before := fun hmem' => hmem (hsubset hmem')
        simp only [hd, if_neg hmem] at h
        simp only [if_neg hbefore]
        exact ih t d (alias?_eq_some_iff.mp hd).1 hmem h (List.cons_subset_cons _ hsubset)
          fun d' hd' => List.mem_cons_of_mem _ (hu d' hd')

/-- Aliases that have come back to the name of an alias go on as they did from it. -/
theorem unalias_eq_of_name_eq (hd : p.alias? t = some d)
    (h : p.unaliasFrom (p.unseen (d.name :: seen)) ((p.scope d.file).resolve d.spec.type) = u)
    {e : TypeDecl} (he : p.alias? u = some e) (hname : e.name = d.name) : p.unalias u = u := by
  have hsame : e = d := by
    have hdecl := (decl?_eq_some_iff.mp (alias?_eq_some_iff.mp he).1).2
    rw [hname, (decl?_eq_some_iff.mp (alias?_eq_some_iff.mp hd).1).2] at hdecl
    exact (Option.some.inj hdecl).symm
  subst hsame
  have hround : p.unaliasFrom (p.unseen [e.name]) ((p.scope e.file).resolve e.spec.type) = u := by
    refine unaliasFrom_eq_of_subset h (by simp) fun d' hd' => ?_
    rw [he] at hd'
    simp [Option.some.inj hd']
  rw [unalias, ← unseen_nil, unaliasFrom_unseen]
  simpa [he] using hround

/-- Aliases that end in a type whose name had not been met end there at once. -/
theorem unalias_eq_self (h : p.unaliasFrom (p.unseen seen) t = u)
    (hu : ∀ d, p.alias? u = some d → d.name ∉ seen) : p.unalias u = u := by
  induction seen using p.unseen_induction generalizing t with
  | step seen ih =>
    rw [unaliasFrom_unseen] at h
    cases hd : p.alias? t with
    | none =>
      simp only [hd] at h
      subst h
      rw [unalias, ← unseen_nil, unaliasFrom_unseen, hd]
    | some d =>
      by_cases hmem : d.name ∈ seen
      · simp only [hd, if_pos hmem] at h
        exact absurd hmem (hu d (h ▸ hd))
      · simp only [hd, if_neg hmem] at h
        -- from `t` on its name counts as met, so that `u` may be the alias where the cycle closes
        by_cases hlast : ∃ e, p.alias? u = some e ∧ e.name = d.name
        · obtain ⟨e, he, hname⟩ := hlast
          exact unalias_eq_of_name_eq hd h he hname
        · refine ih t d (alias?_eq_some_iff.mp hd).1 hmem h fun d' hd' hmem' => ?_
          rcases List.mem_cons.mp hmem' with hname | hmem'
          · exact hlast ⟨d', hd', hname⟩
          · exact hu d' hd' hmem'

/-- **Where aliases end, they end at once**, in a type that is no alias or in the alias where a
cycle closes. -/
theorem unalias_unalias (p : Package) (t : HostType) : p.unalias (p.unalias t) = p.unalias t := by
  have hfrom : p.unaliasFrom (p.unseen []) t = p.unalias t := by
    rw [unseen_nil, unalias]
  exact unalias_eq_self hfrom fun _ _ => List.not_mem_nil

end Package

/-! ### Type expressions without type parameters -/

namespace Scope

variable {s s' : Scope}

mutual

/-- A type expression denotes the same type in two scopes in which the names in it do. -/
theorem resolve_congr (himports : s.imports = s'.imports) :
    ∀ e : TypeExpr, (∀ id, .ident id ∈ e.parts → s.typeOfName? id.name = s'.typeOfName? id.name) →
      s.resolve e = s'.resolve e
  | .ident id, h => by rw [resolve, resolve, h id (List.mem_singleton_self _)]
  | .qualified package id, _ => by rw [resolve, resolve, importPath?, importPath?, himports]
  | .generic base args, h => by
    rw [resolve, resolve, resolve_congr himports base fun id hid => h id ?_,
      resolveList_congr himports args fun id hid => h id ?_]
    · exact List.mem_cons_of_mem _ (List.mem_append_right _ hid)
    · exact List.mem_cons_of_mem _ (List.mem_append_left _ hid)
  | .pointer _ elem, h | .slice _ elem, h | .ellipsis _ elem, h | .array _ _ elem, h
  | .chan _ _ elem, h => by
    rw [resolve, resolve, resolve_congr himports elem fun id hid => h id ?_]
    exact List.mem_cons_of_mem _ hid
  | .map _ key value, h => by
    rw [resolve, resolve, resolve_congr himports key fun id hid => h id ?_,
      resolve_congr himports value fun id hid => h id ?_]
    · exact List.mem_cons_of_mem _ (List.mem_append_right _ hid)
    · exact List.mem_cons_of_mem _ (List.mem_append_left _ hid)
  | .func ⟨params, results, _⟩, h => by
    rw [resolve, resolve, resolveParams_congr himports params fun id hid => h id ?_,
      resolveParams_congr himports results fun id hid => h id ?_]
    · exact List.mem_cons_of_mem _ (List.mem_append_right _ hid)
    · exact List.mem_cons_of_mem _ (List.mem_append_left _ hid)
  | .struct _ fields, h => by
    rw [resolve, resolve, resolveFields_congr himports fields fun id hid => h id ?_]
    exact List.mem_cons_of_mem _ hid
  | .interface _ _, _ => by rw [resolve, resolve]

private theorem resolveList_congr (himports : s.imports = s'.imports) :
    ∀ es : List TypeExpr, (∀ id, .ident id ∈ TypeExpr.partsList es →
      s.typeOfName? id.name = s'.typeOfName? id.name) → s.resolveList es = s'.resolveList es
  | [], _ => rfl
  | e :: es, h => by
    rw [resolveList, resolveList,
      resolve_congr himports e fun id hid => h id (List.mem_append_left _ hid),
      resolveList_congr himports es fun id hid => h id (List.mem_append_right _ hid)]

private theorem resolveParams_congr (himports : s.imports = s'.imports) :
    ∀ params : List (ParamOf TypeExpr), (∀ id, .ident id ∈ TypeExpr.partsParams params →
      s.typeOfName? id.name = s'.typeOfName? id.name) →
      s.resolveParams params = s'.resolveParams params
  | [], _ => rfl
  | ⟨_, type⟩ :: params, h => by
    rw [resolveParams, resolveParams,
      resolve_congr himports type fun id hid => h id (List.mem_append_left _ hid),
      resolveParams_congr himports params fun id hid => h id (List.mem_append_right _ hid)]

private theorem resolveFields_congr (himports : s.imports = s'.imports) :
    ∀ fields : List (FieldOf TypeExpr), (∀ id, .ident id ∈ TypeExpr.partsFields fields →
      s.typeOfName? id.name = s'.typeOfName? id.name) →
      s.resolveFields fields = s'.resolveFields fields
  | [], _ => rfl
  | ⟨_, type, _⟩ :: fields, h => by
    rw [resolveFields, resolveFields,
      resolve_congr himports type fun id hid => h id (List.mem_append_left _ hid),
      resolveFields_congr himports fields fun id hid => h id (List.mem_append_right _ hid)]

end

/-- **Type parameters that a type expression does not mention** make no difference for it. -/
theorem resolve_withTypeParams (s : Scope) (names : List String) (e : TypeExpr)
    (h : ∀ id, .ident id ∈ e.parts → id.name ∉ names) :
    (s.withTypeParams names).resolve e = s.resolve e := by
  have himports : (s.withTypeParams names).imports = s.imports := rfl
  refine resolve_congr himports e fun id hid => ?_
  simp [typeOfName?, withTypeParams, h id hid]

/-- What denotes a type of the package under type parameters does so without them. -/
theorem localName_resolve_eq_none (hparams : s.typeParams = []) (names : List String)
    {e : TypeExpr} (h : (s.resolve e).localName = none) :
    ((s.withTypeParams names).resolve e).localName = none := by
  rw [Option.eq_none_iff_forall_ne_some] at h ⊢
  exact fun name hname => h name
    ((localName_resolve_withTypeParams_iff hparams names name e).mpr (.inl hname))

end Scope

/-- The type of the declaration mentions no type parameter of the declaration. -/
def TypeDecl.IsParamFree (d : TypeDecl) : Prop :=
  ∀ name ∈ d.spec.type.parts.filterMap Package.plainName?, name ∉ d.spec.typeParams

instance (d : TypeDecl) : Decidable d.IsParamFree :=
  inferInstanceAs (Decidable (∀ name ∈ _, name ∉ _))

namespace Package

variable {p : Package} {d : TypeDecl} {t u : HostType} {name : String}

/-- Under the type parameters of the declaration its type is a declared type, or it is the same type
as without them. -/
def KeepsSense (p : Package) (d : TypeDecl) : Prop :=
  ((p.declScope d).resolve d.spec.type).localName.isSome ∨
    (p.declScope d).resolve d.spec.type = (p.scope d.file).resolve d.spec.type

/-- Type parameters that are not mentioned make no difference. -/
theorem keepsSense_of_isParamFree (p : Package) (h : d.IsParamFree) : p.KeepsSense d :=
  .inr ((p.scope d.file).resolve_withTypeParams d.spec.typeParams d.spec.type fun id hid =>
    h id.name (List.mem_filterMap.mpr ⟨_, hid, rfl⟩))

/-- Declared types of one name stand for the same type, whatever their type arguments are. -/
theorem underlying_eq_of_localName_eq (hname : t.localName = some name)
    (hname' : u.localName = some name) : p.underlying t = p.underlying u := by
  rw [underlying, underlying, ← unseen_nil, underlyingFrom_unseen, underlyingFrom_unseen, decl?,
    decl?, hname, hname']
  rfl

/-- The type of the declaration stands for the same type with and without the type parameters. -/
theorem KeepsSense.underlying_eq (h : p.KeepsSense d) :
    p.underlying ((p.declScope d).resolve d.spec.type) =
      p.underlying ((p.scope d.file).resolve d.spec.type) := by
  rcases h with hsome | heq
  · obtain ⟨name, hname⟩ := Option.isSome_iff_exists.mp hsome
    -- a type of the package under type parameters is one of the same name without them
    exact underlying_eq_of_localName_eq hname
      (((p.scope d.file).localName_resolve_withTypeParams_iff rfl d.spec.typeParams name
        d.spec.type).mpr (.inl hname))
  · rw [heq]

/-! ### Chains of aliases -/

/-- One step along a chain of aliases. -/
def AliasStep (p : Package) (t u : HostType) : Prop :=
  ∃ d, p.alias? t = some d ∧ u = (p.scope d.file).resolve d.spec.type

/-- Along a chain of aliases that keep their sense, all stands for the same type. -/
theorem underlying_unaliasFrom (seen : List String)
    (h : ∀ u d, Relation.ReflTransGen p.AliasStep t u → p.alias? u = some d → p.KeepsSense d) :
    p.underlying (p.unaliasFrom (p.unseen seen) t) = p.underlying t := by
  induction seen using p.unseen_induction generalizing t with
  | step seen ih =>
    rw [unaliasFrom_unseen]
    cases hd : p.alias? t with
    | none => rfl
    | some d =>
      by_cases hmem : d.name ∈ seen
      · simp [hmem]
      · have hdecl := (alias?_eq_some_iff.mp hd).1
        have hrest := ih t d hdecl hmem
          fun u e hchain => h u e (.head ⟨d, hd, rfl⟩ hchain)
        simp only [if_neg hmem]
        rw [hrest, underlying_eq_of_decl? hdecl, (h t d .refl hd).underlying_eq]

/-- The chain from an alias of a type without a name ends in this type. -/
theorem unalias_eq_of_localName_eq_none (hd : p.alias? t = some d)
    (h : ((p.scope d.file).resolve d.spec.type).localName = none) :
    p.unalias t = (p.scope d.file).resolve d.spec.type := by
  have hend : p.alias? ((p.scope d.file).resolve d.spec.type) = none := by
    simp [alias?, decl?, h]
  rw [unalias, ← unseen_nil, unaliasFrom_unseen, hd]
  simp [unaliasFrom_unseen, hend]

/-- A type without a name stands for itself. -/
theorem underlying_eq_self (h : t.localName = none) : p.underlying t = t :=
  underlying_eq_of_endsIn (.here h)

/-- An alias of a type without a name keeps what it stands for exactly if this type is the same
without the type parameters of the alias. -/
theorem underlying_unalias_eq_iff (hd : p.alias? t = some d)
    (hplain : ((p.scope d.file).resolve d.spec.type).localName = none) :
    p.underlying (p.unalias t) = p.underlying t ↔
      (p.scope d.file).resolve d.spec.type = (p.declScope d).resolve d.spec.type := by
  have hscoped : ((p.declScope d).resolve d.spec.type).localName = none :=
    Scope.localName_resolve_eq_none rfl d.spec.typeParams hplain
  rw [unalias_eq_of_localName_eq_none hd hplain, underlying_eq_self hplain,
    underlying_eq_of_decl? (alias?_eq_some_iff.mp hd).1, underlying_eq_self hscoped]

/-- **What a type stands for is what the end of its chain of aliases stands for**, if every alias of
the chain denotes a declared type under its type parameters, or the same type with and without them,
whatever cycles there are, and whatever the files import. For an alias of a type without a name it
is so exactly if this type is the same without the type parameters of the alias. -/
theorem underlying_unalias (p : Package) (t : HostType) :
    ((∀ u d, Relation.ReflTransGen p.AliasStep t u → p.alias? u = some d → p.KeepsSense d) →
      p.underlying (p.unalias t) = p.underlying t) ∧
    ∀ d, p.alias? t = some d → ((p.scope d.file).resolve d.spec.type).localName = none →
      (p.underlying (p.unalias t) = p.underlying t ↔
        (p.scope d.file).resolve d.spec.type = (p.declScope d).resolve d.spec.type) := by
  refine ⟨fun h => ?_, fun d => underlying_unalias_eq_iff⟩
  rw [unalias, ← unseen_nil]
  exact underlying_unaliasFrom [] h

/-- Aliases in two files with different imports: a chain, a generic cycle, an alias of a generic
type, and two generic aliases that mention their type parameter, of which `List` is one of a type
without a name. -/
def aliasesInFiles : List (String × List String) :=
  [("a.go",
    ["package app", "import clock \"time\"", "type A = B", "type C = clock.Time",
      "type Ring = Loop[int]", "type Boxed = Box[string]", "type Packed = Pack[string]"]),
   ("b.go",
    ["package app", "import clock \"example.com/clock\"", "type B = C", "type D = clock.Time",
      "type Loop[T any] = Ring", "type Box[T any] struct\x7b V T \x7d", "type Pack[T any] = Box[T]",
      "type List[T any] = []T"])]

/-- The declaration is of `List`, or no alias, or an alias that keeps its sense and does not lead to
`List`. -/
def leavesListAlone (p : Package) (d : TypeDecl) : Bool :=
  d.name == "List" || !d.spec.isAlias ||
    ((((p.declScope d).resolve d.spec.type).localName.isSome || decide d.IsParamFree) &&
      ((p.scope d.file).resolve d.spec.type).localName != some "List")

section LeavesListAlone

variable (hall : ∀ d ∈ p.typeDecls, p.leavesListAlone d)
include hall

/-- An alias on a chain that starts elsewhere than at `List` keeps its sense, and leads on
elsewhere. -/
private theorem keepsSense_of_leavesListAlone (ht : t.localName ≠ some "List")
    (hd : p.alias? t = some d) :
    p.KeepsSense d ∧ ((p.scope d.file).resolve d.spec.type).localName ≠ some "List" := by
  obtain ⟨hdecl, halias⟩ := alias?_eq_some_iff.mp hd
  obtain ⟨hname, hfind⟩ := decl?_eq_some_iff.mp hdecl
  have hne : d.name ≠ "List" := fun h => ht (h ▸ hname)
  have h := hall d (List.mem_of_find?_eq_some hfind)
  simp only [leavesListAlone, halias, Bool.not_true, Bool.or_false, Bool.or_eq_true, beq_iff_eq,
    hne, false_or, Bool.and_eq_true, decide_eq_true_eq, bne_iff_ne] at h
  exact ⟨h.1.elim .inl p.keepsSense_of_isParamFree, h.2⟩

/-- So the chain never comes to `List`. -/
private theorem ne_list_of_aliasChain (ht : t.localName ≠ some "List")
    (h : Relation.ReflTransGen p.AliasStep t u) : u.localName ≠ some "List" := by
  induction h with
  | refl => exact ht
  | tail _ hstep ih =>
    obtain ⟨d, hd, rfl⟩ := hstep
    exact (keepsSense_of_leavesListAlone hall ih hd).2

end LeavesListAlone

set_option maxRecDepth 100000 in
/-- The files load, and `List` is an alias of a type without a name that its type parameter changes.
-/
private theorem exists_load_aliasesInFiles : ∃ p, Package.load (sourcesOf aliasesInFiles) = .ok p ∧
    (∀ d ∈ p.typeDecls, p.leavesListAlone d) ∧ ∃ d, p.alias? (.named "" "List" []) = some d ∧
      ((p.scope d.file).resolve d.spec.type).localName = none ∧
      (p.scope d.file).resolve d.spec.type ≠ (p.declScope d).resolve d.spec.type := by
  have hall : ((Package.load (sourcesOf aliasesInFiles)).toOption.any fun p =>
      p.typeDecls.all p.leavesListAlone && (p.alias? (.named "" "List" [])).any fun d =>
        ((p.scope d.file).resolve d.spec.type).localName.isNone &&
          ((p.scope d.file).resolve d.spec.type).render !=
            ((p.declScope d).resolve d.spec.type).render) = true := by
    rw [Package.load_sourcesOf]
    decide +kernel
  obtain ⟨p, hload, hp⟩ := Package.exists_load_of_any hall
  simp only [Bool.and_eq_true, List.all_eq_true, Option.any_eq_true, Option.isNone_iff_eq_none,
    bne_iff_ne] at hp
  obtain ⟨hleaves, d, hd, hplain, htext⟩ := hp
  exact ⟨p, hload, hleaves, d, hd, hplain, fun heq => htext (congrArg HostType.render heq)⟩

/-- Each of these types but `List` stands for what its aliases end in. -/
theorem underlying_unalias_aliasesInFiles :
    ∃ p, Package.load (sourcesOf aliasesInFiles) = .ok p ∧
      (∀ d ∈ p.typeDecls, d.name ≠ "List" →
        p.underlying (p.unalias (.named "" d.name [])) = p.underlying (.named "" d.name [])) ∧
      p.underlying (p.unalias (.named "" "List" [])) ≠ p.underlying (.named "" "List" []) := by
  obtain ⟨p, hload, hleaves, d, hd, hplain, hne⟩ := exists_load_aliasesInFiles
  refine ⟨p, hload, fun e _ hname => ?_, fun heq => ?_⟩
  · refine (underlying_unalias p (.named "" e.name [])).1 fun u d hchain hd => ?_
    have ht : (HostType.named "" e.name []).localName ≠ some "List" :=
      fun h => hname (Option.some.inj h)
    have hu := ne_list_of_aliasChain hleaves ht hchain
    exact (keepsSense_of_leavesListAlone hleaves hu hd).1
  · exact hne (((underlying_unalias p (.named "" "List" [])).2 d hd hplain).mp heq)

/-- A generic alias that mentions its type parameter stands for another type than what it ends
in. -/
theorem not_forall_underlying_unalias :
    ¬ ∀ (sources : List Source) (p : Package), Package.load sources = .ok p →
      ∀ t, p.underlying (p.unalias t) = p.underlying t := by
  intro hall
  obtain ⟨p, hload, -, d, hd, hplain, hne⟩ := exists_load_aliasesInFiles
  exact hne ((underlying_unalias_eq_iff hd hplain).mp (hall _ p hload _))

end Package

end GoPages

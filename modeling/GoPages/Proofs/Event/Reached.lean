import GoPages.Proofs.Package.Resolved
import Mathlib.Logic.Relation

/-!
# What a walk over a payload looks into

The walk over the payload of an event looks into types from field to field, and into one type for
each text.

* `Payload.next` are the types that a type leads to in a walk: the type that a pointer points to, or
  the types of the fields.
* `Payload.exists_surveys` is what holds of the types that a check looks into. They are reached,
  their texts differ, and for every text that they lead to there is a type with this text among
  them. The findings are those about the fields of these types.
* `Payload.Leads` is one step from a type to a type that is part of its values: the type that a
  pointer points to, the type of a field, and what a declared type stands for. A payload is in order
  (`Payload.IsOrderly`) if the fields of every struct that can be reached in such steps are.
* So nothing is found about a payload that is in order (`Payload.check_eq_nil_of_isOrderly`). If
  types with the same text have alike fields, and no declared type stands for a pointer, then it is
  in order if nothing is found (`Payload.isOrderly_of_check_eq_nil`).
-/

namespace GoPages

namespace HostType

/-- The fields of a struct type, none of other types. -/
def structFields : HostType → List StructField
  | struct fields => fields
  | _ => []

/-! ### Parts -/

/-- A type is one of its own parts. -/
theorem mem_parts_self (t : HostType) : t ∈ t.parts := by
  cases t <;> simp [parts]

mutual

/-- The parts of a part are parts. -/
theorem mem_parts_trans {a t : HostType} (ha : a ∈ t.parts) :
    ∀ u : HostType, t ∈ u.parts → a ∈ u.parts
  | .named _ _ args, h => by
    rcases List.mem_cons.mp h with rfl | h
    · exact ha
    · exact List.mem_cons_of_mem _ (mem_partsList_trans ha args h)
  | .pointer elem, h | .slice elem, h | .array _ elem, h | .chan elem, h => by
    rcases List.mem_cons.mp h with rfl | h
    · exact ha
    · exact List.mem_cons_of_mem _ (mem_parts_trans ha elem h)
  | .map key value, h => by
    rcases List.mem_cons.mp h with rfl | h
    · exact ha
    · refine List.mem_cons_of_mem _ (List.mem_append.mpr ?_)
      exact (List.mem_append.mp h).imp (mem_parts_trans ha key) (mem_parts_trans ha value)
  | .func params results _, h => by
    rcases List.mem_cons.mp h with rfl | h
    · exact ha
    · refine List.mem_cons_of_mem _ (List.mem_append.mpr ?_)
      exact (List.mem_append.mp h).imp (mem_partsList_trans ha params)
        (mem_partsList_trans ha results)
  | .struct fields, h => by
    rcases List.mem_cons.mp h with rfl | h
    · exact ha
    · exact List.mem_cons_of_mem _ (mem_partsFields_trans ha fields h)
  | .basic _, h | .error, h | .typeParam _, h | .interface _, h | .invalid, h => by
    simp only [parts, List.mem_singleton] at h
    exact h ▸ ha

/-- Parts of parts are parts. -/
private theorem mem_partsList_trans {a t : HostType} (ha : a ∈ t.parts) :
    ∀ us : List HostType, t ∈ partsList us → a ∈ partsList us
  | [], h => absurd h List.not_mem_nil
  | u :: us, h => List.mem_append.mpr <|
    (List.mem_append.mp h).imp (mem_parts_trans ha u) (mem_partsList_trans ha us)

private theorem mem_partsFields_trans {a t : HostType} (ha : a ∈ t.parts) :
    ∀ fields : List StructField, t ∈ partsFields fields → a ∈ partsFields fields
  | [], h => absurd h List.not_mem_nil
  | ⟨_, _, type, _, _⟩ :: fields, h => List.mem_append.mpr <|
    (List.mem_append.mp h).imp (mem_parts_trans ha type) (mem_partsFields_trans ha fields)

end

end HostType

namespace Payload

variable {p : Package} {event : String} {t u root : HostType}

/-! ### Steps of a walk -/

/-- The fields of a type: those of a struct type, or of the one that a declared type stands for. -/
def fields (p : Package) : HostType → List StructField
  | .struct fields => fields
  | .named package name args => (p.underlying (.named package name args)).structFields
  | _ => []

/-- The types that a type leads to in a walk. -/
def next (p : Package) : HostType → List HostType
  | .pointer elem => [elem]
  | t => (fields p t).map (·.type)

/-- The findings about the fields of a type. -/
def typeErrors (p : Package) (event : String) (t : HostType) : List AnalysisError :=
  (fields p t).flatMap (fieldErrors event)

/-- The type that an item of a walk is, or that the field has. -/
def Item.target : Item → HostType
  | field f => f.type
  | type t => t

/-- The findings about an item without its type. -/
def Item.errors (event : String) : Item → List AnalysisError
  | field f => fieldErrors event f
  | type _ => []

/-- A type leads on if it is a pointer, or stands for a struct type. -/
private theorem inside_eq (p : Package) (t : HostType) :
    inside p t = match t with
      | .pointer elem => [.type elem]
      | t => (fields p t).map .field := by
  cases t with
  | named package name args =>
    simp only [inside, fields]
    cases p.underlying (.named package name args) <;> rfl
  | _ => rfl

/-- The targets of the items inside a type are the types that come next. -/
theorem map_target_inside (p : Package) (t : HostType) :
    (inside p t).map Item.target = next p t := by
  rw [inside_eq]
  cases t with
  | pointer elem => rfl
  | _ => exact List.map_map

private theorem flatMap_errors_inside (p : Package) (event : String) (t : HostType) :
    (inside p t).flatMap (Item.errors event) = typeErrors p event t := by
  rw [inside_eq]
  cases t with
  | pointer elem => rfl
  | _ => exact List.flatMap_map _ _ _

/-- The type can be reached in a walk from the type `t`. -/
def Reaches (p : Package) : HostType → HostType → Prop :=
  Relation.ReflTransGen fun t u => u ∈ next p t

/-! ### Walks -/

/-- What holds of the types that a walk with the texts `fresh` looks into. -/
structure Visits (p : Package) (fresh : List String) (items : List Item)
    (looked : List HostType) : Prop where
  isFresh : ∀ t ∈ looked, t.render ∈ fresh
  nodup : (looked.map HostType.render).Nodup
  reached : ∀ t ∈ looked, ∃ item ∈ items, Reaches p item.target t
  ofItem : ∀ item ∈ items, item.target.render ∈ fresh → item.target.render ∈ looked.map (·.render)
  closed : ∀ t ∈ looked, ∀ u ∈ next p t, u.render ∈ fresh → u.render ∈ looked.map (·.render)

/-- A walk over a type whose text is fresh looks into it first. -/
theorem Visits.cons {fresh : List String} {rest : List Item} {looked : List HostType}
    (hfresh : t.render ∈ fresh)
    (h : Visits p (without t.render fresh) (inside p t ++ rest) looked) :
    Visits p fresh (.type t :: rest) (t :: looked) := by
  -- a text that was fresh is that of the type itself, or it is still fresh inside
  have hwithout {text : String} (htext : text ∈ fresh) :
      text = t.render ∨ text ∈ without t.render fresh := by
    simpa [without, htext] using eq_or_ne text t.render
  have hfound {u : HostType} (htext : u.render ∈ fresh)
      (hlooked : u.render ∈ without t.render fresh → u.render ∈ looked.map (·.render)) :
      u.render ∈ (t :: looked).map (·.render) := by
    rw [List.map_cons, List.mem_cons]
    exact (hwithout htext).imp_right hlooked
  have hinside {u : HostType} (hu : u ∈ next p t) : ∃ item ∈ inside p t, item.target = u :=
    List.mem_map.mp (map_target_inside p t ▸ hu)
  refine ⟨?_, ?_, ?_, ?_, ?_⟩
  · refine List.forall_mem_cons.mpr ⟨hfresh, fun u hu => ?_⟩
    exact List.mem_of_mem_filter (h.isFresh u hu)
  · refine List.nodup_cons.mpr ⟨fun hmem => ?_, h.nodup⟩
    obtain ⟨u, hu, htext⟩ := List.mem_map.mp hmem
    simpa [without, htext] using h.isFresh u hu
  · refine List.forall_mem_cons.mpr ⟨⟨_, List.mem_cons_self, .refl⟩, fun u hu => ?_⟩
    obtain ⟨item, hitem, hreach⟩ := h.reached u hu
    rcases List.mem_append.mp hitem with hitem | hitem
    · refine ⟨_, List.mem_cons_self, .head ?_ hreach⟩
      exact map_target_inside p t ▸ List.mem_map_of_mem hitem
    · exact ⟨item, List.mem_cons_of_mem _ hitem, hreach⟩
  · refine List.forall_mem_cons.mpr ⟨fun _ => List.mem_cons_self, fun item hitem htext => ?_⟩
    exact hfound htext (h.ofItem item (List.mem_append_right _ hitem))
  · refine List.forall_mem_cons.mpr ⟨fun u hu htext => ?_, fun v hv u hu htext => ?_⟩
    · obtain ⟨item, hitem, rfl⟩ := hinside hu
      exact hfound htext (h.ofItem item (List.mem_append_left _ hitem))
    · exact hfound htext (h.closed v hv u hu)

/-- **The types that a walk looks into.** The findings of the walk are those about the items and
about the fields of these types. -/
theorem exists_visits (p : Package) (event : String) (fresh : List String) (items : List Item) :
    ∃ looked, Visits p fresh items looked ∧ (walk p event fresh items).Perm
      (items.flatMap (Item.errors event) ++ looked.flatMap (typeErrors p event)) := by
  fun_induction walk p event fresh items with
  | case1 fresh => exact ⟨[], ⟨by simp, by simp, by simp, by simp, by simp⟩, .refl _⟩
  | case2 fresh f rest ih =>
    -- a field is followed by its type
    obtain ⟨looked, h, hperm⟩ := ih
    refine ⟨looked, ⟨h.isFresh, h.nodup, ?_, ?_, h.closed⟩, ?_⟩
    · intro t ht
      simpa [Item.target] using h.reached t ht
    · simpa [Item.target] using h.ofItem
    · rw [List.flatMap_cons, List.append_assoc]
      exact hperm.append_left _
  | case3 fresh t rest hfresh ih =>
    obtain ⟨looked, h, hperm⟩ := ih
    refine ⟨t :: looked, h.cons hfresh, hperm.trans ?_⟩
    rw [List.flatMap_append, flatMap_errors_inside, List.flatMap_cons, List.flatMap_cons,
      List.append_assoc, List.append_assoc]
    -- the findings about a type come before those about the items after it
    exact List.perm_append_comm_assoc _ _ _
  | case4 fresh t rest hfresh ih =>
    obtain ⟨looked, h, hperm⟩ := ih
    refine ⟨looked, ⟨h.isFresh, h.nodup, fun u hu => ?_, ?_, h.closed⟩, hperm⟩
    · obtain ⟨item, hitem, hreach⟩ := h.reached u hu
      exact ⟨item, List.mem_cons_of_mem _ hitem, hreach⟩
    · exact List.forall_mem_cons.mpr ⟨fun htext => absurd htext hfresh, h.ofItem⟩

/-- A walk in a number of steps, if it comes to its end in them. -/
def walkWithin (p : Package) (event : String) :
    ℕ → List String → List Item → Option (List AnalysisError)
  | 0, _, _ => none
  | _ + 1, _, [] => some []
  | n + 1, fresh, .field f :: rest =>
    (walkWithin p event n fresh (.type f.type :: rest)).map (fieldErrors event f ++ ·)
  | n + 1, fresh, .type t :: rest =>
    if t.render ∈ fresh then walkWithin p event n (without t.render fresh) (inside p t ++ rest)
    else walkWithin p event n fresh rest

/-- A walk that ends within some rounds is the walk. -/
theorem walk_of_walkWithin {p : Package} {event : String} {n : ℕ} {fresh : List String}
    {items : List Item} {es : List AnalysisError}
    (h : walkWithin p event n fresh items = some es) : walk p event fresh items = es := by
  fun_induction walkWithin p event n fresh items generalizing es with
  | case1 => cases h
  | case2 n fresh => rw [walk, Option.some.inj h]
  | case3 n fresh f rest ih =>
    obtain ⟨es, hes, rfl⟩ := Option.map_eq_some_iff.mp h
    rw [walk, ih hes]
  | case4 n fresh t rest hfresh ih => rw [walk, if_pos hfresh, ih h]
  | case5 n fresh t rest hfresh ih => rw [walk, if_neg hfresh, ih h]

/-! ### Texts that can come up -/

/-- A type has fields only if it is a struct type. -/
theorem structFields_eq_nil_or (t : HostType) :
    t.structFields = [] ∨ t = .struct t.structFields := by
  cases t <;> simp [HostType.structFields]

/-- What a declared type stands for is written in a declaration, unless there is no such type. -/
theorem underlyingFrom_cases {decls : List TypeDecl} (hdecls : ∀ d ∈ decls, d ∈ p.typeDecls)
    (type : HostType) :
    p.underlyingFrom decls type = type ∨ p.underlyingFrom decls type = .invalid ∨
      ∃ d ∈ p.typeDecls, p.underlyingFrom decls type = (p.declScope d).resolve d.spec.type := by
  fun_induction Package.underlyingFrom p decls type with
  | case1 => exact .inl rfl
  | case2 => exact .inr (.inl rfl)
  | case3 decls type name hname d hsome _ ih =>
    have hd : d ∈ p.typeDecls := hdecls d (List.mem_of_find?_eq_some hsome)
    rcases ih fun d hd => hdecls d (List.mem_of_mem_filter hd) with heq | hcases
    · exact .inr (.inr ⟨d, hd, heq⟩)
    · exact .inr hcases

private theorem mem_candidates_of_mem_parts (ht : t ∈ candidates p root) (hu : u ∈ t.parts) :
    u ∈ candidates p root := by
  rw [candidates, List.mem_append, List.mem_flatMap] at ht ⊢
  exact ht.imp (HostType.mem_parts_trans hu _) fun ⟨d, hd, hmem⟩ =>
    ⟨d, hd, HostType.mem_parts_trans hu _ hmem⟩

/-- The types that a type leads to are parts of it, or of what a declared type stands for. -/
theorem mem_next_cases (hu : u ∈ next p t) : t = .pointer u ∨
    ∃ fields, u ∈ fields.map StructFieldOf.type ∧ (t = .struct fields ∨
      ∃ d ∈ p.typeDecls, (p.declScope d).resolve d.spec.type = .struct fields) := by
  cases t with
  | pointer elem => exact .inl (congrArg _ (List.mem_singleton.mp hu).symm)
  | struct fields => exact .inr ⟨fields, hu, .inl rfl⟩
  | named package name args =>
    rcases structFields_eq_nil_or (p.underlying (.named package name args)) with hnil | heq
    · simp [next, fields, hnil] at hu
    · refine .inr ⟨_, hu, .inr ?_⟩
      rcases underlyingFrom_cases (fun d hd => hd) (.named package name args) with
        hself | hinvalid | ⟨d, hd, hresolve⟩
      · rw [Package.underlying, hself] at heq
        cases heq
      · rw [Package.underlying, hinvalid] at heq
        cases heq
      · exact ⟨d, hd, hresolve.symm.trans heq⟩
  | _ => cases hu

/-- The types that come next are candidates if the type is one. -/
theorem mem_candidates_of_mem_next (ht : t ∈ candidates p root) (hu : u ∈ next p t) :
    u ∈ candidates p root := by
  rcases mem_next_cases hu with rfl | ⟨fields, hmem, hfields⟩
  · exact mem_candidates_of_mem_parts ht (List.mem_cons_of_mem _ u.mem_parts_self)
  · obtain ⟨f, hf, rfl⟩ := List.mem_map.mp hmem
    have hstruct : .struct fields ∈ candidates p root := by
      rcases hfields with rfl | ⟨d, hd, hresolve⟩
      · exact ht
      · refine List.mem_append_right _ (List.mem_flatMap.mpr ⟨d, hd, ?_⟩)
        exact hresolve ▸ HostType.mem_parts_self _
    refine mem_candidates_of_mem_parts hstruct (List.mem_cons_of_mem _ ?_)
    exact HostType.mem_partsFields_iff.mpr ⟨f, hf, f.type.mem_parts_self⟩

/-- A walk reaches only candidates. -/
private theorem mem_candidates_of_reaches (h : Reaches p root t) : t ∈ candidates p root := by
  induction h with
  | refl => exact List.mem_append_left _ root.mem_parts_self
  | tail _ hstep ih => exact mem_candidates_of_mem_next ih hstep

/-! ### Checks -/

/-- What holds of the types that a check looks into: there is one for each text that comes up. -/
structure Surveys (p : Package) (root : HostType) (looked : List HostType) : Prop where
  nodup : (looked.map HostType.render).Nodup
  reached : ∀ t ∈ looked, Reaches p root t
  root : root.render ∈ looked.map (·.render)
  closed : ∀ t ∈ looked, ∀ u ∈ next p t, u.render ∈ looked.map (·.render)

/-- **The findings of a check** are those about the fields of types that can be reached, of one type
for each text. -/
theorem exists_surveys (p : Package) (event : String) (root : HostType) :
    ∃ looked, Surveys p root looked ∧
      (check p event root).Perm (looked.flatMap (typeErrors p event)) := by
  obtain ⟨looked, h, hperm⟩ :=
    exists_visits p event ((candidates p root).map HostType.render) [.type root]
  have hreached : ∀ t ∈ looked, Reaches p root t := by
    intro t ht
    obtain ⟨item, hitem, hreach⟩ := h.reached t ht
    rw [List.mem_singleton.mp hitem] at hreach
    exact hreach
  have hfresh {t : HostType} (h : Reaches p root t) :
      t.render ∈ (candidates p root).map HostType.render :=
    List.mem_map_of_mem (mem_candidates_of_reaches h)
  refine ⟨looked, ⟨h.nodup, hreached, ?_, fun t ht u hu => ?_⟩, hperm⟩
  · exact h.ofItem _ (List.mem_singleton_self _) (hfresh .refl)
  · exact h.closed t ht u hu (hfresh ((hreached t ht).tail hu))

/-! ### Types that are part of values -/

/-- Is the field exported, with a tag for JSON? -/
def isOrderly (f : StructField) : Bool :=
  f.isExported && (StructTag.lookup f.tag "json").isSome

private theorem fieldErrors_eq_nil_iff {f : StructField} :
    fieldErrors event f = [] ↔ isOrderly f := by
  simp [fieldErrors, isOrderly, Option.isSome_iff_ne_none]

/-- Nothing is found about a type exactly if each of its fields is in order. -/
private theorem typeErrors_eq_nil_iff :
    typeErrors p event t = [] ↔ ∀ f ∈ fields p t, isOrderly f := by
  simp [typeErrors, List.flatMap_eq_nil_iff, fieldErrors_eq_nil_iff]

/-- A type has values of another type in it or points to them: the type that a pointer points to,
what a declared type stands for, and the types of fields. -/
inductive Leads (p : Package) : HostType → HostType → Prop
  | pointer (elem : HostType) : Leads p (.pointer elem) elem
  | declared {t : HostType} {name : String} (h : t.localName = some name) :
    Leads p t (p.underlying t)
  | field {fields : List StructField} {f : StructField} (h : f ∈ fields) :
    Leads p (.struct fields) f.type

/-- The fields of all structs that can be reached from a type are in order. -/
def IsOrderly (p : Package) (root : HostType) : Prop :=
  ∀ fields, Relation.ReflTransGen (Leads p) root (.struct fields) → ∀ f ∈ fields, isOrderly f

/-- The walk over a type sees all that can be reached from it: types with the same text have alike
fields and lead to types with the same texts, and no declared type stands for a pointer. -/
structure SeesAll (p : Package) (root : HostType) : Prop where
  texts : ∀ t u, Reaches p root t → Reaches p root u → t.render = u.render →
    (fields p t).map isOrderly = (fields p u).map isOrderly ∧
      (next p t).map HostType.render = (next p u).map HostType.render
  pointers : ∀ t, Reaches p root t → t.localName.isSome → ∀ elem, p.underlying t ≠ .pointer elem

/-- What a type leads to is a candidate, unless a name of it stands for nothing. -/
theorem mem_candidates_of_leads (h : Relation.ReflTransGen (Leads p) root t) :
    t ∈ candidates p root ∨ t = .invalid := by
  -- the candidates are closed under parts, and what a declared type stands for is one of them
  induction h with
  | refl => exact .inl (List.mem_append_left _ root.mem_parts_self)
  | @tail t u _ hstep ih =>
    cases hstep with
    | pointer =>
      rcases ih with hmem | hinvalid
      · refine .inl (mem_candidates_of_mem_parts hmem (List.mem_cons_of_mem _ ?_))
        exact HostType.mem_parts_self _
      · cases hinvalid
    | declared =>
      rcases underlyingFrom_cases (fun d hd => hd) t with hself | hinvalid | ⟨d, hd, hresolve⟩
      · rwa [Package.underlying, hself]
      · exact .inr hinvalid
      · rw [Package.underlying, hresolve]
        refine .inl (List.mem_append_right _ (List.mem_flatMap.mpr ⟨d, hd, ?_⟩))
        exact HostType.mem_parts_self _
    | field hf =>
      rcases ih with hmem | hinvalid
      · refine .inl (mem_candidates_of_mem_parts hmem (List.mem_cons_of_mem _ ?_))
        exact HostType.mem_partsFields_iff.mpr ⟨_, hf, HostType.mem_parts_self _⟩
      · cases hinvalid

/-- Following declarations never ends at a declared type. -/
theorem localName_underlyingFrom (p : Package) (decls : List TypeDecl) (t : HostType) :
    (p.underlyingFrom decls t).localName = none := by
  fun_induction Package.underlyingFrom p decls t with
  | case1 _ _ hname => exact hname
  | case2 => rfl
  | case3 _ _ _ _ _ _ _ ih => exact ih

/-- The fields of a declared type are those of the struct that it stands for. -/
theorem exists_leads_of_mem_fields {f : StructField} (hf : f ∈ fields p t) :
    ∃ fields, f ∈ fields ∧ Relation.ReflTransGen (Leads p) t (.struct fields) := by
  cases t with
  | struct fields => exact ⟨fields, hf, .refl⟩
  | named package name args =>
    rcases structFields_eq_nil_or (p.underlying (.named package name args)) with hnil | heq
    · rw [fields, hnil] at hf
      cases hf
    · refine ⟨_, hf, heq ▸ .single ?_⟩
      cases hname : (HostType.named package name args).localName with
      | some last => exact .declared hname
      | none =>
        -- a type of another package stands for itself
        have hself : p.underlying (.named package name args) = .named package name args := by
          rw [Package.underlying, Package.underlyingFrom]
          simp [hname]
        rw [hself] at heq
        cases heq
  | _ => cases hf

private theorem leads_of_mem_next (hu : u ∈ next p t) : Relation.ReflTransGen (Leads p) t u := by
  have hfields (hmem : u ∈ (fields p t).map (·.type)) : Relation.ReflTransGen (Leads p) t u := by
    obtain ⟨f, hf, rfl⟩ := List.mem_map.mp hmem
    obtain ⟨fields, hfields, hlead⟩ := exists_leads_of_mem_fields hf
    exact hlead.tail (.field hfields)
  cases t with
  | pointer elem =>
    obtain rfl := List.mem_singleton.mp hu
    exact .single (.pointer _)
  | _ => exact hfields hu

/-- What a walk reaches is what a type leads to. -/
theorem leads_of_reaches (h : Reaches p root t) : Relation.ReflTransGen (Leads p) root t := by
  induction h with
  | refl => exact .refl
  | tail _ hstep ih => exact ih.trans (leads_of_mem_next hstep)

/-- What can be reached is reached in a walk, or a declared type that is reached stands for it. -/
theorem reaches_or_of_leads (hpointers : ∀ t, Reaches p root t → t.localName.isSome →
      ∀ elem, p.underlying t ≠ .pointer elem) (h : Relation.ReflTransGen (Leads p) root u) :
    Reaches p root u ∨ ∃ t, Reaches p root t ∧ t.localName.isSome ∧ u = p.underlying t := by
  -- a walk looks into a declared type at once; a way leads first to the type that it stands for,
  -- which the walk passes over
  induction h with
  | refl => exact .inl .refl
  | tail _ hstep ih =>
    rcases ih with hreach | ⟨t, hreach, hname, rfl⟩
    · cases hstep with
      | pointer elem => exact .inl (hreach.tail (List.mem_singleton_self _))
      | declared hname => exact .inr ⟨_, hreach, by simp [hname], rfl⟩
      | field hf => exact .inl (hreach.tail (List.mem_map_of_mem hf))
    · generalize hunder : p.underlying t = s at hstep
      cases hstep with
      | pointer => exact absurd hunder (hpointers t hreach hname _)
      | declared hlocal =>
        rw [← hunder, Package.underlying, localName_underlyingFrom] at hlocal
        cases hlocal
      | field hf =>
        refine .inl (hreach.tail ?_)
        cases t with
        | named package name args =>
          refine List.mem_map_of_mem (f := StructFieldOf.type) ?_
          rwa [fields, hunder]
        | _ => cases hname

/-- The fields of a type that is reached in a walk are those of a struct that can be reached. -/
theorem isOrderly_of_mem_fields (h : IsOrderly p root) (hreach : Reaches p root t)
    {f : StructField} (hf : f ∈ fields p t) : isOrderly f := by
  obtain ⟨fields, hmem, hlead⟩ := exists_leads_of_mem_fields hf
  exact h fields ((leads_of_reaches hreach).trans hlead) f hmem

/-- In a walk that sees all, every type that is reached has the text of one that is looked into. -/
theorem SeesAll.render_mem {looked : List HostType} (h : SeesAll p root)
    (hlooked : Surveys p root looked) (hreach : Reaches p root t) :
    t.render ∈ looked.map (·.render) := by
  induction hreach with
  | refl => exact hlooked.root
  | tail hreach hstep ih =>
    obtain ⟨v, hv, htext⟩ := List.mem_map.mp ih
    have hnext := (h.texts v _ (hlooked.reached v hv) hreach htext).2
    obtain ⟨w, hw, htext⟩ := List.mem_map.mp (hnext ▸ List.mem_map_of_mem hstep)
    exact htext ▸ hlooked.closed v hv w hw

/-- A check finds nothing exactly if all fields that it looks into are in order. -/
private theorem check_eq_nil_iff_of_perm {looked : List HostType}
    (hperm : (check p event root).Perm (looked.flatMap (typeErrors p event))) :
    check p event root = [] ↔ ∀ t ∈ looked, ∀ f ∈ fields p t, isOrderly f := by
  rw [← List.isEmpty_iff, hperm.isEmpty_eq, List.isEmpty_iff]
  simp only [List.flatMap_eq_nil_iff, typeErrors_eq_nil_iff]

/-- **Nothing is found** if the fields of all structs that can be reached are in order. -/
theorem check_eq_nil_of_isOrderly (event : String) (h : IsOrderly p root) :
    check p event root = [] := by
  obtain ⟨looked, hlooked, hperm⟩ := exists_surveys p event root
  refine (check_eq_nil_iff_of_perm hperm).mpr fun t ht f hf => ?_
  exact isOrderly_of_mem_fields h (hlooked.reached t ht) hf

/-- If nothing is found in a walk that sees all, the fields of all structs that can be reached are
in order. -/
theorem isOrderly_of_check_eq_nil (hsees : SeesAll p root) (h : check p event root = []) :
    IsOrderly p root := by
  obtain ⟨looked, hlooked, hperm⟩ := exists_surveys p event root
  have hreached {t : HostType} (hreach : Reaches p root t) : ∀ f ∈ fields p t, isOrderly f := by
    obtain ⟨v, hv, htext⟩ := List.mem_map.mp (hsees.render_mem hlooked hreach)
    have hfields := (hsees.texts v t (hlooked.reached v hv) hreach htext).1
    have hall : ∀ b ∈ (fields p v).map isOrderly, b = true :=
      List.forall_mem_map.mpr ((check_eq_nil_iff_of_perm hperm).mp h v hv)
    exact List.forall_mem_map.mp (hfields ▸ hall)
  intro fs hlead f hf
  rcases reaches_or_of_leads hsees.pointers hlead with hreach | ⟨t, hreach, hname, hunder⟩
  · exact hreached hreach f hf
  · refine hreached hreach f ?_
    cases t with
    | named package name args => rwa [fields, ← hunder]
    | _ => cases hname

end Payload

end GoPages

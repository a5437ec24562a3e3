import GoPages.Proofs.Helpers.Owner
import GoPages.Proofs.Owner.Noted
import GoPages.Proofs.Package.Tables

/-!
# The order of receivers

Types that have methods are gone through in the order of their first methods. If a package is given
one more function, at the end of one of its files, then the type that the function is a method of
may come earlier than before, or it may be new.

* `Package.AddsFunc` says that a package has one more function at the end of a file.
* `Package.AddsFunc.flatMap_receivers`: the other order does not show in what is gathered from the
  types if only one of them gives something, or if only those do whose methods come before the
  function.
-/

namespace GoPages

/-! ### Gathering in another order -/

section Gathering

variable {α β : Type} {give : α → List β}

/-- If only one element gives something, then the order does not show. -/
theorem flatMap_eq_of_unique {as bs : List α} (has : as.Nodup) (hbs : bs.Nodup)
    (hmem : ∀ a, give a ≠ [] → (a ∈ as ↔ a ∈ bs))
    (hone : ∀ a b, give a ≠ [] → give b ≠ [] → a = b) : as.flatMap give = bs.flatMap give := by
  have hgiving (as : List α) : as.flatMap give = (as.filter (give · ≠ [])).flatMap give := by
    induction as with
    | nil => rfl
    | cons a as ih => by_cases ha : give a = [] <;> simp [ha, ih]
  have hperm : (as.filter (give · ≠ [])).Perm (bs.filter (give · ≠ [])) := by
    refine (List.perm_ext_iff_of_nodup (has.filter _) (hbs.filter _)).mpr fun a => ?_
    simp only [List.mem_filter, decide_eq_true_eq]
    exact and_congr_left (hmem a)
  -- both lists have at most one element, so that any relation orders them
  have heq : as.filter (give · ≠ []) = bs.filter (give · ≠ []) := by
    have hpairwise (as : List α) : as.Pairwise fun _ _ => True :=
      List.pairwise_of_forall fun _ _ => trivial
    refine hperm.eq_of_pairwise (fun a b ha hb _ _ => ?_) (hpairwise _) (hpairwise _)
    exact hone a b (of_decide_eq_true (List.mem_filter.mp ha).2)
      (of_decide_eq_true (List.mem_filter.mp hb).2)
  rw [hgiving as, hgiving bs, heq]

variable [DecidableEq α]

/-- If only elements of a first part give something, then the rest does not show. -/
theorem flatMap_eraseDups_append {as bs : List α} (h : ∀ a, give a ≠ [] → a ∈ as) :
    (as ++ bs).eraseDups.flatMap give = as.eraseDups.flatMap give := by
  have hrest : (bs.removeAll as).eraseDups.flatMap give = [] := by
    refine List.flatMap_eq_nil_iff.mpr fun a ha => ?_
    have hnot : a ∉ as := by
      simpa using (List.mem_filter.mp (List.mem_eraseDups.mp ha)).2
    exact not_not.mp (mt (h a) hnot)
  rw [List.eraseDups_append, List.flatMap_append, hrest, List.append_nil]

/-- One more element changes the order in which the elements come, but not what they give. -/
theorem flatMap_eraseDups_insert {as bs : List α} {a : α} (hnew : a ∉ as ++ bs → give a = [])
    (horder : (∀ b c, give b ≠ [] → give c ≠ [] → b = c) ∨ ∀ b, give b ≠ [] → b ∈ as) :
    (as ++ a :: bs).eraseDups.flatMap give = (as ++ bs).eraseDups.flatMap give := by
  rcases horder with hone | hearly
  · refine flatMap_eq_of_unique (nodup_eraseDups _) (nodup_eraseDups _) (fun b hb => ?_) hone
    have hold : b = a → a ∈ as ++ bs := fun heq => not_not.mp fun hnot => hb (heq ▸ hnew hnot)
    simp only [List.mem_eraseDups, List.mem_append, List.mem_cons] at hold ⊢
    constructor
    · rintro (hb | rfl | hb)
      · exact .inl hb
      · exact hold rfl
      · exact .inr hb
    · rintro (hb | hb)
      · exact .inl hb
      · exact .inr (.inr hb)
  · rw [flatMap_eraseDups_append hearly, flatMap_eraseDups_append hearly]

end Gathering

/-! ### One more function -/

/-- The file with one more function at its end. -/
def SourceFile.addFunc (file : SourceFile) (decl : FuncDecl) : SourceFile :=
  { file with funcs := file.funcs ++ [decl] }

namespace Package

/-- The package `p'` is `p` with one more function at the end of a file, and with any digest. -/
structure AddsFunc (decl : FuncDecl) (p p' : Package) : Prop where
  name : p'.name = p.name
  files : ∃ before file after, p.files = before ++ file :: after ∧
    p'.files = before ++ file.addFunc decl :: after

namespace AddsFunc

variable {decl : FuncDecl} {p p' : Package} (h : AddsFunc decl p p')
include h

/-- Without functions the packages are the same. -/
theorem withoutFuncs_eq : p'.withoutFuncs = p.withoutFuncs := by
  obtain ⟨before, file, after, hfiles, hfiles'⟩ := h.files
  rw [withoutFuncs, withoutFuncs, h.name, hfiles, hfiles', List.map_append, List.map_append]
  rfl

/-- The function comes after the methods of its file and of those before it. -/
theorem exists_methodDecls : ∃ earlier file later, p.methodDecls = earlier ++ later ∧
    p'.methodDecls.map MethodDecl.withoutFuncs =
      (earlier ++ ⟨file, decl⟩ :: later).map MethodDecl.withoutFuncs ∧
    (p.IsPlaced → ∀ m ∈ later, m.file.name ≠ "") := by
  obtain ⟨before, file, after, hfiles, hfiles'⟩ := h.files
  let methodsIn (file : SourceFile) : List MethodDecl := file.funcs.map fun decl => ⟨file, decl⟩
  refine ⟨before.flatMap methodsIn ++ methodsIn file, file, after.flatMap methodsIn, ?_, ?_,
    fun hplaced m hm => ?_⟩
  · rw [methodDecls, hfiles, List.flatMap_append, List.flatMap_cons, List.append_assoc]
  · rw [methodDecls, hfiles']
    simp only [List.flatMap_append, List.flatMap_cons, List.map_append, List.map_map,
      List.map_cons, List.map_nil, List.append_assoc, SourceFile.addFunc, methodsIn]
    rfl
  · obtain ⟨other, hother, hm⟩ := List.mem_flatMap.mp hm
    obtain ⟨_, -, rfl⟩ := List.mem_map.mp hm
    -- a file after another one does not have the empty name, which is the first of all names
    have hnames := hplaced.names
    rw [hfiles, List.map_append, List.map_cons, List.pairwise_append, List.pairwise_cons] at hnames
    have hlt := hnames.2.1.1 other.name (List.mem_map_of_mem hother)
    intro hempty
    rw [hempty, String.lt_iff] at hlt
    exact List.not_lt_nil _ hlt

/-- The function comes between some of the methods, and its receiver counts there for the first time
or not. -/
private theorem exists_receivers :
    ∃ earlier later : List MethodDecl, p.methodDecls = earlier ++ later ∧
    p'.receivers = (earlier.filterMap MethodDecl.receiverName ++
      (decl.receiver.bind Receiver.typeName).toList ++
        later.filterMap MethodDecl.receiverName).eraseDups ∧
    (p.IsPlaced → ∀ m ∈ later, m.file.name ≠ "") := by
  obtain ⟨earlier, file, later, hdecls, hdecls', hlater⟩ := h.exists_methodDecls
  have hreceivers (ms : List MethodDecl) :
      ms.filterMap MethodDecl.receiverName =
        (ms.map MethodDecl.withoutFuncs).filterMap MethodDecl.receiverName := by
    rw [List.filterMap_map]
    rfl
  refine ⟨earlier, later, hdecls, ?_, hlater⟩
  rw [receivers, hreceivers, hdecls', ← hreceivers, List.filterMap_append, List.append_assoc,
    List.filterMap_cons]
  have hname : MethodDecl.receiverName ⟨file, decl⟩ = decl.receiver.bind Receiver.typeName := rfl
  rw [hname]
  cases decl.receiver.bind Receiver.typeName <;> rfl

/-- **The order of receivers does not show** in what they give, if a type gives nothing before it
has methods, and if only one type gives something, or only types with methods in the file whose name
is empty. -/
theorem flatMap_receivers {β : Type} {give : String → List β} (hplaced : p.IsPlaced)
    (hmethods : ∀ r, give r ≠ [] → ∃ m ∈ p.methodDecls, m.receiverName = some r)
    (horder : (∀ r q, give r ≠ [] → give q ≠ [] → r = q) ∨
      ∀ r, give r ≠ [] → ∃ m ∈ p.methodDecls, m.receiverName = some r ∧ m.file.name = "") :
    p'.receivers.flatMap give = p.receivers.flatMap give := by
  obtain ⟨earlier, later, hdecls, hreceivers', hlater⟩ := h.exists_receivers
  have hreceivers : p.receivers = (earlier.filterMap MethodDecl.receiverName ++
      later.filterMap MethodDecl.receiverName).eraseDups := by
    rw [receivers, hdecls, List.filterMap_append]
  rw [hreceivers, hreceivers']
  cases decl.receiver.bind Receiver.typeName with
  | none => rw [Option.toList_none, List.append_nil]
  | some name =>
    rw [Option.toList_some, List.append_assoc, List.singleton_append]
    -- the receiver of the new function may come earlier than before, or it may be new
    refine flatMap_eraseDups_insert (fun hnew => ?_) (horder.imp_right fun hfirst r hr => ?_)
    · by_contra hgive
      obtain ⟨m, hm, hname⟩ := hmethods name hgive
      rw [hdecls] at hm
      exact hnew (List.filterMap_append ▸ List.mem_filterMap.mpr ⟨m, hm, hname⟩)
    · obtain ⟨m, hm, hname, hempty⟩ := hfirst r hr
      rw [hdecls] at hm
      rcases List.mem_append.mp hm with hm | hm
      · exact List.mem_filterMap.mpr ⟨m, hm, hname⟩
      · exact absurd hempty (hlater hplaced m hm)

end AddsFunc

end Package

end GoPages

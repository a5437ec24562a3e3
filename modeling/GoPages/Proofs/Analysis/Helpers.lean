import GoPages.Proofs.Analysis.Clean
import GoPages.Proofs.Diagnostic.Sink
import GoPages.Proofs.Files.Moved
import GoPages.Proofs.Helpers.Alike
import GoPages.Proofs.Helpers.Receivers

/-!
# Helpers are inert

A helper is a function that is no method, or a method whose name says nothing, of another type than
the application. A package with one more helper has the same analysis, unless the check of its types
notices the helper: the same diagnostics in the same order, and the same application but for its
digest (`Analysis.shown_ofPackage_of_addsFunc`).

A helper can be the first method of its type, so that the methods of this type are gone through
before those of others. But findings are sorted by their places in the end, and no two methods share
a place. Only places in a file without a name are shown as unknown, and this file is the first one.
-/

namespace GoPages

/-- The function is no method, or it is a method whose name says nothing, of another type than the
application. -/
def FuncDecl.IsHelper (c : Conventions) (decl : FuncDecl) : Prop :=
  ∀ receiver, decl.receiver.bind Receiver.typeName = some receiver →
    receiver ≠ c.appType ∧ c.methodKind decl.name.name = .ignored

/-! ### Methods that are heeded -/

namespace Package.AddsFunc

variable {decl : FuncDecl} {p p' : Package} (h : AddsFunc decl p p')
include h

/-- A choice of methods that leaves the new function out. -/
theorem map_filter_methodDecls {q : MethodDecl → Bool} (hq : ∀ m, q m.withoutFuncs = q m)
    (hnot : ∀ file, q ⟨file, decl⟩ = false) :
    (p'.methodDecls.filter q).map MethodDecl.withoutFuncs =
      (p.methodDecls.filter q).map MethodDecl.withoutFuncs := by
  obtain ⟨earlier, file, later, hdecls, hdecls', -⟩ := h.exists_methodDecls
  have hfilter (ms : List MethodDecl) : (ms.filter q).map MethodDecl.withoutFuncs =
      (ms.map MethodDecl.withoutFuncs).filter q := by
    rw [List.filter_map]
    simp only [Function.comp_def, hq]
  rw [hfilter, hdecls', ← hfilter, hdecls, List.filter_append, List.filter_append,
    List.filter_cons_of_neg (by simp [hnot])]

/-- The settings with the packages are alike if the function is a helper. -/
theorem alike {c : Conventions} (hhelper : decl.IsHelper c) : Setting.Alike ⟨p, c⟩ ⟨p', c⟩ where
  types := congrArg (Setting.mk · c) h.withoutFuncs_eq
  heeded receiver := by
    let isHeeded (m : MethodDecl) : Bool :=
      m.receiverName == some receiver && c.methodKind m.decl.name.name ≠ .ignored
    have hheeded (p : Package) : ((⟨p, c⟩ : Setting).heeded receiver).map Method.withoutFuncs =
        ((p.methodDecls.filter isHeeded).map MethodDecl.withoutFuncs).map (Method.mk receiver) := by
      rw [Setting.heeded, Setting.heededOf, Setting.methodsOf, methodsOf, List.filter_map,
        List.filter_filter, List.map_map, List.map_map]
      simp only [isHeeded, Function.comp_def, Bool.and_comm]
      rfl
    rw [hheeded, hheeded, h.map_filter_methodDecls (fun _ => rfl) fun file => ?_]
    rw [Bool.and_eq_false_iff]
    -- a helper is no method of the receiver, or a method that is ignored
    by_cases hreceiver : decl.receiver.bind Receiver.typeName = some receiver
    · exact .inr (by simp [(hhelper receiver hreceiver).2])
    · exact .inl (beq_eq_false_iff_ne.mpr hreceiver)
  ofApp := by
    have hmethods (p : Package) :
        ((⟨p, c⟩ : Setting).methodsOf c.appType).map Method.withoutFuncs =
          ((p.methodDecls.filter fun m => m.receiverName == some c.appType).map
            MethodDecl.withoutFuncs).map (Method.mk c.appType) := by
      rw [Setting.methodsOf, methodsOf, List.map_map, List.map_map]
      rfl
    rw [hmethods, hmethods, h.map_filter_methodDecls (fun _ => rfl) fun file => ?_]
    exact beq_eq_false_iff_ne.mpr fun hreceiver => (hhelper c.appType hreceiver).1 rfl

end Package.AddsFunc

/-! ### Findings in the order of the receivers -/

namespace Setting

variable (s : Setting) (plugins : List Plugin)

/-- The findings about the methods of a type. -/
def findingsOn (receiver : String) : List Finding :=
  if receiver = s.conventions.appType then []
  else (s.owner? receiver).toList.flatMap fun o => o.findings s plugins

/-- The findings about methods, receiver by receiver. -/
private theorem methodFindings_eq_flatMap :
    s.methodFindings plugins = s.package.receivers.flatMap (s.findingsOn plugins) := by
  rw [methodFindings, owners, List.filterMap_filter, List.filterMap_eq_flatMap_toList,
    List.flatMap_assoc]
  refine congrArg (List.flatMap · s.package.receivers) (funext fun receiver => ?_)
  rw [findingsOn]
  by_cases happ : receiver = s.conventions.appType <;> simp [happ]

variable {s plugins}

/-- A finding about the methods of a type is at a place of one of them. -/
theorem exists_of_mem_findingsOn {receiver : String} {f : Finding}
    (hf : f ∈ s.findingsOn plugins receiver) :
    ∃ m ∈ s.package.methodDecls, m.receiverName = some receiver ∧ f.1 ∈ m.places := by
  rw [findingsOn] at hf
  split at hf
  · contradiction
  · obtain ⟨o, ho, hf⟩ := List.mem_flatMap.mp hf
    obtain ⟨-, hname⟩ := owner?_eq_some_iff.mp (Option.mem_toList.mp ho)
    obtain ⟨m, hm, hplace⟩ := o.exists_of_mem_findings hf
    obtain ⟨decl, hdecl, rfl⟩ := List.mem_map.mp hm
    obtain ⟨hmem, hreceiver⟩ := List.mem_filter.mp hdecl
    exact ⟨decl, hmem, by rw [beq_iff_eq.mp hreceiver, hname], hplace⟩

/-- A place is that of an invalid path if it is so for one of the owners, in whatever order they
stand. -/
theorem mem_flatMap_invalidPaths_iff {l : Location} :
    l ∈ s.owners.flatMap (fun o => s.invalidPaths o.typeName) ↔
      ∃ o, s.declares o ∧ l ∈ s.invalidPaths o.typeName := by
  rw [List.mem_flatMap]
  constructor
  · rintro ⟨o, ho, hl⟩
    exact ⟨o, declares_of_mem_owners ho, hl⟩
  · rintro ⟨o, ho, hl⟩
    obtain ⟨m, hm, -⟩ := List.mem_map.mp hl
    exact ⟨o, mem_owners ho (List.mem_filter.mp hm).1, hl⟩

end Setting

/-- A place in a file without a directory is shown as it is. -/
theorem Location.key_normalized_of_noSlash {l : Location} (h : '/' ∉ l.file.toList) :
    l.normalized.key = l.key := by
  by_cases hknown : l.isKnown
  · rw [normalized, if_pos hknown, baseName_of_noSlash h]
  · rw [normalized, if_neg hknown, key_of_not_isKnown hknown]
    rfl

section Order

variable {decl : FuncDecl} {p p' : Package} {c : Conventions} (plugins : List Plugin)
  (h : p.AddsFunc decl p') (hhelper : decl.IsHelper c) (hplaced : p.IsPlaced)
  (hnoSlash : ∀ file ∈ p.files, '/' ∉ file.name.toList)
include h hhelper hplaced hnoSlash

/-- At every place the findings about methods come in the same order. -/
theorem atKey_methodFindings (k : WithTop (String ×ₗ ℕ ×ₗ ℕ)) :
    Diagnostics.atKey ((⟨p', c⟩ : Setting).methodFindings plugins) k =
      Diagnostics.atKey ((⟨p, c⟩ : Setting).methodFindings plugins) k := by
  have halike := h.alike hhelper
  have hsame : (⟨p', c⟩ : Setting).findingsOn plugins = (⟨p, c⟩ : Setting).findingsOn plugins := by
    funext receiver
    rw [Setting.findingsOn, Setting.findingsOn, halike.owner?_eq]
    simp only [halike.findings_eq]
  rw [Setting.methodFindings_eq_flatMap, Setting.methodFindings_eq_flatMap, hsame,
    Diagnostics.atKey, Diagnostics.atKey, List.filter_flatMap, List.filter_flatMap]
  -- a type with findings at the place has a method there
  have hmethod (receiver : String)
      (hgive : ((⟨p, c⟩ : Setting).findingsOn plugins receiver).filter
        (fun f => f.1.normalized.key = k) ≠ []) :
      ∃ m ∈ p.methodDecls, m.receiverName = some receiver ∧ ∃ l ∈ m.places, l.key = k := by
    obtain ⟨f, hf⟩ := List.exists_mem_of_ne_nil _ hgive
    obtain ⟨hf, hkey⟩ := List.mem_filter.mp hf
    obtain ⟨m, hm, hreceiver, hplace⟩ := Setting.exists_of_mem_findingsOn hf
    obtain ⟨hfile, hname, -⟩ := hplaced.inFile hm hplace
    have hshown := Location.key_normalized_of_noSlash (hname ▸ hnoSlash m.file hfile)
    exact ⟨m, hm, hreceiver, f.1, hplace, hshown.symm.trans (of_decide_eq_true hkey)⟩
  refine h.flatMap_receivers hplaced (fun r hr => ?_) ?_
  · obtain ⟨m, hm, hreceiver, -⟩ := hmethod r hr
    exact ⟨m, hm, hreceiver⟩
  by_cases hk : k = ⊤
  · -- the place is unknown, so the file has no name
    refine .inr fun r hr => ?_
    obtain ⟨m, hm, hreceiver, l, hl, hkey⟩ := hmethod r hr
    obtain ⟨-, hname, hline⟩ := hplaced.inFile hm hl
    refine ⟨m, hm, hreceiver, ?_⟩
    by_contra hne
    have hknown : l.isKnown := by simp [Location.isKnown, hname, hne, hline]
    rw [Location.key_of_isKnown hknown, hk] at hkey
    exact WithTop.coe_ne_top hkey
  · -- the place is known, so there is one method with it
    refine .inl fun r q hr hq => ?_
    obtain ⟨m, hm, hmr, l, hl, hkey⟩ := hmethod r hr
    obtain ⟨n, hn, hnq, l', hl', hkey'⟩ := hmethod q hq
    have heq : l = l' := by
      rcases Location.key_eq_key_iff.mp (hkey.trans hkey'.symm) with ⟨-, heq⟩ | ⟨hunknown, -⟩
      · exact heq
      · exact absurd (hkey.symm.trans (Location.key_of_not_isKnown hunknown)) hk
    have hmn : m = n := hplaced.methodDecl_eq hm hn hl (heq ▸ hl')
    exact Option.some.inj (hmr.symm.trans (hmn ▸ hnq))

/-- At every place all findings come in the same order. -/
theorem atKey_findings (hcheck : p'.check = p.check) (k : WithTop (String ×ₗ ℕ ×ₗ ℕ)) :
    Diagnostics.atKey ((⟨p', c⟩ : Setting).findings plugins) k =
      Diagnostics.atKey ((⟨p, c⟩ : Setting).findings plugins) k := by
  have halike := h.alike hhelper
  have hcross (pages : List Page) (abstractPages : List AbstractPage) :
      (⟨p', c⟩ : Setting).crossFindings pages abstractPages =
        (⟨p, c⟩ : Setting).crossFindings pages abstractPages := by
    refine halike.checkFindings_eq (fun l => ?_) [] _
    rw [Setting.mem_flatMap_invalidPaths_iff, Setting.mem_flatMap_invalidPaths_iff]
    rw [halike.declares_eq, halike.invalidPaths_eq]
  have hmethods := atKey_methodFindings plugins h hhelper hplaced hnoSlash k
  rw [Setting.findings, Setting.findings, halike.outlineFindings_eq hcheck,
    halike.inheritedPages_eq, halike.attachedAbstractPages_eq, hcross, halike.missingFindings_eq]
  simp only [Diagnostics.atKey, List.filter_append] at hmethods ⊢
  rw [hmethods]

end Order

namespace Analysis

/-- **Helpers are inert.** Let a package be loaded from sources whose names differ and have no
directory, and let it be given one more function at the end of a file, wherever this function says
it is. If the function is a helper, and if the check of the types says the same, then the analysis
has the same diagnostics in the same order, but for their numbers, and the same application, but for
its digest. -/
theorem shown_ofPackage_of_addsFunc (c : Conventions) (plugins : List Plugin)
    {sources : List Source} {p p' : Package} {decl : FuncDecl}
    (hnames : (sources.map Source.name).Nodup) (hnoSlash : ∀ s ∈ sources, '/' ∉ s.name.toList)
    (hload : Package.load sources = .ok p) (hadds : p.AddsFunc decl p')
    (hhelper : decl.IsHelper c) (hcheck : p'.check = p.check) :
    (ofPackage c plugins p').diagnostics.shown = (ofPackage c plugins p).diagnostics.shown ∧
      (ofPackage c plugins p').app.map (fun app => { app with sourceDigest := p.digest }) =
        (ofPackage c plugins p).app := by
  have hplaced : p.IsPlaced := Package.isPlaced_of_load hnames hload
  have hfiles : ∀ file ∈ p.files, '/' ∉ file.name.toList := by
    intro file hfile
    have hname : file.name ∈ (Package.inNameOrder sources).map Source.name :=
      Package.map_name_files hload ▸ List.mem_map_of_mem hfile
    obtain ⟨source, hsource, hname⟩ := List.mem_map.mp hname
    exact hname ▸ hnoSlash source ((sortBy_perm _ sources).mem_iff.mp hsource)
  refine ⟨Diagnostics.shown_finish_eq fun k => ?_, (hadds.alike hhelper).app?_eq plugins⟩
  exact atKey_findings plugins hadds hhelper hplaced hfiles hcheck k

end Analysis

/-! ### A helper that changes the order of the receivers -/

/-- The package with one more function at the end of its first file. -/
def Package.addToFirst (decl : FuncDecl) (p : Package) : Package :=
  match p.files with
  | [] => p
  | file :: rest => { p with files := file.addFunc decl :: rest }

private theorem Package.addsFunc_addToFirst {decl : FuncDecl} {p : Package} (h : p.files ≠ []) :
    p.AddsFunc decl (p.addToFirst decl) := by
  obtain ⟨file, rest, hfiles⟩ := List.exists_cons_of_ne_nil h
  constructor
  · rw [addToFirst, hfiles]
  · exact ⟨[], file, rest, hfiles, by rw [addToFirst, hfiles]; rfl⟩

/-- An application whose methods stand in another file than its types. Something is wrong with the
methods of both pages. -/
def methodsApart : List (String × List String) :=
  [("app.go",
    ["package app",
     "type App struct\x7b\x7d",
     "// PageIndex is /",
     "type PageIndex struct\x7b App *App \x7d",
     "// PageLogin is /login",
     "type PageLogin struct\x7b App *App \x7d"]),
    ("methods.go",
    ["package app",
     "func (PageIndex) GET() \x7b\x7d",
     "func (PageLogin) GET() \x7b\x7d"])]

/-- A method of the second page, after everything else in the file of the types. -/
def renderHelper : FuncDecl where
  receiver := some ⟨none, .ident ⟨"PageLogin", ⟨"app.go", 7, 7⟩⟩⟩
  name := ⟨"render", ⟨"app.go", 7, 18⟩⟩
  typeParams := []
  type := ⟨[], [], ⟨"app.go", 7, 1⟩⟩
  doc := none

set_option maxRecDepth 100000 in
/-- The helper comes to stand before the methods of another type, so that the receivers change their
order. -/
private theorem exists_load_methodsApart :
    ∃ p, Package.load (sourcesOf methodsApart) = .ok p ∧ p.files ≠ [] ∧
      (p.addToFirst renderHelper).check = p.check ∧ p.receivers = ["PageIndex", "PageLogin"] ∧
      (p.addToFirst renderHelper).receivers = ["PageLogin", "PageIndex"] ∧
      (Analysis.ofPackage .standard [] p).diagnostics.shown.length = 4 := by
  have hall : (match Package.load (sourcesOf methodsApart) with
      | .ok p => !p.files.isEmpty && ((p.addToFirst renderHelper).check == p.check &&
          (p.receivers == ["PageIndex", "PageLogin"] &&
            ((p.addToFirst renderHelper).receivers == ["PageLogin", "PageIndex"] &&
              (Analysis.ofPackage .standard [] p).diagnostics.shown.length == 4)))
      | .error _ => false) = true := by
    rw [Package.load_sourcesOf]
    decide +kernel
  split at hall
  · next p hload =>
    simp only [Bool.and_eq_true, Bool.not_eq_true', List.isEmpty_eq_false_iff, beq_iff_eq] at hall
    exact ⟨p, hload, hall⟩
  · contradiction

namespace Analysis

/-- The pages are gone through in the other order, but the analysis shows the same. -/
theorem shown_ofPackage_of_addsFunc_methodsApart :
    ((sourcesOf methodsApart).map Source.name).Nodup ∧
      (∀ s ∈ sourcesOf methodsApart, '/' ∉ s.name.toList) ∧
      ∃ p, Package.load (sourcesOf methodsApart) = .ok p ∧
      p.AddsFunc renderHelper (p.addToFirst renderHelper) ∧
      renderHelper.IsHelper .standard ∧
      (p.addToFirst renderHelper).check = p.check ∧
      p.receivers = ["PageIndex", "PageLogin"] ∧
      (p.addToFirst renderHelper).receivers = ["PageLogin", "PageIndex"] ∧
      (ofPackage .standard [] p).diagnostics.shown.length = 4 ∧
      (ofPackage .standard [] (p.addToFirst renderHelper)).diagnostics.shown =
        (ofPackage .standard [] p).diagnostics.shown ∧
      (ofPackage .standard [] (p.addToFirst renderHelper)).app.map
        (fun app => { app with sourceDigest := p.digest }) = (ofPackage .standard [] p).app := by
  obtain ⟨p, hload, hfiles, hcheck, hreceivers, hreceivers', hlength⟩ := exists_load_methodsApart
  have hnames : ((sourcesOf methodsApart).map Source.name).Nodup := by
    simp [sourcesOf, methodsApart]
  have hnoSlash : ∀ s ∈ sourcesOf methodsApart, '/' ∉ s.name.toList := by
    simp [sourcesOf, methodsApart]
  have hadds := @Package.addsFunc_addToFirst renderHelper p hfiles
  have hhelper : renderHelper.IsHelper .standard := by
    rintro receiver ⟨⟩
    decide
  exact ⟨hnames, hnoSlash, p, hload, hadds, hhelper, hcheck, hreceivers, hreceivers', hlength,
    shown_ofPackage_of_addsFunc .standard [] hnames hnoSlash hload hadds hhelper hcheck⟩

end Analysis

end GoPages

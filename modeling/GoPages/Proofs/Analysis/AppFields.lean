import GoPages.Proofs.Analysis.Events
import GoPages.Proofs.Analysis.Passes

/-!
# The fields of pages

A page has one field of its own, the one for the application. Whether it has this field is asked of
its field declarations, and which of its fields are too many is asked of their names.

* `Setting.isAppField_eq`: a declaration passes for one of the application if its type is a pointer
  to the application, and also if it is a pointer to a type parameter of this name, since the type
  is looked up without the type parameters of the page.
* `Setting.namesAppAlone` asks the declarations, `Setting.namesApp` and `Setting.otherNames` ask the
  names. For the latter two it does not matter how names are grouped (`Setting.otherNames_congr`),
  and where no declaration has two names, the former two agree
  (`Setting.namesAppAlone_eq_namesApp`).
* `Analysis.reportsFields` is the main result: the declarations decide whether the field for the
  application is reported as missing, the names decide which fields are reported as too many.

So a page that declares `App, X *App` has its field for the application, and is still said to have
none (`Analysis.not_forall_reportsFields`).
-/

namespace GoPages

/-! ### The application under type parameters -/

namespace Scope

variable {s : Scope}

/-- Type parameters hide everything else that their names stand for. -/
private theorem typeOfName?_withTypeParams (hparams : s.typeParams = []) (names : List String)
    (name : String) : (s.withTypeParams names).typeOfName? name =
      if names.contains name then some (.typeParam name) else s.typeOfName? name := by
  simp [typeOfName?, withTypeParams, hparams]

/-- An identifier that denotes a type of the package is its name. -/
theorem localName_resolve_ident_iff (id : Ident) (app : String) :
    (s.resolve (.ident id)).localName = some app ↔
      id.name = app ∧ (s.typeOfName? app).bind HostType.localName = some app := by
  rw [resolve]
  cases htype : s.typeOfName? id.name with
  | none =>
    refine iff_of_false nofun ?_
    rintro ⟨rfl, h⟩
    simp [htype] at h
  | some type =>
    rw [Option.getD_some]
    constructor
    · intro h
      obtain rfl := (localName_typeOfName? htype).2.1 app h
      exact ⟨rfl, by rw [htype, Option.bind_some, h]⟩
    · rintro ⟨rfl, h⟩
      rwa [htype, Option.bind_some] at h

/-- An identifier stands for no pointer. -/
theorem resolve_ident_ne_pointer (id : Ident) (elem : HostType) :
    s.resolve (.ident id) ≠ .pointer elem := by
  rw [resolve]
  cases htype : s.typeOfName? id.name with
  | none => nofun
  | some type =>
    rw [Option.getD_some]
    rcases typeOfName?_cases htype with rfl | rfl | ⟨n, rfl⟩ | ⟨empty, rfl⟩ | ⟨package, rfl⟩ <;>
      nofun

/-- What denotes a type of the package still does so under type parameters, or it has become a type
parameter of the same name. -/
theorem localName_resolve_withTypeParams_iff (hparams : s.typeParams = []) (names : List String)
    (app : String) :
    ∀ expr : TypeExpr, (s.resolve expr).localName = some app ↔
      ((s.withTypeParams names).resolve expr).localName = some app ∨
        (s.withTypeParams names).resolve expr = .typeParam app ∧
          (s.typeOfName? app).bind HostType.localName = some app
  | .ident id => by
    have hplain := resolve_ne_typeParam hparams app (.ident id)
    have hlocal := localName_resolve_ident_iff (s := s) id app
    rw [resolve] at hplain hlocal
    rw [resolve, resolve, typeOfName?_withTypeParams hparams, hlocal]
    split
    · -- the name is that of a type parameter now
      rw [Option.getD_some, HostType.typeParam.injEq]
      exact (or_iff_right nofun).symm
    · rw [hlocal, or_iff_left (fun h => hplain h.1)]
  | .generic base args => by
    have ih := localName_resolve_withTypeParams_iff hparams names app base
    rw [resolve, resolve, localName_instantiate, localName_instantiate, ih]
    cases (s.withTypeParams names).resolve base <;> simp [instantiate]
  | .qualified package id => by
    have himport : (s.withTypeParams names).importPath? package.name =
      s.importPath? package.name := rfl
    rw [resolve, resolve, himport]
    split <;> simp
  | .pointer _ _ | .slice _ _ | .ellipsis _ _ | .array _ _ _ | .map _ _ _ | .chan _ _ _
  | .func _ | .struct _ _ | .interface _ _ => by simp [resolve, HostType.localName]

end Scope

namespace Setting

variable (s : Setting) (d : TypeDecl)

/-- Is the type, as it is written in the declaration, a pointer to the application? -/
def isAppType (type : TypeExpr) : Bool := s.isAppPointer ((s.package.declScope d).resolve type)

/-- Is the type a pointer to a type parameter of the declaration that hides the application? -/
def hidesApp (type : TypeExpr) : Bool :=
  match (s.package.declScope d).resolve type with
  | .pointer (.typeParam name) => name == s.conventions.appType &&
      ((s.package.scope d.file).typeOfName? name).bind HostType.localName == some name
  | _ => false

/-- Is the type taken for a pointer to the application? -/
def passesAsApp (type : TypeExpr) : Bool := s.isAppType d type || s.hidesApp d type

/-- A type that passes for a pointer to the application is one if it is looked up without the type
parameters of the declaration. -/
theorem isAppPointer_resolve : ∀ type : TypeExpr,
    s.isAppPointer ((s.package.scope d.file).resolve type) = s.passesAsApp d type
  | .pointer l elem => by
    -- a type parameter with the name of the application hides it in the scope of the declaration
    -- alone
    have hlocal := (s.package.scope d.file).localName_resolve_withTypeParams_iff rfl
      d.spec.typeParams s.conventions.appType elem
    rw [passesAsApp, isAppType, hidesApp, Package.declScope, Bool.eq_iff_iff, Bool.or_eq_true]
    simp only [Scope.resolve, isAppPointer, beq_iff_eq]
    rw [hlocal]
    refine or_congr_right ?_
    cases ((s.package.scope d.file).withTypeParams d.spec.typeParams).resolve elem <;> simp
    grind
  | .generic base args => by
    have ih := isAppPointer_resolve base
    rw [passesAsApp, isAppType, hidesApp] at ih ⊢
    rw [Scope.resolve, Scope.resolve]
    cases hbase : (s.package.scope d.file).resolve base <;>
      cases hdecl : (s.package.declScope d).resolve base <;>
        simp_all [Scope.instantiate, isAppPointer]
  | .ident id => by
    have hnot (scope : Scope) : s.isAppPointer (scope.resolve (.ident id)) = false := by
      have hpointer := scope.resolve_ident_ne_pointer id
      cases htype : scope.resolve (.ident id) <;> simp_all [isAppPointer]
    rw [passesAsApp, isAppType, hidesApp, hnot, hnot, Bool.false_or]
    split
    · next name h => exact absurd h (Scope.resolve_ident_ne_pointer id _)
    · rfl
  | .qualified package id => by
    rw [passesAsApp, isAppType, hidesApp, Scope.resolve, Scope.resolve]
    cases (s.package.scope d.file).importPath? package.name <;>
      cases (s.package.declScope d).importPath? package.name <;> simp [isAppPointer]
  | .slice _ _ | .ellipsis _ _ | .array _ _ _ | .map _ _ _ | .chan _ _ _
  | .func _ | .struct _ _ | .interface _ _ => by
    simp [passesAsApp, isAppType, hidesApp, Scope.resolve, isAppPointer]

/-- **Types of fields.** A declaration passes for one of the application by its type. -/
theorem isAppField_eq (f : FieldDecl) : s.isAppField d.file f = s.passesAsApp d f.type :=
  s.isAppPointer_resolve d f.type

end Setting

/-! ### Names and declarations -/

/-- The names that field declarations declare, each with its type, however they are grouped. -/
def namedTypes (fields : List FieldDecl) : List (Ident × TypeExpr) :=
  fields.flatMap fun f => f.names.map fun id => (id, f.type)

private theorem namedTypes_eq (fields : List FieldDecl) :
    namedTypes fields = (Setting.namedFields fields).map fun (id, f) => (id, f.type) := by
  rw [namedTypes, Setting.namedFields, List.map_flatMap]
  simp only [List.map_map]
  rfl

namespace Setting

variable (s : Setting) (accepted : TypeExpr → Bool)

/-- Does a name stand for the application, with a type that is accepted? -/
def isAppName (named : Ident × TypeExpr) : Bool :=
  named.1.name == s.conventions.appType && accepted named.2

/-- Is there a field for the application, whatever it is declared together with? -/
def namesApp (fields : List FieldDecl) : Bool := (namedTypes fields).any (s.isAppName accepted)

/-- Is there a declaration of the field for the application alone? -/
def namesAppAlone (fields : List FieldDecl) : Bool :=
  fields.any fun f => f.names.map Ident.name == [s.conventions.appType] && accepted f.type

/-- The names of all fields but the first one for the application. -/
def otherNames (fields : List FieldDecl) : List Ident :=
  ((namedTypes fields).eraseP (s.isAppName accepted)).map Prod.fst

variable {s accepted} {fields fields' : List FieldDecl}

/-- A page has its field for the application if one of its declarations passes for it alone. -/
private theorem any_declaresApp (d : TypeDecl) (fields : List FieldDecl) :
    fields.any (s.declaresApp d.file) = s.namesAppAlone (s.passesAsApp d) fields := by
  refine congrArg (List.any fields) (funext fun f => ?_)
  rw [declaresApp, ← isAppField_eq]
  split
  · next id hnames => simp [hnames]
  · next hnot =>
    have hne : ∀ id, f.names ≠ [id] := hnot
    simp [List.map_eq_singleton_iff, hne]

/-- The fields that are too many are all but the first one that passes for the application. -/
private theorem extraFields_eq (d : TypeDecl) (fields : List FieldDecl) :
    s.extraFields d fields = s.otherNames (s.passesAsApp d) fields := by
  rw [otherNames, namedTypes_eq, List.eraseP_map, List.map_map, extraFields]
  simp only [Function.comp_def, isAppName, ← isAppField_eq]

/-- Grouping the names of fields in another way leaves the other names as they are. -/
theorem otherNames_congr (h : namedTypes fields' = namedTypes fields) :
    s.otherNames accepted fields' = s.otherNames accepted fields := by
  rw [otherNames, otherNames, h]

/-- Grouping the names of fields in another way leaves it open whether one of the declarations
declares the field for the application alone, but not if there are no groups. -/
theorem namesAppAlone_eq_namesApp (hlength : ∀ f ∈ fields, f.names.length ≤ 1) :
    s.namesAppAlone accepted fields = s.namesApp accepted fields := by
  rw [namesAppAlone, namesApp, namedTypes, List.any_flatMap, Bool.eq_iff_iff, List.any_eq_true,
    List.any_eq_true]
  refine exists_congr fun f => and_congr_right fun hf => ?_
  match hnames : f.names, hlength f hf with
  | [], _ => simp
  | [id], _ => simp [isAppName]

end Setting

/-! ### Findings about a page -/

/-- If the other elements give nothing, then all that is given comes from one of them. -/
theorem flatMap_eq_of_mem {α β : Type} {give : α → List β} {as : List α} {a : α}
    (hnodup : as.Nodup) (ha : a ∈ as) (hothers : ∀ b ∈ as, b ≠ a → give b = []) :
    as.flatMap give = give a := by
  obtain ⟨before, after, rfl⟩ := List.append_of_mem ha
  have hnot : a ∉ before ++ after := (List.nodup_middle.mp hnodup).notMem
  rw [List.flatMap_append, List.flatMap_cons, List.flatMap_eq_nil_iff.mpr,
    List.flatMap_eq_nil_iff.mpr, List.nil_append, List.append_nil]
  · exact fun b hb => hothers b (by simp [hb]) fun heq => hnot (by simp [← heq, hb])
  · exact fun b hb => hothers b (by simp [hb]) fun heq => hnot (by simp [← heq, hb])

namespace AnalysisError

/-- Does the error say that the page has no field for the application? -/
def isMissingAppOf (page : String) : AnalysisError → Bool
  | pageMissingAppField name => name == page
  | _ => false

/-- Does the error say that a field of the page is too many? -/
def isExtraFieldOf (page : String) : AnalysisError → Bool
  | pageHasExtraFields name _ => name == page
  | _ => false

/-- Is the error about the fields of the page? -/
def isAboutFieldsOf (page : String) (e : AnalysisError) : Bool :=
  e.isMissingAppOf page || e.isExtraFieldOf page

/-- Only two diagnostics are about the fields of a page. -/
private theorem isAboutFieldsOf_iff {page : String} {e : AnalysisError} :
    e.isAboutFieldsOf page ↔
      e = pageMissingAppField page ∨ ∃ field, e = pageHasExtraFields page field := by
  cases e <;> simp [isAboutFieldsOf, isMissingAppOf, isExtraFieldOf]

end AnalysisError

namespace Setting

variable {s : Setting} {d : TypeDecl} {fields : List FieldDecl}

/-- What is found about the fields of a page is found in the declaration of its name. -/
theorem name_of_mem_roleOfTypeFindings {page : String} {f : Finding}
    (hf : f ∈ s.roleOfTypeFindings d) (habout : f.2.isAboutFieldsOf page) : d.name = page := by
  rw [AnalysisError.isAboutFieldsOf_iff] at habout
  rw [roleOfTypeFindings] at hf
  split at hf
  · rw [sessionFindings] at hf
    grind
  · rw [subjectFindings] at hf
    cases hsubject : Subject.ofComment d.name d.spec.doc <;> simp_all [Subject.error?]
  · rw [pageFindings, pageRouteFindings] at hf
    grind
  · contradiction

/-- The findings about the fields of a page are among those about its declaration. -/
theorem filter_findings_of_mem_types (plugins : List Plugin) {about : AnalysisError → Bool}
    (hd : d ∈ s.package.types)
    (habout : ∀ e, about e → e.isAboutFieldsOf d.name) :
    ((s.findings plugins).filter fun f => about f.2) =
      (s.roleOfTypeFindings d).filter fun f => about f.2 := by
  have hpass (f : Finding) : about f.2 = (about f.2 && decide (f.2.pass = .roles)) := by
    cases hf : about f.2 with
    | false => rfl
    | true =>
      rcases AnalysisError.isAboutFieldsOf_iff.mp (habout _ hf) with heq | ⟨field, heq⟩ <;>
        simp [heq, AnalysisError.pass]
  have hnodup : s.package.types.Nodup :=
    .of_map TypeDecl.name (Package.map_name_types _ ▸ Package.nodup_typeNames _)
  rw [List.filter_congr fun f _ => hpass f, ← List.filter_filter, filter_findings, findingsOf,
    List.filter_flatMap]
  refine flatMap_eq_of_mem hnodup hd fun d' hd' hne => ?_
  refine List.filter_eq_nil_iff.mpr fun f hf hf' => hne ?_
  have hname := name_of_mem_roleOfTypeFindings hf (habout _ hf')
  rw [Package.mem_types_iff] at hd hd'
  exact Option.some.inj (hd'.symm.trans (hname ▸ hd))

/-- A struct type with the name of a page is judged as a page. -/
private theorem roleOfTypeFindings_of_page (hkind : s.conventions.nameKind d.name = .page)
    (hfields : d.structFields? = some fields) :
    s.roleOfTypeFindings d = s.pageFindings d fields := by
  have hrole : s.typeRole d = .page fields := by
    rw [typeRole, hkind, hfields]
    rfl
  rw [roleOfTypeFindings, hrole]

/-- The field for the application is missing if no declaration declares it alone. -/
theorem filter_pageFindings_missing :
    ((s.pageFindings d fields).filter fun f => f.2.isMissingAppOf d.name) =
      if s.namesAppAlone (s.passesAsApp d) fields then []
      else [(d.location, .pageMissingAppField d.name)] := by
  rw [pageFindings, pageRouteFindings, any_declaresApp, List.filter_append, List.filter_append,
    List.filter_append, List.filter_map]
  split <;> split <;> split <;> simp [AnalysisError.isMissingAppOf, Function.comp_def]

/-- The other fields are too many. -/
theorem filter_pageFindings_extra :
    ((s.pageFindings d fields).filter fun f => f.2.isExtraFieldOf d.name) =
      (s.otherNames (s.passesAsApp d) fields).map fun id =>
        (id.location, .pageHasExtraFields d.name id.name) := by
  rw [pageFindings, pageRouteFindings, extraFields_eq, List.filter_append, List.filter_append,
    List.filter_append, List.filter_map]
  split <;> split <;> split <;> simp [AnalysisError.isExtraFieldOf, Function.comp_def]

end Setting

/-! ### Diagnostics -/

/-- What diagnostics say about the fields of a page: that the one for the application is missing,
unless there is one, and that the others are too many. -/
structure Diagnostics.ReportsFields (ds : Diagnostics) (d : TypeDecl) (hasApp : Bool)
    (others : List Ident) : Prop where
  missing : ((ds.entries.filter fun x => x.error.isMissingAppOf d.name).map
    Diagnostic.location) = if hasApp then [] else [d.location.normalized]
  others : ((ds.entries.filter fun x => x.error.isExtraFieldOf d.name).map fun x =>
    (x.location, x.error)).Perm
      (others.map fun id => (id.location.normalized, .pageHasExtraFields d.name id.name))

namespace Analysis

variable {c : Conventions} {p : Package} {d : TypeDecl} {fields : List FieldDecl}

/-- The diagnostics about the fields of a page are the findings about its declaration. -/
theorem perm_map_about (about : AnalysisError → Bool) (plugins : List Plugin) (hd : d ∈ p.types)
    (hkind : c.nameKind d.name = .page) (hfields : d.structFields? = some fields)
    (habout : ∀ e, about e → e.isAboutFieldsOf d.name) :
    (((ofPackage c plugins p).diagnostics.entries.filter fun x => about x.error).map fun x =>
      (x.location, x.error)).Perm
        ((((⟨p, c⟩ : Setting).pageFindings d fields).filter fun f => about f.2).map fun f =>
          (f.1.normalized, f.2)) := by
  have hperm := (perm_map_entries c plugins p).filter fun f => about f.2
  rw [List.filter_map, List.filter_map] at hperm
  rw [← Setting.roleOfTypeFindings_of_page hkind hfields,
    ← Setting.filter_findings_of_mem_types plugins hd habout]
  exact hperm

/-- The diagnostics of a package say of a page what `reportsFields` asks for, whatever else is
found. -/
private theorem reportsFields_ofPackage (plugins : List Plugin) (hd : d ∈ p.types)
    (hkind : c.nameKind d.name = .page)
    (hfields : d.structFields? = some fields) :
    (ofPackage c plugins p).diagnostics.ReportsFields d
      ((⟨p, c⟩ : Setting).namesAppAlone ((⟨p, c⟩ : Setting).passesAsApp d) fields)
      ((⟨p, c⟩ : Setting).otherNames ((⟨p, c⟩ : Setting).passesAsApp d) fields) where
  missing := by
    have hperm := perm_map_about (AnalysisError.isMissingAppOf d.name) plugins hd hkind hfields
      fun e he => by simp [AnalysisError.isAboutFieldsOf, he]
    have hlocations := hperm.map Prod.fst
    rw [Setting.filter_pageFindings_missing, List.map_map] at hlocations
    split
    · next happ =>
      rw [if_pos happ] at hlocations
      exact List.perm_nil.mp hlocations
    · next happ =>
      rw [if_neg happ] at hlocations
      exact List.perm_singleton.mp hlocations
  others := by
    have hperm := perm_map_about (AnalysisError.isExtraFieldOf d.name) plugins hd hkind hfields
      fun e he => by simp [AnalysisError.isAboutFieldsOf, he]
    rwa [Setting.filter_pageFindings_extra, List.map_map] at hperm

/-- **The fields of pages.** The field for the application is reported as missing exactly if no
declaration declares it alone, and the fields that are reported as too many are all but the first
one for the application. Grouping the names in another way does not change the latter, and if there
are no groups, then the former asks for any field for the application. -/
theorem reportsFields (c : Conventions) (plugins : List Plugin) {sources : List Source}
    {p : Package} (hload : Package.load sources = .ok p) {d : TypeDecl} (hd : d ∈ p.types)
    (hkind : c.nameKind d.name = .page) {fields : List FieldDecl}
    (hfields : d.structFields? = some fields) :
    let s : Setting := ⟨p, c⟩
    (ofSources c plugins sources).diagnostics.ReportsFields d
        (s.namesAppAlone (s.passesAsApp d) fields) (s.otherNames (s.passesAsApp d) fields) ∧
      ∀ fields', namedTypes fields' = namedTypes fields →
        s.otherNames (s.passesAsApp d) fields' = s.otherNames (s.passesAsApp d) fields ∧
        ((∀ f ∈ fields', f.names.length ≤ 1) →
          s.namesAppAlone (s.passesAsApp d) fields' = s.namesApp (s.passesAsApp d) fields) := by
  intro s
  refine ⟨?_, fun fields' hnamed => ⟨Setting.otherNames_congr hnamed, fun hlength => ?_⟩⟩
  · rw [ofSources, hload]
    exact reportsFields_ofPackage plugins hd hkind hfields
  · rw [Setting.namesAppAlone_eq_namesApp hlength, Setting.namesApp, hnamed, Setting.namesApp]

end Analysis

/-! ### A field that is declared together with another -/

/-- An application whose page declares its field for the application together with another one. -/
def groupedFields : List (String × List String) :=
  [("app.go",
    ["package app",
     "import \"net/http\"",
     "import \"github.com/a-h/templ\"",
     "type App struct\x7b\x7d",
     "// PageIndex is /",
     "type PageIndex struct\x7b App, X *App \x7d",
     "func (PageIndex) GET(r *http.Request) (body templ.Component) \x7b\x7d"])]

set_option maxRecDepth 100000 in
/-- One of the names of its fields is that of the application, but none is declared alone. -/
theorem exists_types_groupedFields :
    ∃ p, Package.load (sourcesOf groupedFields) = .ok p ∧ ∃ d ∈ p.types,
      Conventions.standard.nameKind d.name = .page ∧ ∃ fields, d.structFields? = some fields ∧
        (⟨p, .standard⟩ : Setting).namesAppAlone ((⟨p, .standard⟩ : Setting).passesAsApp d) fields =
          false ∧
        (⟨p, .standard⟩ : Setting).namesApp ((⟨p, .standard⟩ : Setting).isAppType d) fields := by
  have hall : ((Package.load (sourcesOf groupedFields)).toOption.any fun p =>
      (p.typeDecl? "PageIndex").any fun d =>
        decide (Conventions.standard.nameKind d.name = .page) && d.structFields?.any fun fields =>
          !(⟨p, .standard⟩ : Setting).namesAppAlone ((⟨p, .standard⟩ : Setting).passesAsApp d)
            fields &&
          (⟨p, .standard⟩ : Setting).namesApp ((⟨p, .standard⟩ : Setting).isAppType d) fields) =
        true := by
    rw [Package.load_sourcesOf]
    decide +kernel
  obtain ⟨p, hload, hp⟩ := Package.exists_load_of_any hall
  simp only [Option.any_eq_true, Bool.and_eq_true, Bool.not_eq_true', decide_eq_true_eq] at hp
  obtain ⟨d, hd, hkind, fields, hfields, halone, hnamed⟩ := hp
  have hmem : d ∈ p.types :=
    Package.mem_types_iff.mpr ((Package.name_of_typeDecl? hd).symm ▸ hd)
  exact ⟨p, hload, d, hmem, hkind, fields, hfields, halone, hnamed⟩

namespace Analysis

/-- The page is said to have no field for the application. -/
theorem reportsFields_groupedFields :
    ∃ p, Package.load (sourcesOf groupedFields) = .ok p ∧ ∃ d ∈ p.types,
      Conventions.standard.nameKind d.name = .page ∧ ∃ fields, d.structFields? = some fields ∧
        (ofSources .standard [] (sourcesOf groupedFields)).diagnostics.ReportsFields d false
          ((⟨p, .standard⟩ : Setting).otherNames ((⟨p, .standard⟩ : Setting).passesAsApp d)
            fields) := by
  obtain ⟨p, hload, d, hd, hkind, fields, hfields, halone, -⟩ := exists_types_groupedFields
  have hreports := (reportsFields .standard [] hload hd hkind hfields).1
  rw [halone] at hreports
  exact ⟨p, hload, d, hd, hkind, fields, hfields, hreports⟩

/-- A page with a field for the application can be said to have none. -/
theorem not_forall_reportsFields :
    ¬ ∀ (c : Conventions) (plugins : List Plugin) (sources : List Source) (p : Package),
      Package.load sources = .ok p → ∀ d ∈ p.types, c.nameKind d.name = .page →
        ∀ fields, d.structFields? = some fields →
          (ofSources c plugins sources).diagnostics.ReportsFields d
            ((⟨p, c⟩ : Setting).namesApp ((⟨p, c⟩ : Setting).isAppType d) fields)
            ((⟨p, c⟩ : Setting).otherNames ((⟨p, c⟩ : Setting).isAppType d) fields) := by
  intro hall
  obtain ⟨p, hload, d, hd, hkind, fields, hfields, halone, hnamed⟩ := exists_types_groupedFields
  have hmissing := (hall .standard [] _ p hload d hd hkind fields hfields).missing
  have hreports := reportsFields_ofPackage [] hd hkind hfields
  rw [halone] at hreports
  have hof : ofSources .standard [] (sourcesOf groupedFields) = ofPackage .standard [] p := by
    rw [ofSources, hload]
    rfl
  rw [hof, hreports.missing, hnamed] at hmissing
  contradiction

end Analysis

end GoPages

import GoPages.Package.Check
import GoPages.Package.Declarations
import GoPages.Proofs.Files.Scope
import GoPages.Proofs.Package.Lines

/-!
# Packages of files under other names

`Package.mapFile` is a package with other names of its files. Its declarations, their order, and
what they mean are those of the package; so are the problems of its types (`Package.check_mapFile`),
with other names of files in their locations. The digest, which is taken of the names too, plays no
role in any of this.
-/

namespace GoPages

variable (φ : String → String)

/-- The declaration in a file under another name. -/
def TypeDecl.mapFile (d : TypeDecl) : TypeDecl := ⟨d.file.mapFile φ, d.spec.mapFile φ⟩

/-- The declaration in a file under another name. -/
def MethodDecl.mapFile (m : MethodDecl) : MethodDecl := ⟨m.file.mapFile φ, m.decl.mapFile φ⟩

/-- The fields of a declared struct type stand in the other file. -/
theorem TypeDecl.structFields?_mapFile (d : TypeDecl) :
    (d.mapFile φ).structFields? = d.structFields?.map (List.map (FieldOf.mapFile φ)) := by
  have htype : (d.mapFile φ).spec.type = d.spec.type.mapFile φ := rfl
  have halias : (d.mapFile φ).spec.isAlias = d.spec.isAlias := rfl
  rw [structFields?, structFields?, htype, halias]
  cases d.spec.type with
  | struct l fields =>
    rw [TypeExpr.mapFile_struct]
    cases d.spec.isAlias <;> rfl
  | _ => rfl

/-- A receiver has a type of the same name. -/
theorem Receiver.typeName_mapFile (r : Receiver) : (r.mapFile φ).typeName = r.typeName := by
  have htype : (r.mapFile φ).type = r.type.mapFile φ := rfl
  rw [typeName, typeName, htype, TypeExpr.embeddedName_mapFile, Option.map_map]
  rfl

private theorem MethodDecl.receiverName_mapFile (m : MethodDecl) :
    (m.mapFile φ).receiverName = m.receiverName := by
  have hreceiver : (m.mapFile φ).decl.receiver = m.decl.receiver.map (Receiver.mapFile φ) := rfl
  rw [receiverName, receiverName, hreceiver, Option.bind_map]
  exact congrArg m.decl.receiver.bind (funext fun r => r.typeName_mapFile φ)

/-! ### Lists and tables -/

section Lists

variable {α β γ δ : Type} {f : α → β} {g : γ → δ}

/-- Mapped items give the mapped lists if this holds for one item. -/
theorem flatMap_map_of_comm {h : α → List γ} {h' : β → List δ} (hcomm : ∀ a, h' (f a) = (h a).map g)
    (as : List α) : (as.map f).flatMap h' = (as.flatMap h).map g := by
  rw [List.flatMap_map, List.map_flatMap]
  exact congrArg (List.flatMap · as) (funext hcomm)

/-- Mapped items give the mapped values if this holds for one item. -/
theorem filterMap_map_of_comm {h : α → Option γ} {h' : β → Option δ}
    (hcomm : ∀ a, h' (f a) = (h a).map g) (as : List α) :
    (as.map f).filterMap h' = (as.filterMap h).map g := by
  rw [List.filterMap_map, List.map_filterMap]
  exact congrArg (List.filterMap · as) (funext hcomm)

end Lists

/-- A key is looked up in a table with other values. -/
theorem lookup_map_snd {α β γ : Type} [BEq α] (f : β → γ) (k : α) (entries : List (α × β)) :
    (entries.map (Prod.map id f)).lookup k = (entries.lookup k).map f := by
  induction entries with
  | nil => rfl
  | cons entry entries ih =>
    obtain ⟨a, b⟩ := entry
    rw [List.map_cons, Prod.map_apply, id_eq, List.lookup_cons, List.lookup_cons, ih]
    cases k == a <;> rfl

namespace Package

/-- The package with other names of its files, and with another digest. -/
def mapFile (digest : String) (p : Package) : Package :=
  ⟨p.name, p.files.map (SourceFile.mapFile φ), digest⟩

variable (digest : String) (p : Package)

/-! ### Declarations -/

/-- The declarations of types stand in the other files, in the same order. -/
theorem typeDecls_mapFile :
    (p.mapFile φ digest).typeDecls = p.typeDecls.map (TypeDecl.mapFile φ) := by
  simp only [typeDecls, mapFile, List.flatMap_map, List.map_flatMap, SourceFile.mapFile,
    List.map_map]
  rfl

private theorem methodDecls_mapFile :
    (p.mapFile φ digest).methodDecls = p.methodDecls.map (MethodDecl.mapFile φ) := by
  simp only [methodDecls, mapFile, List.flatMap_map, List.map_flatMap, SourceFile.mapFile,
    List.map_map]
  rfl

private theorem findDecl?_mapFile (name : String) (decls : List TypeDecl) :
    findDecl? name (decls.map (TypeDecl.mapFile φ)) =
      (findDecl? name decls).map (TypeDecl.mapFile φ) := List.find?_map

private theorem without_mapFile (name : String) (decls : List TypeDecl) :
    without name (decls.map (TypeDecl.mapFile φ)) =
      (without name decls).map (TypeDecl.mapFile φ) := List.filter_map

/-- The first declaration of a name is the same. -/
theorem typeDecl?_mapFile (name : String) :
    (p.mapFile φ digest).typeDecl? name = (p.typeDecl? name).map (TypeDecl.mapFile φ) := by
  rw [typeDecl?, typeDecl?, typeDecls_mapFile, findDecl?_mapFile]

/-- The same names are declared. -/
theorem isSome_typeDecl?_mapFile (name : String) :
    ((p.mapFile φ digest).typeDecl? name).isSome = (p.typeDecl? name).isSome := by
  rw [typeDecl?_mapFile, Option.isSome_map]

private theorem typeNames_mapFile : (p.mapFile φ digest).typeNames = p.typeNames := by
  rw [typeNames, typeNames, typeDecls_mapFile, List.map_map]
  rfl

theorem types_mapFile : (p.mapFile φ digest).types = p.types.map (TypeDecl.mapFile φ) := by
  rw [types, types, typeNames_mapFile, List.map_filterMap]
  exact congrArg (List.filterMap · p.typeNames) (funext (p.typeDecl?_mapFile φ digest))

theorem receivers_mapFile : (p.mapFile φ digest).receivers = p.receivers := by
  have hname : MethodDecl.receiverName ∘ MethodDecl.mapFile φ = MethodDecl.receiverName :=
    funext fun m => m.receiverName_mapFile φ
  rw [receivers, receivers, methodDecls_mapFile, List.filterMap_map, hname]

/-- The methods of a receiver are the same. -/
theorem methodsOf_mapFile (receiver : String) :
    (p.mapFile φ digest).methodsOf receiver =
      (p.methodsOf receiver).map (MethodDecl.mapFile φ) := by
  rw [methodsOf, methodsOf, methodDecls_mapFile, List.filter_map]
  simp only [Function.comp_def, MethodDecl.receiverName_mapFile]

/-- The place of the package name stands in the other file, too. -/
theorem location_mapFile (hφ : φ "" = "") :
    (p.mapFile φ digest).location = p.location.mapFile φ := by
  have hfiles : (p.mapFile φ digest).files = p.files.map (SourceFile.mapFile φ) := rfl
  rw [location, location, hfiles]
  cases p.files with
  | nil => exact congrArg (fun file => (⟨file, 0, 0⟩ : Location)) hφ.symm
  | cons file rest => rfl

/-! ### Scopes -/

/-- A file under another name declares and imports the same. -/
theorem scope_mapFile (file : SourceFile) :
    (p.mapFile φ digest).scope (file.mapFile φ) = p.scope file := by
  have hnames : (p.mapFile φ digest).typeDecls.map TypeDecl.name =
      p.typeDecls.map TypeDecl.name := by
    rw [typeDecls_mapFile, List.map_map]
    rfl
  have himports : (file.mapFile φ).imports = file.imports.map (Import.mapFile φ) := rfl
  rw [scope, scope, hnames, himports, Scope.ofImports_mapFile]

theorem declScope_mapFile (d : TypeDecl) :
    (p.mapFile φ digest).declScope (d.mapFile φ) = p.declScope d := by
  have hfile : (d.mapFile φ).file = d.file.mapFile φ := rfl
  rw [declScope, declScope, hfile, scope_mapFile]
  rfl

private theorem plainName?_mapFile (e : TypeExpr) : plainName? (e.mapFile φ) = plainName? e := by
  cases e <;> simp [plainName?, TypeExpr.mapFile, Ident.mapFile]

private theorem filterMap_plainName?_mapFile (es : List TypeExpr) :
    (es.map (TypeExpr.mapFile φ)).filterMap plainName? = es.filterMap plainName? := by
  rw [List.filterMap_map]
  exact congrArg (List.filterMap · es) (funext (plainName?_mapFile φ))

private theorem receiverParams_mapFile (e : TypeExpr) :
    receiverParams (e.mapFile φ) = receiverParams e := by
  cases e with
  | generic base args =>
    rw [TypeExpr.mapFile_generic]
    exact filterMap_plainName?_mapFile φ args
  | pointer l elem =>
    cases elem with
    | generic base args =>
      rw [TypeExpr.mapFile, TypeExpr.mapFile_generic]
      exact filterMap_plainName?_mapFile φ args
    | _ => simp [TypeExpr.mapFile, receiverParams]
  | _ => simp [TypeExpr.mapFile, receiverParams]

theorem methodScope_mapFile (m : MethodDecl) :
    (p.mapFile φ digest).methodScope (m.mapFile φ) = p.methodScope m := by
  have hfile : (m.mapFile φ).file = m.file.mapFile φ := rfl
  have hparams : (m.mapFile φ).decl.typeParams = m.decl.typeParams := rfl
  have hreceiver : (m.mapFile φ).decl.receiver = m.decl.receiver.map (Receiver.mapFile φ) := rfl
  rw [methodScope, methodScope, hfile, scope_mapFile, hparams, hreceiver]
  cases m.decl.receiver with
  | none => rfl
  | some r =>
    have htype : receiverParams (r.mapFile φ).type = receiverParams r.type :=
      receiverParams_mapFile φ r.type
    rw [Option.map_some]
    simp only [htype]

/-! ### Following declarations -/

/-- One round of the loop for the type that a type stands for. -/
theorem underlyingFrom_eq (decls : List TypeDecl) (type : HostType) :
    p.underlyingFrom decls type =
      match type.localName with
      | none => type
      | some name =>
        match findDecl? name decls with
        | none => .invalid
        | some d =>
          p.underlyingFrom (without name decls) ((p.declScope d).resolve d.spec.type) := by
  rw [underlyingFrom]
  split
  · simp_all
  · split <;> simp_all

private theorem underlyingFrom_mapFile (decls : List TypeDecl) (type : HostType) :
    (p.mapFile φ digest).underlyingFrom (decls.map (TypeDecl.mapFile φ)) (type.mapFile φ) =
      (p.underlyingFrom decls type).mapFile φ := by
  fun_induction underlyingFrom p decls type with
  | case1 decls type hname => rw [underlyingFrom_eq, HostType.localName_mapFile, hname]
  | case2 decls type name hname hnone =>
    rw [underlyingFrom_eq, HostType.localName_mapFile, hname]
    simp only [findDecl?_mapFile, hnone, Option.map_none]
    rfl
  | case3 decls type name hname d hsome _ ih =>
    rw [underlyingFrom_eq, HostType.localName_mapFile, hname]
    simp only [findDecl?_mapFile, hsome, Option.map_some, declScope_mapFile, without_mapFile]
    rw [← ih, ← Scope.resolve_mapFile]
    rfl

/-- One round of the loop for the type that aliases end in. -/
theorem unaliasFrom_eq (decls : List TypeDecl) (type : HostType) :
    p.unaliasFrom decls type =
      match type.localName with
      | none => type
      | some name =>
        match findDecl? name decls with
        | none => type
        | some d =>
          if d.spec.isAlias then
            p.unaliasFrom (without name decls) ((p.scope d.file).resolve d.spec.type)
          else type := by
  rw [unaliasFrom]
  split
  · simp_all
  · split <;> simp_all

private theorem unaliasFrom_mapFile (decls : List TypeDecl) (type : HostType) :
    (p.mapFile φ digest).unaliasFrom (decls.map (TypeDecl.mapFile φ)) (type.mapFile φ) =
      (p.unaliasFrom decls type).mapFile φ := by
  fun_induction unaliasFrom p decls type with
  | case1 decls type hname => rw [unaliasFrom_eq, HostType.localName_mapFile, hname]
  | case2 decls type name hname hnone =>
    rw [unaliasFrom_eq, HostType.localName_mapFile, hname]
    simp only [findDecl?_mapFile, hnone, Option.map_none]
  | case3 decls type name hname d hsome _ halias ih =>
    have halias' : (d.mapFile φ).spec.isAlias = true := halias
    have hscope : (p.mapFile φ digest).scope (d.mapFile φ).file = p.scope d.file :=
      p.scope_mapFile φ digest d.file
    rw [unaliasFrom_eq, HostType.localName_mapFile, hname]
    simp only [findDecl?_mapFile, hsome, Option.map_some, halias', if_true, hscope, without_mapFile]
    rw [← ih, ← Scope.resolve_mapFile]
    rfl
  | case4 decls type name hname d hsome _ halias =>
    have halias' : ¬ (d.mapFile φ).spec.isAlias = true := halias
    rw [unaliasFrom_eq, HostType.localName_mapFile, hname]
    simp only [findDecl?_mapFile, hsome, Option.map_some, halias', Bool.false_eq_true, if_false]

/-- What a type stands for is found along the same names. -/
theorem underlying_mapFile (type : HostType) :
    (p.mapFile φ digest).underlying (type.mapFile φ) = (p.underlying type).mapFile φ := by
  rw [underlying, underlying, typeDecls_mapFile, underlyingFrom_mapFile]

/-- So is what aliases end in. -/
theorem unalias_mapFile (type : HostType) :
    (p.mapFile φ digest).unalias (type.mapFile φ) = (p.unalias type).mapFile φ := by
  rw [unalias, unalias, typeDecls_mapFile, unaliasFrom_mapFile]

theorem isBasicUnderlying_mapFile (expected : String) (type : HostType) :
    (p.mapFile φ digest).isBasicUnderlying expected (type.mapFile φ) =
      p.isBasicUnderlying expected type := by
  rw [isBasicUnderlying, isBasicUnderlying, underlying_mapFile, HostType.isBasic_mapFile,
    HostType.isBasic_mapFile]

/-! ### Problems -/

/-- Declarations so far in files under other names. -/
def Declared.mapFile (seen : Declared) : Declared where
  types := seen.types.map (Prod.map id (Location.mapFile φ))
  methods := seen.methods.map (Prod.map id (Location.mapFile φ))

/-- Declarations so far and problems in files under other names. -/
def mapChecked (r : Declared × List TypeProblem) : Declared × List TypeProblem :=
  (r.1.mapFile φ, r.2.map (TypeProblem.mapFile φ))

private theorem checkType_mapFile (seen : Declared) (d : TypeDecl) :
    (p.mapFile φ digest).checkType (seen.mapFile φ) (d.mapFile φ) =
      mapChecked φ (p.checkType seen d) := by
  have hname : (d.mapFile φ).name = d.name := rfl
  have htypes : (seen.mapFile φ).types = seen.types.map (Prod.map id (Location.mapFile φ)) := rfl
  rw [checkType, checkType, hname, htypes, lookup_map_snd]
  cases seen.types.lookup d.name with
  | some previous => rfl
  | none =>
    have hproblems := (p.declScope d).problems_mapFile φ d.spec.type
    rw [Option.map_none]
    simp only [declScope_mapFile]
    exact congrArg (Prod.mk _) hproblems

private theorem checkReceiver_mapFile (seen : Declared) (m : MethodDecl) (receiver : Receiver) :
    (p.mapFile φ digest).checkReceiver (seen.mapFile φ) (m.mapFile φ) (receiver.mapFile φ) =
      mapChecked φ (p.checkReceiver seen m receiver) := by
  have htype : (receiver.mapFile φ).type = receiver.type.mapFile φ := rfl
  have hname : (m.mapFile φ).decl.name.name = m.decl.name.name := rfl
  have hmethods : (seen.mapFile φ).methods = seen.methods.map (Prod.map id (Location.mapFile φ)) :=
    rfl
  simp only [checkReceiver, methodScope_mapFile, htype, hname, hmethods, Scope.resolve_mapFile,
    Scope.problems_mapFile, HostType.stripPointer_mapFile, HostType.localName_mapFile,
    HostType.isInvalid_mapFile, HostType.render_mapFile, TypeExpr.location_mapFile, lookup_map_snd]
  cases ((p.methodScope m).resolve receiver.type).stripPointer.localName with
  | none =>
    dsimp only
    split
    · rfl
    · simp only [mapChecked, List.map_append]
      rfl
  | some name =>
    dsimp only
    cases seen.methods.lookup (name, m.decl.name.name) with
    | none => rfl
    | some previous =>
      simp only [mapChecked, List.map_append]
      rfl

private theorem checkMethod_mapFile (seen : Declared) (m : MethodDecl) :
    (p.mapFile φ digest).checkMethod (seen.mapFile φ) (m.mapFile φ) =
      mapChecked φ (p.checkMethod seen m) := by
  have hreceiver : (m.mapFile φ).decl.receiver = m.decl.receiver.map (Receiver.mapFile φ) := rfl
  have hparams : (m.mapFile φ).decl.type.params = m.decl.type.params.map (ParamOf.mapFile φ) := rfl
  have hresults : (m.mapFile φ).decl.type.results = m.decl.type.results.map (ParamOf.mapFile φ) :=
    rfl
  simp only [checkMethod, methodScope_mapFile, hreceiver, hparams, hresults,
    Scope.problemsParams_mapFile]
  cases m.decl.receiver with
  | none => simp [mapChecked]
  | some receiver =>
    have hchecked := p.checkReceiver_mapFile φ digest seen m receiver
    simp only [Option.map_some, hchecked, mapChecked, List.map_append]

/-- A pass moves with its items if each turn does. -/
private theorem checkAll_mapFile {α : Type} {f : α → α}
    {checkOne checkOne' : Declared → α → Declared × List TypeProblem}
    (h : ∀ seen a, checkOne' (seen.mapFile φ) (f a) = mapChecked φ (checkOne seen a))
    (seen : Declared) (as : List α) :
    checkAll checkOne' (seen.mapFile φ) (as.map f) = mapChecked φ (checkAll checkOne seen as) := by
  induction as generalizing seen with
  | nil => rfl
  | cons a as ih =>
    have hone := h seen a
    have hrest := ih (checkOne seen a).1
    simp only [List.map_cons, checkAll, hone, mapChecked] at hrest ⊢
    rw [hrest, List.map_append]

private theorem checkFile_mapFile (seen : Declared) (file : SourceFile) :
    (p.mapFile φ digest).checkFile (seen.mapFile φ) (file.mapFile φ) =
      mapChecked φ (p.checkFile seen file) := by
  have htypes : (file.mapFile φ).types.map (TypeDecl.mk (file.mapFile φ)) =
      (file.types.map (TypeDecl.mk file)).map (TypeDecl.mapFile φ) := by
    simp only [SourceFile.mapFile, List.map_map]
    rfl
  have hmethods : (file.mapFile φ).funcs.map (MethodDecl.mk (file.mapFile φ)) =
      (file.funcs.map (MethodDecl.mk file)).map (MethodDecl.mapFile φ) := by
    simp only [SourceFile.mapFile, List.map_map]
    rfl
  have hcheckTypes := checkAll_mapFile φ (p.checkType_mapFile φ digest) seen
    (file.types.map (TypeDecl.mk file))
  have hcheckMethods := checkAll_mapFile φ (p.checkMethod_mapFile φ digest)
    (checkAll p.checkType seen (file.types.map (TypeDecl.mk file))).1
    (file.funcs.map (MethodDecl.mk file))
  simp only [checkFile, htypes, hmethods, hcheckTypes, mapChecked] at hcheckMethods ⊢
  rw [hcheckMethods, List.map_append]

/-- The problems of a package whose files have other names. -/
theorem check_mapFile : (p.mapFile φ digest).check = p.check.map (TypeProblem.mapFile φ) :=
  congrArg Prod.snd (checkAll_mapFile φ (p.checkFile_mapFile φ digest) ⟨[], []⟩ p.files)

/-! ### Loading -/

end Package

/-- The source under another name. -/
def Source.mapFile (s : Source) : Source := ⟨φ s.name, s.text⟩

/-- The error in a file under another name. -/
def LoadError.mapFile : LoadError → LoadError
  | unreadable path reason => unreadable path reason
  | noGoFiles directory => noGoFiles directory
  | multiplePackages first second l => multiplePackages first second (l.mapFile φ)
  | malformed e => malformed (e.mapFile φ)

/-- The messages of load errors do not name files. -/
theorem LoadError.message_mapFile (e : LoadError) : (e.mapFile φ).message = e.message := by
  cases e <;> rfl

theorem LoadError.location?_mapFile (e : LoadError) :
    (e.mapFile φ).location? = e.location?.map (Location.mapFile φ) := by
  cases e <;> rfl

/-- What loading gives, in files under other names. -/
def mapLoaded (digest : String) : Except LoadError Package → Except LoadError Package
  | .error e => .error (e.mapFile φ)
  | .ok p => .ok (p.mapFile φ digest)

namespace Package

/-- The first fault is found in the same source. -/
private theorem parseAll_mapFile (sources : List Source) :
    parseAll (sources.map (Source.mapFile φ)) =
      ((parseAll sources).mapError (LoadError.mapFile φ)).map
        (List.map (SourceFile.mapFile φ)) := by
  induction sources with
  | nil => rfl
  | cons source rest ih =>
    have hparse : SourceFile.parse (source.mapFile φ).name (source.mapFile φ).text = _ :=
      SourceFile.parse_mapFile φ source.name source.text
    rw [List.map_cons, parseAll, parseAll, hparse, ih]
    cases SourceFile.parse source.name source.text with
    | error e => rfl
    | ok file => cases parseAll rest <;> rfl

private theorem ofFiles_mapFile (digest digest' : String) (files : List SourceFile) :
    ofFiles digest' (files.map (SourceFile.mapFile φ)) =
      mapLoaded φ digest' (ofFiles digest files) := by
  cases files with
  | nil => rfl
  | cons first rest =>
    have hpackage (file : SourceFile) : (file.mapFile φ).package.name = file.package.name := rfl
    simp only [List.map_cons, ofFiles, hpackage, List.find?_map, Function.comp_def]
    cases rest.find? fun file => file.package.name != first.package.name <;> rfl

/-- A package whose files have other names, where these stand in the same order. -/
theorem load_mapFile {sources : List Source}
    (horder : ∀ s ∈ sources, ∀ t ∈ sources, φ s.name < φ t.name ↔ s.name < t.name) :
    ∃ digest, load (sources.map (Source.mapFile φ)) = mapLoaded φ digest (load sources) := by
  have hsorted : inNameOrder (sources.map (Source.mapFile φ)) =
      (inNameOrder sources).map (Source.mapFile φ) := by
    rw [inNameOrder, sortBy_map]
    refine congrArg (List.map (Source.mapFile φ)) (sortBy_congr fun s hs t ht => ?_)
    exact congrArg (!·) (decide_eq_decide.mpr (horder t ht s hs))
  rw [load, load, hsorted, parseAll_mapFile]
  refine ⟨Digest.hex (Digest.sha256 (digestInput ((inNameOrder sources).map (Source.mapFile φ)))),
    ?_⟩
  cases parseAll (inNameOrder sources) with
  | error e => rfl
  | ok files => exact ofFiles_mapFile φ _ _ files

end Package

end GoPages

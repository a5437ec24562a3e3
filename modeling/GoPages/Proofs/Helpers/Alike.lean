import GoPages.Proofs.Helpers.Outline
import GoPages.Proofs.Helpers.Owner
import GoPages.Proofs.Package.Tables

/-!
# Settings that differ in helpers only

Two settings are alike if they are the same without functions, and if all types have the same
methods that are heeded and the application has the same methods. Then the outline, the owners and
their handlers are the same, and so is the application but for its digest
(`Setting.Alike.app?_eq`).
-/

namespace GoPages

/-- The settings differ in functions only, but neither in the methods of the application nor in
methods whose names say something. -/
structure Setting.Alike (s s' : Setting) : Prop where
  types : s'.withoutFuncs = s.withoutFuncs
  heeded : ∀ receiver, (s'.heeded receiver).map Method.withoutFuncs =
    (s.heeded receiver).map Method.withoutFuncs
  ofApp : (s'.methodsOf s.conventions.appType).map Method.withoutFuncs =
    (s.methodsOf s.conventions.appType).map Method.withoutFuncs

namespace Setting

/-- The hook among the methods of the application, which have no other functions around them. -/
theorem hook?_eq_withoutFuncs (s : Setting) (isHook : String → Bool) :
    s.hook? isHook =
      ((((s.methodsOf s.conventions.appType).map Method.withoutFuncs).filter fun m =>
        isHook m.name).getLast?).map (Hook.read s.withoutFuncs) := by
  rw [List.filter_map, List.getLast?_map, Option.map_map, hook?]
  exact congrArg (Option.map · _) (funext fun m => (Hook.read_withoutFuncs s m).symm)

namespace Alike

variable {s s' : Setting} (h : s.Alike s')
include h

private theorem conventions_eq : s'.conventions = s.conventions := by
  rw [← conventions_withoutFuncs, h.types, conventions_withoutFuncs]

private theorem package_eq : s'.package.withoutFuncs = s.package.withoutFuncs := by
  rw [← package_withoutFuncs, h.types, package_withoutFuncs]

/-! ### Owners -/

/-- An owner declares the same handlers in both settings. -/
private theorem handlers_eq (plugins : List Plugin) (o : Owner) :
    o.handlers s' plugins = o.handlers s plugins := by
  rw [Owner.handlers_eq_heeded, h.types, h.heeded, ← Owner.handlers_eq_heeded]

/-- The same is found about the methods of an owner. -/
theorem findings_eq (plugins : List Plugin) (o : Owner) :
    o.findings s' plugins = o.findings s plugins := by
  rw [Owner.findings_eq_heeded, h.types, h.heeded, ← Owner.findings_eq_heeded]

/-- The same path parameters are passed over. -/
theorem invalidPaths_eq : s'.invalidPaths = s.invalidPaths := by
  funext receiver
  rw [invalidPaths_eq_heeded, h.types, h.heeded, ← invalidPaths_eq_heeded]

private theorem pages_eq : s'.pages = s.pages := by
  rw [← pages_withoutFuncs, h.types, pages_withoutFuncs]

private theorem abstractPages_eq : s'.abstractPages = s.abstractPages := by
  rw [← abstractPages_withoutFuncs, h.types, abstractPages_withoutFuncs]

/-- The same types own handlers. -/
theorem owner?_eq : s'.owner? = s.owner? := by
  funext name
  rw [owner?, owner?, h.pages_eq, h.abstractPages_eq]

/-- The same owners are declared. -/
theorem declares_eq : s'.declares = s.declares := by
  funext o
  cases o with
  | page p => rw [declares, declares, h.pages_eq]
  | abstractPage p => rw [declares, declares, h.abstractPages_eq]

/-- Abstract pages have the same handlers. -/
theorem attachedAbstractPages_eq (plugins : List Plugin) :
    s'.attachedAbstractPages plugins = s.attachedAbstractPages plugins := by
  rw [attachedAbstractPages, attachedAbstractPages, h.abstractPages_eq]
  simp only [h.handlers_eq]

/-- Pages inherit the same. -/
theorem inheritedPages_eq (plugins : List Plugin) :
    s'.inheritedPages plugins = s.inheritedPages plugins := by
  have hattached : s'.attachedPages plugins = s.attachedPages plugins := by
    rw [attachedPages, attachedPages, h.pages_eq]
    simp only [h.handlers_eq]
  rw [inheritedPages, inheritedPages, hattached, h.attachedAbstractPages_eq]

/-! ### The application -/

private theorem hook?_eq (isHook : String → Bool) : s'.hook? isHook = s.hook? isHook := by
  rw [hook?_eq_withoutFuncs, hook?_eq_withoutFuncs, h.types, h.conventions_eq, h.ofApp]

private theorem session?_eq : s'.session? = s.session? := by
  rw [← session?_withoutFuncs, h.types, session?_withoutFuncs]

private theorem events_eq : s'.events = s.events := by
  rw [← events_withoutFuncs, h.types, events_withoutFuncs]

/-- The application is the same, but for its digest. -/
theorem app?_eq (plugins : List Plugin) :
    (s'.app? plugins).map (fun app => { app with sourceDigest := s.package.digest }) =
      s.app? plugins := by
  have hname : s'.package.name = s.package.name := by
    have hbare : s'.package.withoutFuncs.name = s.package.withoutFuncs.name := by rw [h.package_eq]
    exact hbare
  have hdecl (p : Package) (name : String) : (p.typeDecl? name).map TypeDecl.location =
      (p.withoutFuncs.typeDecl? name).map TypeDecl.location := by
    rw [Package.typeDecl?_withoutFuncs, Option.map_map]
    rfl
  have hlocation : (s'.package.typeDecl? s.conventions.appType).map TypeDecl.location =
      (s.package.typeDecl? s.conventions.appType).map TypeDecl.location := by
    rw [hdecl, h.package_eq, ← hdecl]
  have hhead : s'.headHook? = s.headHook? := by
    rw [headHook?, headHook?, h.hook?_eq, h.conventions_eq]
  have hrecover : s'.recoverHook? = s.recoverHook? := by
    rw [recoverHook?, recoverHook?, h.hook?_eq, h.conventions_eq]
  -- all of the application but the location is the same on both sides, and so is the location
  let appAt (l : Location) : App :=
    { package := s.package.name
      sourceDigest := s.package.digest
      location := l
      session := s.session?
      head := s.headHook?
      recover500 := s.recoverHook?
      pages := (s.inheritedPages plugins).map Prod.fst
      abstractPages := s.attachedAbstractPages plugins
      events := s.events }
  calc (s'.app? plugins).map (fun app => { app with sourceDigest := s.package.digest })
      = ((s'.package.typeDecl? s.conventions.appType).map TypeDecl.location).map appAt := by
        rw [app?, Option.map_map, Option.map_map, h.conventions_eq, h.session?_eq, hhead,
          hrecover, h.inheritedPages_eq, h.attachedAbstractPages_eq, h.events_eq, hname]
        rfl
    _ = s.app? plugins := by
        rw [hlocation, app?, Option.map_map]
        rfl

/-! ### Findings -/

private theorem isEventType_eq : s'.isEventType = s.isEventType := by
  rw [← isEventType_withoutFuncs, h.types, isEventType_withoutFuncs]

/-- Checks give the same findings if the same paths are invalid. -/
theorem checkFindings_eq {paths paths' : List Location} (hpaths : ∀ l, l ∈ paths' ↔ l ∈ paths)
    (seen : List (Location × String)) (checks : List Check) :
    Check.findings s' paths' seen checks = Check.findings s paths seen checks := by
  have hreferences (receiver : String) (a : Handler) :
      a.referenceFindings s' receiver = a.referenceFindings s receiver := by
    rw [Handler.referenceFindings, Handler.referenceFindings, Handler.dispatchFindings,
      Handler.dispatchFindings, h.isEventType_eq]
  have hcomparable (a : Handler) : Check.comparable paths' a = Check.comparable paths a := by
    have hcontains : paths'.contains a.location = paths.contains a.location := by
      rw [Bool.eq_iff_iff, List.contains_iff_mem, List.contains_iff_mem, hpaths]
    rw [Check.comparable, Check.comparable, hcontains]
  fun_induction Check.findings s paths seen checks with
  | case1 => rw [Check.findings]
  | case2 seen receiver a rest ih => rw [Check.findings, hreferences, ih]
  | case3 seen receiver a rest hcond ih => rw [Check.findings, hcomparable, if_pos hcond, ih]
  | case4 seen receiver a rest hcond ih => rw [Check.findings, hcomparable, if_neg hcond, ih]

/-- The same is found about types, given that the check finds the same. -/
theorem outlineFindings_eq (hcheck : s'.package.check = s.package.check) :
    s'.outlineFindings = s.outlineFindings := by
  have hproblems : s'.typeProblems = s.typeProblems := by
    rw [typeProblems, typeProblems, hcheck]
  rw [Setting.outlineFindings_eq, hproblems, h.types, ← Setting.outlineFindings_eq]

/-- The same pages are without a GET. -/
theorem missingFindings_eq (pages : List Page) :
    s'.missingFindings pages = s.missingFindings pages := by
  have hlocation : s'.package.location = s.package.location := by
    rw [← Package.location_withoutFuncs, h.package_eq, Package.location_withoutFuncs]
  rw [missingFindings, missingFindings, hlocation, h.conventions_eq]

end Alike

end Setting

end GoPages

import GoPages.CrossCheck
import GoPages.Inheritance
import GoPages.Outline.Findings
import GoPages.Owner.Attach

/-!
# Analysis

An `Analysis` of a package is the application that it declares, with everything that was found.

* `Setting.app?` is the application: the outline of the types, with the handlers that the methods
  declare and with what the pages inherit. There is one if the type of the application is declared,
  whatever else is found.
* `Setting.findings` are the findings in the order in which they come up: about types, methods,
  inheritance, references across declarations, and missing pages and handlers.
* `Analysis.ofSources` analyses a package from its sources. A package that cannot be loaded has one
  finding and no application.
-/

namespace GoPages

namespace Setting

/-! ### Pages with their handlers -/

/-- The abstract pages with the handlers that they declare. -/
def attachedAbstractPages (s : Setting) (plugins : List Plugin) : List AbstractPage :=
  s.abstractPages.map fun p => p.withHandlers ((Owner.abstractPage p).handlers s plugins)

/-- The pages with the handlers that they declare. -/
def attachedPages (s : Setting) (plugins : List Plugin) : List Page :=
  s.pages.map fun p => p.withHandlers ((Owner.page p).handlers s plugins)

/-- The pages with what they inherit, and the conflicts. -/
def inheritedPages (s : Setting) (plugins : List Plugin) : List (Page × List Finding) :=
  (s.attachedPages plugins).map (Page.inherit (s.attachedAbstractPages plugins))

/-- The page or abstract page with a type name, without handlers. -/
def owner? (s : Setting) (name : String) : Option Owner :=
  match s.pages.find? fun p => p.typeName == name with
  | some p => some (.page p)
  | none => (findAbstract? name s.abstractPages).map .abstractPage

/-- The pages and abstract pages that have methods, in the order of their first methods. -/
def owners (s : Setting) : List Owner :=
  (s.package.receivers.filter (· != s.conventions.appType)).filterMap s.owner?

/-! ### Hooks -/

/-- The last method of the application among those with a property. -/
def hook? (s : Setting) (isHook : String → Bool) : Option Hook :=
  (((s.methodsOf s.conventions.appType).filter fun m => isHook m.name).getLast?).map (Hook.read s)

/-- The hook that heads the pages. -/
def headHook? (s : Setting) : Option Hook := s.hook? fun name => name == s.conventions.headHook

/-- The hook that recovers from errors. -/
def recoverHook? (s : Setting) : Option Hook :=
  s.hook? fun name =>
    name == s.conventions.recover500Hook && name != s.conventions.headHook

/-! ### Findings -/

/-- The findings about the methods of pages and abstract pages. -/
def methodFindings (s : Setting) (plugins : List Plugin) : List Finding :=
  s.owners.flatMap fun o => o.findings s plugins

/-- The findings of checks across declarations. -/
def crossFindings (s : Setting) (pages : List Page) (abstractPages : List AbstractPage) :
    List Finding :=
  Check.findings s (s.owners.flatMap fun o => s.invalidPaths o.typeName) []
    (pages.flatMap Check.ofPage ++ abstractPages.flatMap Check.ofAbstractPage)

/-- The findings about pages without a GET, and about a missing index page. -/
def missingFindings (s : Setting) (pages : List Page) : List Finding :=
  ((pages.filter fun p => p.get.isNone).map fun p => (p.location, .pageMissingGet p.typeName)) ++
  if pages.any fun p => p.typeName == s.conventions.indexPage then []
  else [(s.package.location, .missingPageIndex s.conventions.indexPage)]

/-- Everything that is found, in the order in which it comes up. -/
def findings (s : Setting) (plugins : List Plugin) : List Finding :=
  let inherited := s.inheritedPages plugins
  let pages := inherited.map Prod.fst
  s.outlineFindings ++ s.methodFindings plugins ++ inherited.flatMap Prod.snd ++
    s.crossFindings pages (s.attachedAbstractPages plugins) ++ s.missingFindings pages

/-! ### The application -/

/-- The application that the package declares. -/
def app? (s : Setting) (plugins : List Plugin) : Option App :=
  (s.package.typeDecl? s.conventions.appType).map fun d =>
    { package := s.package.name
      sourceDigest := s.package.digest
      location := d.location
      session := s.session?
      head := s.headHook?
      recover500 := s.recoverHook?
      pages := (s.inheritedPages plugins).map Prod.fst
      abstractPages := s.attachedAbstractPages plugins
      events := s.events }

end Setting

/-- The application that a package declares, and what was found in it. -/
structure Analysis where
  app : Option App
  diagnostics : Diagnostics

namespace Analysis

/-- Is nothing found? -/
def isClean (a : Analysis) : Bool := a.diagnostics.entries.isEmpty

/-- The analysis of a package that cannot be loaded. -/
def ofLoadError (e : LoadError) : Analysis where
  app := none
  diagnostics := Diagnostics.empty.push (e.location?.getD .unknown) (.load e.message)

/-- The analysis of a package. -/
def ofPackage (c : Conventions) (plugins : List Plugin) (p : Package) : Analysis :=
  let s : Setting := ⟨p, c⟩
  { app := s.app? plugins
    diagnostics := (Diagnostics.empty.pushAll (s.findings plugins)).finish }

/-- The analysis of a package that may have failed to load. -/
def ofLoaded (c : Conventions) (plugins : List Plugin) : Except LoadError Package → Analysis
  | .error e => ofLoadError e
  | .ok p => ofPackage c plugins p

/-- The analysis of sources as one package. -/
def ofSources (c : Conventions) (plugins : List Plugin) (sources : List Source) : Analysis :=
  ofLoaded c plugins (Package.load sources)

end Analysis

end GoPages

import GoPages.Proofs.Analysis.Plugins
import GoPages.Proofs.Files.Inheritance

/-!
# Analyses of files under other names

The findings in a package whose files have other names are the findings in the package
(`Setting.findings_mapFile`), as long as base names are kept and no two files get the same name. In
the diagnostics, which show the base names of places alone, only the place of an earlier embedding
tells the names apart (`Analysis.diagnostics_ofSources_mapFile`).
-/

namespace GoPages

variable {φ : String → String} (digest : String)

/-! ### Checks across declarations -/

section Handler

variable (φ) (s : Setting) (receiver : String) (h : Handler)

private theorem Handler.pathNames_mapFile : (h.mapFile φ).pathNames = h.pathNames := by
  have hpath : (h.mapFile φ).inputs.path = h.inputs.path.map (Slot.mapFile φ) := rfl
  rw [pathNames, pathNames, hpath]
  cases h.inputs.path with
  | none => rfl
  | some p => exact p.type.resolved.tagNames_mapFile φ "path"

/-- The comparison of a route with its path fields moves with its handler. -/
private theorem Handler.routeVarFindings_mapFile :
    (h.mapFile φ).routeVarFindings receiver =
      (h.routeVarFindings receiver).map (Finding.mapFile φ) := by
  have hvars : (h.mapFile φ).routeVars = h.routeVars := rfl
  rw [routeVarFindings, routeVarFindings, pathNames_mapFile, hvars, List.map_append, List.map_map,
    List.map_map]
  rfl

private theorem Handler.dispatchFindings_mapFile :
    (h.mapFile φ).dispatchFindings (s.mapFile φ digest) receiver =
      (h.dispatchFindings s receiver).map (Finding.mapFile φ) := by
  have hdispatch : (h.mapFile φ).inputs.dispatch = h.inputs.dispatch.map (Slot.mapFile φ) := rfl
  rw [dispatchFindings, dispatchFindings, hdispatch]
  cases h.inputs.dispatch with
  | none => rfl
  | some dispatch =>
    simp only [Option.map_some, Setting.isEventType_mapFile, List.map_map]
    rfl

private theorem Handler.signalNames_mapFile : (h.mapFile φ).signalNames = h.signalNames := by
  have hsignals : (h.mapFile φ).inputs.signals = h.inputs.signals.map (Slot.mapFile φ) := rfl
  rw [signalNames, signalNames, hsignals]
  cases h.inputs.signals with
  | none => rfl
  | some p => exact p.type.resolved.tagNames_mapFile φ "json"

private theorem Handler.reflectFindings_mapFile :
    (h.mapFile φ).reflectFindings receiver =
      (h.reflectFindings receiver).map (Finding.mapFile φ) := by
  have hquery : (h.mapFile φ).inputs.query = h.inputs.query.map (Slot.mapFile φ) := rfl
  rw [reflectFindings, reflectFindings, hquery, signalNames_mapFile]
  cases h.inputs.query with
  | none => rfl
  | some query =>
    have hnames : (query.mapFile φ).type.resolved.tagNames "reflectsignal" =
        query.type.resolved.tagNames "reflectsignal" :=
      query.type.resolved.tagNames_mapFile φ "reflectsignal"
    simp only [Option.map_some, hnames, List.map_map]
    rfl

private theorem Handler.referenceFindings_mapFile :
    (h.mapFile φ).referenceFindings (s.mapFile φ digest) receiver =
      (h.referenceFindings s receiver).map (Finding.mapFile φ) := by
  rw [referenceFindings, referenceFindings, dispatchFindings_mapFile, reflectFindings_mapFile,
    List.map_append]

end Handler

namespace Check

variable (φ) in
/-- The check of the handler in another file. -/
def mapFile : Check → Check
  | route receiver h => route receiver (h.mapFile φ)
  | references receiver h => references receiver (h.mapFile φ)

/-- An injective map keeps what is in a list and what is not. -/
private theorem contains_map_of_injective {α β : Type} [BEq α] [LawfulBEq α] [BEq β] [LawfulBEq β]
    {f : α → β} (hf : Function.Injective f) (as : List α) (a : α) :
    (as.map f).contains (f a) = as.contains a :=
  Bool.eq_iff_iff.mpr <| by
    rw [List.contains_iff_mem, List.contains_iff_mem]
    exact List.mem_map_of_injective hf

/-- Places that are told apart before they are moved are told apart after it. -/
private theorem comparable_mapFile (hφ : Location.KeepsBaseNames φ) (invalidPaths : List Location)
    (h : Handler) :
    comparable (invalidPaths.map (Location.mapFile φ)) (h.mapFile φ) =
      comparable invalidPaths h := by
  have hinvalid : (invalidPaths.map (Location.mapFile φ)).contains (h.mapFile φ).location =
      invalidPaths.contains h.location :=
    contains_map_of_injective (Location.mapFile_injective hφ.injective) invalidPaths h.location
  have hroute : (h.mapFile φ).route = h.route := rfl
  rw [comparable, comparable, hinvalid, hroute]

/-- A route has been compared in other files if it has been compared in the files. -/
theorem contains_key_mapFile (hφ : Location.KeepsBaseNames φ) (seen : List (Location × String))
    (h : Handler) :
    (seen.map (Prod.map (Location.mapFile φ) id)).contains (key (h.mapFile φ)) =
      seen.contains (key h) :=
  contains_map_of_injective
    (Function.Injective.prodMap (Location.mapFile_injective hφ.injective) Function.injective_id)
    seen (key h)

/-- The findings of checks in files under other names. -/
theorem findings_mapFile (hφ : Location.KeepsBaseNames φ) (s : Setting)
    (invalidPaths : List Location) (seen : List (Location × String)) (checks : List Check) :
    findings (s.mapFile φ digest) (invalidPaths.map (Location.mapFile φ))
      (seen.map (Prod.map (Location.mapFile φ) id)) (checks.map (mapFile φ)) =
      (findings s invalidPaths seen checks).map (Finding.mapFile φ) := by
  fun_induction findings s invalidPaths seen checks with
  | case1 => rfl
  | case2 seen receiver h rest ih =>
    rw [List.map_cons, mapFile, findings, h.referenceFindings_mapFile, ih, List.map_append]
  | case3 seen receiver h rest hcond ih =>
    -- No other route gets the key of this one, as no two files get the same name.
    have hcond' : comparable (invalidPaths.map (Location.mapFile φ)) (h.mapFile φ) &&
        !(seen.map (Prod.map (Location.mapFile φ) id)).contains (key (h.mapFile φ)) := by
      rw [comparable_mapFile hφ, contains_key_mapFile hφ]
      exact hcond
    rw [List.map_cons, mapFile, findings, if_pos hcond', h.routeVarFindings_mapFile,
      List.map_append, ← ih]
    rfl
  | case4 seen receiver h rest hcond ih =>
    have hcond' : ¬ (comparable (invalidPaths.map (Location.mapFile φ)) (h.mapFile φ) &&
        !(seen.map (Prod.map (Location.mapFile φ) id)).contains (key (h.mapFile φ))) := by
      rw [comparable_mapFile hφ, contains_key_mapFile hφ]
      exact hcond
    rw [List.map_cons, mapFile, findings, if_neg hcond', ih]

variable (φ)

private theorem ofPage_mapFile (p : Page) : ofPage (p.mapFile φ) = (ofPage p).map (mapFile φ) := by
  have hhandlers : (p.mapFile φ).requestHandlers = p.requestHandlers.map (Handler.mapFile φ) :=
    requests_map (Handler.mapFile φ) p.get p.actions
  rw [ofPage, ofPage, hhandlers, List.filter_map, List.map_append]
  simp only [List.map_map]
  rfl

private theorem ofAbstractPage_mapFile (p : AbstractPage) :
    ofAbstractPage (p.mapFile φ) = (ofAbstractPage p).map (mapFile φ) := by
  have hhandlers : (p.mapFile φ).requestHandlers = p.requestHandlers.map (Handler.mapFile φ) :=
    requests_map (Handler.mapFile φ) p.get p.actions
  rw [ofAbstractPage, ofAbstractPage, hhandlers, List.map_map, List.map_map]
  rfl

end Check

/-! ### Findings -/

namespace Setting

variable (s : Setting)

section Pages

variable (φ)

private theorem attachedPages_mapFile :
    (s.mapFile φ digest).attachedPages [] = (s.attachedPages []).map (Page.mapFile φ) := by
  rw [attachedPages, attachedPages, pages_mapFile, List.map_map, List.map_map]
  refine List.map_congr_left fun p _ => ?_
  have hhandlers := (Owner.page p).handlers_mapFile φ digest s
  exact congrArg (p.mapFile φ).withHandlers hhandlers

private theorem attachedAbstractPages_mapFile :
    (s.mapFile φ digest).attachedAbstractPages [] =
      (s.attachedAbstractPages []).map (AbstractPage.mapFile φ) := by
  rw [attachedAbstractPages, attachedAbstractPages, abstractPages_mapFile, List.map_map,
    List.map_map]
  refine List.map_congr_left fun p _ => ?_
  have hhandlers := (Owner.abstractPage p).handlers_mapFile φ digest s
  exact congrArg (p.mapFile φ).withHandlers hhandlers

/-- Pages inherit in other files what they inherit. -/
theorem inheritedPages_mapFile :
    (s.mapFile φ digest).inheritedPages [] =
      (s.inheritedPages []).map (Prod.map (Page.mapFile φ) (List.map (Finding.mapFile φ))) := by
  rw [inheritedPages, inheritedPages, attachedPages_mapFile, attachedAbstractPages_mapFile,
    List.map_map, List.map_map]
  exact List.map_congr_left fun p _ => p.inherit_mapFile φ (s.attachedAbstractPages [])

private theorem owner?_mapFile (name : String) :
    (s.mapFile φ digest).owner? name = (s.owner? name).map (Owner.mapFile φ) := by
  have hpage : (s.pages.map (Page.mapFile φ)).find? (fun p => p.typeName == name) =
      (s.pages.find? fun p => p.typeName == name).map (Page.mapFile φ) := List.find?_map
  rw [owner?, owner?, pages_mapFile, hpage, abstractPages_mapFile, findAbstract?_mapFile]
  cases s.pages.find? fun p => p.typeName == name with
  | some p => rfl
  | none =>
    simp only [Option.map_none, Option.map_map]
    rfl

private theorem owners_mapFile : (s.mapFile φ digest).owners = s.owners.map (Owner.mapFile φ) := by
  have hreceivers : (s.mapFile φ digest).package.receivers = s.package.receivers :=
    s.package.receivers_mapFile φ digest
  rw [owners, owners, hreceivers, List.map_filterMap]
  exact congrArg (List.filterMap · _) (funext (s.owner?_mapFile φ digest))

end Pages

/-- What is found about methods is found in the other files, in the same order. -/
theorem methodFindings_mapFile (hφ : Location.KeepsBaseNames φ) :
    (s.mapFile φ digest).methodFindings [] =
      (s.methodFindings []).map (Finding.mapFile φ) := by
  rw [methodFindings, methodFindings, owners_mapFile]
  exact flatMap_map_of_comm (fun o => o.findings_mapFile digest s hφ) s.owners

/-- So is what the checks across declarations find; no two places become one. -/
private theorem crossFindings_mapFile (hφ : Location.KeepsBaseNames φ) (pages : List Page)
    (abstractPages : List AbstractPage) :
    (s.mapFile φ digest).crossFindings (pages.map (Page.mapFile φ))
      (abstractPages.map (AbstractPage.mapFile φ)) =
      (s.crossFindings pages abstractPages).map (Finding.mapFile φ) := by
  have hpaths : (s.mapFile φ digest).owners.flatMap
      (fun o => (s.mapFile φ digest).invalidPaths o.typeName) =
      (s.owners.flatMap fun o => s.invalidPaths o.typeName).map (Location.mapFile φ) := by
    rw [owners_mapFile]
    refine flatMap_map_of_comm (fun o => ?_) s.owners
    rw [Owner.typeName_mapFile, invalidPaths_mapFile]
  have hpages : (pages.map (Page.mapFile φ)).flatMap Check.ofPage =
      (pages.flatMap Check.ofPage).map (Check.mapFile φ) :=
    flatMap_map_of_comm (Check.ofPage_mapFile φ) pages
  have habstract : (abstractPages.map (AbstractPage.mapFile φ)).flatMap Check.ofAbstractPage =
      (abstractPages.flatMap Check.ofAbstractPage).map (Check.mapFile φ) :=
    flatMap_map_of_comm (Check.ofAbstractPage_mapFile φ) abstractPages
  rw [crossFindings, crossFindings, hpaths, hpages, habstract, ← List.map_append]
  exact Check.findings_mapFile digest hφ s _ [] _

private theorem missingFindings_mapFile (hφ : Location.KeepsBaseNames φ) (pages : List Page) :
    (s.mapFile φ digest).missingFindings (pages.map (Page.mapFile φ)) =
      (s.missingFindings pages).map (Finding.mapFile φ) := by
  have hget : (fun p : Page => p.get.isNone) ∘ Page.mapFile φ = fun p => p.get.isNone :=
    funext fun p => Option.isNone_map
  have hindex : (pages.map (Page.mapFile φ)).any
      (fun p => p.typeName == (s.mapFile φ digest).conventions.indexPage) =
      pages.any fun p => p.typeName == s.conventions.indexPage := by
    rw [List.any_map]
    rfl
  have hlocation : (s.mapFile φ digest).package.location = s.package.location.mapFile φ :=
    s.package.location_mapFile φ digest hφ.empty
  rw [missingFindings, missingFindings, List.filter_map, hget, hindex, hlocation, List.map_append,
    List.map_map, List.map_map]
  split <;> rfl

/-- The findings in a package whose files have other names, without plugins. -/
theorem findings_nil_mapFile (hφ : Location.KeepsBaseNames φ) :
    (s.mapFile φ digest).findings [] = (s.findings []).map (Finding.mapFile φ) := by
  have hpages : ((s.mapFile φ digest).inheritedPages []).map Prod.fst =
      ((s.inheritedPages []).map Prod.fst).map (Page.mapFile φ) := by
    rw [inheritedPages_mapFile, List.map_map, List.map_map]
    rfl
  have hconflicts : ((s.mapFile φ digest).inheritedPages []).flatMap Prod.snd =
      ((s.inheritedPages []).flatMap Prod.snd).map (Finding.mapFile φ) := by
    rw [inheritedPages_mapFile, List.flatMap_map, List.map_flatMap]
    rfl
  simp only [findings, hpages, hconflicts, s.outlineFindings_mapFile digest hφ,
    s.methodFindings_mapFile digest hφ, attachedAbstractPages_mapFile,
    s.crossFindings_mapFile digest hφ, s.missingFindings_mapFile digest hφ, List.map_append]

/-- The findings in a package whose files have other names. -/
theorem findings_mapFile (hφ : Location.KeepsBaseNames φ) (plugins : List Plugin) :
    (s.mapFile φ digest).findings plugins = (s.findings plugins).map (Finding.mapFile φ) := by
  -- A plugin may add what it likes in other files, but no finding looks at additions.
  rw [← findings_nil _ plugins, ← findings_nil _ plugins, s.findings_nil_mapFile digest hφ]

end Setting

/-! ### Diagnostics -/

variable (φ) in
/-- The diagnostic with the place of an earlier embedding in another file. -/
def Diagnostic.mapPrevious (d : Diagnostic) : Diagnostic :=
  { d with error := d.error.mapPrevious φ }

namespace Diagnostics

variable (φ) in
/-- The diagnostics with the places of earlier embeddings in other files. -/
def mapPrevious (ds : Diagnostics) : Diagnostics :=
  ⟨ds.entries.map (Diagnostic.mapPrevious φ), ds.nextSeq⟩

/-- A finding in another file is added with the same place. -/
theorem push_mapFile (hφ : Location.KeepsBaseNames φ) (ds : Diagnostics) (l : Location)
    (e : AnalysisError) :
    (ds.mapPrevious φ).push (l.mapFile φ) (e.mapPrevious φ) = (ds.push l e).mapPrevious φ := by
  rw [push, push, l.normalized_mapFile hφ, mapPrevious, mapPrevious, List.map_append]
  rfl

/-- Findings in other files are added as diagnostics that differ in the places of earlier embeddings
only. -/
private theorem pushAll_mapFile (hφ : Location.KeepsBaseNames φ) (ds : Diagnostics)
    (found : List Finding) :
    (ds.mapPrevious φ).pushAll (found.map (Finding.mapFile φ)) =
      (ds.pushAll found).mapPrevious φ := by
  rw [pushAll, pushAll, List.foldl_map]
  exact List.foldl_hom (mapPrevious φ) fun ds found => push_mapFile hφ ds found.1 found.2

/-- The order of diagnostics does not depend on what they say. -/
theorem finish_mapPrevious (ds : Diagnostics) :
    (ds.mapPrevious φ).finish = ds.finish.mapPrevious φ := by
  rw [finish, finish, mapPrevious, mapPrevious, sortBy_map]
  rfl

end Diagnostics

namespace Analysis

private theorem diagnostics_ofLoadError_mapFile (hφ : Location.KeepsBaseNames φ) (e : LoadError) :
    (ofLoadError (e.mapFile φ)).diagnostics = (ofLoadError e).diagnostics.mapPrevious φ := by
  have hunknown : Location.unknown = Location.unknown.mapFile φ :=
    congrArg (fun file => (⟨file, 0, 0⟩ : Location)) hφ.empty.symm
  have hlocation : (e.mapFile φ).location?.getD .unknown =
      (e.location?.getD .unknown).mapFile φ := by
    rw [e.location?_mapFile φ]
    cases e.location? with
    | none => exact hunknown
    | some l => rfl
  rw [ofLoadError, ofLoadError, hlocation, e.message_mapFile φ]
  exact Diagnostics.push_mapFile hφ .empty _ (.load e.message)

private theorem diagnostics_ofPackage_mapFile (hφ : Location.KeepsBaseNames φ) (c : Conventions)
    (plugins : List Plugin) (p : Package) :
    (ofPackage c plugins (p.mapFile φ digest)).diagnostics =
      (ofPackage c plugins p).diagnostics.mapPrevious φ := by
  have hfound : (⟨p.mapFile φ digest, c⟩ : Setting).findings plugins =
      ((⟨p, c⟩ : Setting).findings plugins).map (Finding.mapFile φ) :=
    (⟨p, c⟩ : Setting).findings_mapFile digest hφ plugins
  have hpushed := Diagnostics.pushAll_mapFile hφ .empty ((⟨p, c⟩ : Setting).findings plugins)
  rw [ofPackage, ofPackage, hfound]
  exact (congrArg Diagnostics.finish hpushed).trans (Diagnostics.finish_mapPrevious _)

/-- **The diagnostics of sources under other names** are those of the sources, but for the places of
earlier embeddings. -/
theorem diagnostics_ofSources_mapFile (hφ : Location.KeepsBaseNames φ) (c : Conventions)
    (plugins : List Plugin) {sources : List Source}
    (horder : ∀ s ∈ sources, ∀ t ∈ sources, φ s.name < φ t.name ↔ s.name < t.name) :
    (ofSources c plugins (sources.map (Source.mapFile φ))).diagnostics =
      (ofSources c plugins sources).diagnostics.mapPrevious φ := by
  -- The files are read in the order of their names, which stays.
  obtain ⟨digest, hload⟩ := Package.load_mapFile φ horder
  rw [ofSources, ofSources, hload]
  cases Package.load sources with
  | error e => exact diagnostics_ofLoadError_mapFile hφ e
  | ok p => exact diagnostics_ofPackage_mapFile digest hφ c plugins p

end Analysis

end GoPages

import GoPages.Proofs.Analysis.Passes
import GoPages.Proofs.Analysis.Methods
import GoPages.Proofs.Files.Analysis
import GoPages.Proofs.Files.Moved

/-!
# The directory of the sources

Diagnostics show the base names of files, so that nothing depends on the directory that the files
were read from. `Analysis.diagnostics_inDirectory` says how far this goes: with a directory in front
of the file names the diagnostics are the same, in the same order, but for the places of earlier
embeddings. A conflict between two embedded abstract pages is about the place of the first one, and
this place keeps the whole path. So the diagnostics are the same in all directories if and only if
there is no such conflict.

The first half is `Analysis.diagnostics_ofSources_mapFile` for files that are moved. For the second
half, conflicts are found by inheritance alone (`Setting.exists_inherits_of_earlier?`), and the
embedding is in one of the sources (`Package.mem_names_of_earlier?`): pages inherit the same in
files under other names, and giving other names to all files but the sources changes no loaded
package.
-/

namespace GoPages

/-- The source with a directory in front of its name. -/
def Source.inDirectory (d : String) (s : Source) : Source := ⟨d ++ s.name, s.text⟩

/-! ### Errors about earlier embeddings -/

namespace AnalysisError

variable {φ χ : String → String} {e : AnalysisError}

/-- Only the file of the earlier embedding matters to a diagnostic that is moved. -/
private theorem mapPrevious_congr (h : ∀ l ∈ e.earlier?, φ l.file = χ l.file) :
    e.mapPrevious φ = e.mapPrevious χ := by
  cases e with
  | conflictingGetEmbed page owner previousOwner previous =>
    have hfile : φ previous.file = χ previous.file := h previous rfl
    rw [mapPrevious, mapPrevious, Location.mapFile, Location.mapFile, hfile]
  | conflictingEventHandlerEmbed page event owner previousOwner previous =>
    have hfile : φ previous.file = χ previous.file := h previous rfl
    rw [mapPrevious, mapPrevious, Location.mapFile, Location.mapFile, hfile]
  | _ => rfl

private theorem earlier?_mapPrevious (φ : String → String) (e : AnalysisError) :
    (e.mapPrevious φ).earlier? = e.earlier?.map (Location.mapFile φ) := by
  cases e <;> rfl

/-- A diagnostic that does not change has no earlier embedding in a file that is moved. -/
private theorem file_of_mapPrevious_eq (h : e.mapPrevious φ = e) {l : Location}
    (hl : l ∈ e.earlier?) : φ l.file = l.file := by
  have hmap : e.earlier?.map (Location.mapFile φ) = e.earlier? := by
    rw [← earlier?_mapPrevious, h]
  rw [Option.mem_def.mp hl, Option.map_some] at hmap
  exact congrArg Location.file (Option.some.inj hmap)

private theorem mapPrevious_id (e : AnalysisError) : e.mapPrevious id = e := by
  cases e <;> rfl

end AnalysisError

/-- A list that is mapped to itself is fixed item by item. -/
private theorem eq_of_mem_of_map_eq {α : Type} {f : α → α} {as : List α} (h : as.map f = as) {a : α}
    (ha : a ∈ as) : f a = a :=
  List.map_inj_left.mp (h.trans (List.map_id as).symm) a ha

private theorem append_ne_self {d : String} (hd : d ≠ "") (file : String) : d ++ file ≠ file := by
  intro h
  have hlist : d.toList ++ file.toList = file.toList := by rw [← String.toList_append, h]
  exact hd (String.toList_inj.mp (List.append_left_eq_self.mp hlist))

/-! ### Places of earlier embeddings -/

/-- An earlier embedding that a conflict of some page is about is in one of the sources. -/
theorem Package.mem_names_of_earlier? {sources : List Source} {p : Package}
    (hload : load sources = .ok p) (c : Conventions) (plugins : List Plugin)
    {r : Page × List Finding} (hr : r ∈ (⟨p, c⟩ : Setting).inheritedPages plugins) {f : Finding}
    (hf : f ∈ r.2) {l : Location} (hl : l ∈ f.2.earlier?) : l.file ∈ sources.map Source.name := by
  -- All files but the sources get other names, which changes neither the sources nor the package.
  let φ (file : String) : String := if file ∈ sources.map Source.name then file else "/" ++ file
  have hname (s : Source) (hs : s ∈ sources) : φ s.name = s.name :=
    if_pos (List.mem_map_of_mem hs)
  have hsources : sources.map (Source.mapFile φ) = sources := by
    refine (List.map_congr_left fun s hs => ?_).trans (List.map_id sources)
    rw [Source.mapFile, hname s hs]
    rfl
  obtain ⟨digest, hloaded⟩ := load_mapFile φ fun s hs t ht => by rw [hname s hs, hname t ht]
  rw [hsources, hload] at hloaded
  have hsetting : (⟨p, c⟩ : Setting).mapFile φ digest = ⟨p, c⟩ :=
    congrArg (fun p => (⟨p, c⟩ : Setting)) (Except.ok.inj hloaded).symm
  -- So the conflicts are the same, with the same places.
  have hpages := (⟨p, c⟩ : Setting).inheritedPages_mapFile φ digest
  rw [hsetting] at hpages
  have hbare : (r.1.bare, r.2) ∈ (⟨p, c⟩ : Setting).inheritedPages [] := by
    rw [Setting.inheritedPages_nil ⟨p, c⟩ plugins]
    exact List.mem_map_of_mem (f := fun r : Page × List Finding => (r.1.bare, r.2)) hr
  have hfound : r.2.map (Finding.mapFile φ) = r.2 :=
    congrArg Prod.snd (eq_of_mem_of_map_eq hpages.symm hbare)
  have herror : f.2.mapPrevious φ = f.2 := congrArg Prod.snd (eq_of_mem_of_map_eq hfound hf)
  by_contra hfile
  have hmoved : φ l.file = "/" ++ l.file := if_neg hfile
  exact append_ne_self (by decide) l.file
    (hmoved.symm.trans (AnalysisError.file_of_mapPrevious_eq herror hl))

/-! ### Diagnostics -/

/-- What a diagnostic says: its place, its code, what is wrong, and the text of all this. -/
def Diagnostic.said (d : Diagnostic) : Location × String × AnalysisError × String :=
  (d.location, d.error.code, d.error, d.text)

namespace Analysis

variable {c : Conventions} {plugins : List Plugin} {sources : List Source} {d : String}

/-- An earlier embedding that a diagnostic is about is in one of the sources. -/
theorem mem_names_of_earlier? {e : Diagnostic}
    (he : e ∈ (ofSources c plugins sources).diagnostics.entries) {l : Location}
    (hl : l ∈ e.error.earlier?) : l.file ∈ sources.map Source.name := by
  rw [ofSources] at he
  cases hload : Package.load sources with
  | error failure =>
    rw [hload] at he
    rw [List.mem_singleton.mp he] at hl
    exact absurd hl (Option.not_mem_none l)
  | ok p =>
    rw [hload] at he
    obtain ⟨f, hf, herror⟩ := exists_mem_findings he
    rw [← herror] at hl
    have hearlier : f.2.earlier? ≠ none := Option.ne_none_iff_exists'.mpr ⟨l, hl⟩
    obtain ⟨r, hr, hmem⟩ := Setting.exists_inherits_of_earlier? hf hearlier
    exact Package.mem_names_of_earlier? hload c plugins hr hmem hl

/-- The diagnostics of sources in a directory. -/
theorem diagnostics_ofSources_inDirectory (hd : Location.IsDirectoryPath d)
    (hnames : ∀ s ∈ sources, Location.IsFileName s.name) :
    (ofSources c plugins (sources.map (Source.inDirectory d))).diagnostics =
      (ofSources c plugins sources).diagnostics.mapPrevious (d ++ ·) := by
  have hmoved : sources.map (Source.inDirectory d) =
      sources.map (Source.mapFile (Location.moved d)) := by
    refine List.map_congr_left fun s hs => ?_
    rw [Source.inDirectory, Source.mapFile, (hnames s hs).moved]
  -- only errors about an earlier place show the directory, and such a place is in one of the files
  have hprevious : ∀ e ∈ (ofSources c plugins sources).diagnostics.entries,
      e.mapPrevious (Location.moved d) = e.mapPrevious (d ++ ·) := by
    intro e he
    have herror : e.error.mapPrevious (Location.moved d) = e.error.mapPrevious (d ++ ·) := by
      refine AnalysisError.mapPrevious_congr fun l hl => ?_
      obtain ⟨s, hs, hfile⟩ := List.mem_map.mp (mem_names_of_earlier? he hl)
      rw [← hfile, (hnames s hs).moved]
    rw [Diagnostic.mapPrevious, Diagnostic.mapPrevious, herror]
  rw [hmoved, diagnostics_ofSources_mapFile (Location.keepsBaseNames_moved hd) c plugins
    fun s hs t ht => (hnames s hs).moved_lt_moved_iff (hnames t ht), Diagnostics.mapPrevious,
    Diagnostics.mapPrevious, List.map_congr_left hprevious]

/-- A directory in front of the places of earlier embeddings shows as soon as there is one. -/
theorem map_said_mapPrevious_append_eq_iff (hd : d ≠ "") (ds : Diagnostics) :
    (ds.mapPrevious (d ++ ·)).entries.map Diagnostic.said = ds.entries.map Diagnostic.said ↔
      ∀ e ∈ ds.entries, e.error.earlier? = none := by
  rw [Diagnostics.mapPrevious, List.map_map, List.map_inj_left]
  refine forall₂_congr fun e _ => ⟨fun hsaid => ?_, fun hnone => ?_⟩
  · have herror : e.error.mapPrevious (d ++ ·) = e.error :=
      congrArg (fun said => said.2.2.1) hsaid
    refine Option.eq_none_iff_forall_not_mem.mpr fun l hl => ?_
    exact append_ne_self hd l.file (AnalysisError.file_of_mapPrevious_eq herror hl)
  · have herror : e.error.mapPrevious (d ++ ·) = e.error.mapPrevious id := by
      refine AnalysisError.mapPrevious_congr fun l hl => ?_
      rw [hnone] at hl
      exact absurd hl (Option.not_mem_none l)
    rw [Function.comp_apply, Diagnostic.mapPrevious, herror, AnalysisError.mapPrevious_id]

/-- **Directories.** With a directory in front of the names of files, the diagnostics are the same
in the same order, but for the places of earlier embeddings, which are in the directory. So they say
the same if and only if none of them is about an earlier embedding. -/
theorem diagnostics_inDirectory (c : Conventions) (plugins : List Plugin) {sources : List Source}
    {d : String} (hd : Location.IsDirectoryPath d)
    (hnames : ∀ s ∈ sources, Location.IsFileName s.name) :
    (ofSources c plugins (sources.map (Source.inDirectory d))).diagnostics =
        (ofSources c plugins sources).diagnostics.mapPrevious (d ++ ·) ∧
      ((ofSources c plugins (sources.map (Source.inDirectory d))).diagnostics.entries.map
            Diagnostic.said =
          (ofSources c plugins sources).diagnostics.entries.map Diagnostic.said ↔
        ∀ e ∈ (ofSources c plugins sources).diagnostics.entries, e.error.earlier? = none) := by
  have hdiagnostics :
      (ofSources c plugins (sources.map (Source.inDirectory d))).diagnostics =
        (ofSources c plugins sources).diagnostics.mapPrevious (d ++ ·) :=
    diagnostics_ofSources_inDirectory hd hnames
  have hne : d ≠ "" := by
    rintro rfl
    exact absurd hd (by decide)
  refine ⟨hdiagnostics, ?_⟩
  rw [hdiagnostics]
  exact map_said_mapPrevious_append_eq_iff hne _

end Analysis

/-! ### A page with rivals -/

/-- A page that embeds two abstract pages, each of which has a GET. -/
def rivalGets : List (String × List String) :=
  [("app.go", ["package app",
    "import \"net/http\"",
    "import \"github.com/a-h/templ\"",
    "type App struct\x7b\x7d",
    "type First struct\x7b App *App \x7d",
    "func (First) GET(*http.Request) (body templ.Component) \x7b\x7d",
    "type Second struct\x7b App *App \x7d",
    "func (Second) GET(*http.Request) (body templ.Component) \x7b\x7d",
    "// PageIndex is /",
    "type PageIndex struct\x7b App *App; First; Second \x7d"])]

private theorem isFileName_rivalGets : ∀ s ∈ sourcesOf rivalGets, Location.IsFileName s.name := by
  intro s hs
  have hname : s.name = "app.go" := by
    rw [sourcesOf, rivalGets, List.map_singleton, List.mem_singleton] at hs
    rw [hs]
  rw [hname]
  exact ⟨by decide, by decide, by decide, by decide⟩

namespace Analysis

set_option maxRecDepth 100000 in
/-- The conflict is found, and nothing else. -/
private theorem entries_rivalGets :
    (ofSources .standard [] (sourcesOf rivalGets)).diagnostics.entries =
      [⟨⟨"app.go", 10, 41⟩, 0,
        .conflictingGetEmbed "PageIndex" "Second" "First" ⟨"app.go", 10, 34⟩⟩] := by
  rw [ofSources, Package.load_sourcesOf]
  decide +kernel

/-- The rivals in a directory. The place of the second embedding is shown without the directory, and
that of the first one with it. -/
theorem diagnostics_inDirectory_rivalGets :
    Location.IsDirectoryPath "site/" ∧
      (∀ s ∈ sourcesOf rivalGets, Location.IsFileName s.name) ∧
      (ofSources .standard []
          ((sourcesOf rivalGets).map (Source.inDirectory "site/"))).diagnostics.entries =
        [⟨⟨"app.go", 10, 41⟩, 0,
          .conflictingGetEmbed "PageIndex" "Second" "First" ⟨"site/app.go", 10, 34⟩⟩] := by
  have hd : Location.IsDirectoryPath "site/" := by decide
  obtain ⟨hmoved, -⟩ := diagnostics_inDirectory .standard [] hd isFileName_rivalGets
  refine ⟨hd, isFileName_rivalGets, ?_⟩
  rw [hmoved, Diagnostics.mapPrevious, entries_rivalGets]
  decide

/-- What diagnostics say does depend on the directory, also without plugins. -/
theorem not_forall_map_said_eq :
    ¬ ∀ (c : Conventions) (sources : List Source) (d : String), Location.IsDirectoryPath d →
      (∀ s ∈ sources, Location.IsFileName s.name) →
        (ofSources c [] (sources.map (Source.inDirectory d))).diagnostics.entries.map
            Diagnostic.said =
          (ofSources c [] sources).diagnostics.entries.map Diagnostic.said := by
  intro h
  have hd : Location.IsDirectoryPath "site/" := by decide
  have heq := h .standard (sourcesOf rivalGets) "site/" hd isFileName_rivalGets
  rw [diagnostics_ofSources_inDirectory hd isFileName_rivalGets,
    map_said_mapPrevious_append_eq_iff (by decide), entries_rivalGets] at heq
  exact absurd (heq _ List.mem_cons_self) (by decide)

end Analysis

end GoPages

import GoPages.Proofs.Files.Owner
import GoPages.Proofs.Inheritance.Breadth

/-!
# Inheritance in files under other names

What a page inherits does not depend on the names of files. A merge of pages in files under other
names is the merge of the pages, in these files (`Merge.add_mapFile`, `Page.merged_mapFile`): it
takes the same handlers and finds the same conflicts (`Page.inherit_mapFile`).

A conflict is about the place of the embedding that won, and this place has the other name too.
-/

namespace GoPages

variable (φ : String → String)

/-! ### Contributions -/

/-- The contribution in another file. -/
def Contribution.mapFile (c : Contribution) : Contribution := ⟨c.page.mapFile φ, c.site.mapFile φ⟩

theorem findAbstract?_mapFile (name : String) (pages : List AbstractPage) :
    findAbstract? name (pages.map (AbstractPage.mapFile φ)) =
      (findAbstract? name pages).map (AbstractPage.mapFile φ) := List.find?_map

private theorem withoutAbstract_mapFile (name : String) (pages : List AbstractPage) :
    withoutAbstract name (pages.map (AbstractPage.mapFile φ)) =
      (withoutAbstract name pages).map (AbstractPage.mapFile φ) := List.filter_map

/-- The abstract pages that can be reached are the same, since they are found by their names. -/
private theorem contributions_mapFile (fresh : List AbstractPage) (queue : List EmbedRef) :
    contributions (fresh.map (AbstractPage.mapFile φ)) (queue.map (EmbedRef.mapFile φ)) =
      (contributions fresh queue).map (Contribution.mapFile φ) := by
  fun_induction contributions fresh queue with
  | case1 fresh => rw [List.map_nil, contributions, List.map_nil]
  | case2 fresh e queue hnone ih =>
    have hnone' : findAbstract? (e.mapFile φ).typeName (fresh.map (AbstractPage.mapFile φ)) =
        none := by
      rw [findAbstract?_mapFile, EmbedRef.mapFile, hnone, Option.map_none]
    rw [List.map_cons, contributions_cons_of_eq_none _ hnone', ih]
  | case3 fresh e queue p hsome _ ih =>
    have hsome' : findAbstract? (e.mapFile φ).typeName (fresh.map (AbstractPage.mapFile φ)) =
        some (p.mapFile φ) := by
      rw [findAbstract?_mapFile, EmbedRef.mapFile, hsome, Option.map_some]
    -- The queue grows by the embeddings of the page in its file.
    have hqueue : queue.map (EmbedRef.mapFile φ) ++ (p.mapFile φ).embeds =
        (queue ++ p.embeds).map (EmbedRef.mapFile φ) := by
      rw [List.map_append, AbstractPage.mapFile]
    rw [List.map_cons, contributions_cons_of_eq_some _ hsome', EmbedRef.mapFile,
      withoutAbstract_mapFile, hqueue, ih, List.map_cons]
    rfl

/-! ### Merging -/

/-- The claim in another file. -/
def Claim.mapFile (c : Claim) : Claim := ⟨c.owner, c.site.mapFile φ⟩

namespace Merge

/-- The merge in another file. -/
def mapFile (m : Merge) : Merge where
  page := m.page.mapFile φ
  getClaim := m.getClaim.map (Option.map (Claim.mapFile φ))
  names := m.names
  events := m.events.map (Prod.map id (Option.map (Claim.mapFile φ)))
  found := m.found.map (Finding.mapFile φ)
  inherited := m.inherited

private theorem start_mapFile (page : Page) : start (page.mapFile φ) = (start page).mapFile φ := by
  have hclaim : (start (page.mapFile φ)).getClaim =
      (start page).getClaim.map (Option.map (Claim.mapFile φ)) := by
    simp only [start, Page.mapFile, Option.isSome_map]
    split <;> rfl
  have hnames : (start (page.mapFile φ)).names = (start page).names := by
    simp only [start, Page.mapFile, List.map_map]
    rfl
  have hevents : (start (page.mapFile φ)).events =
      (start page).events.map (Prod.map id (Option.map (Claim.mapFile φ))) := by
    simp only [start, Page.mapFile, List.map_map]
    rfl
  rw [mapFile, ← hclaim, ← hnames, ← hevents]
  rfl

variable (m : Merge) (c : Contribution)

private theorem report_mapFile (l : Location) (e : AnalysisError) :
    (m.report l e).mapFile φ = (m.mapFile φ).report (l.mapFile φ) (e.mapPrevious φ) := by
  rw [report, mapFile, List.map_append]
  rfl

/-- A GET is taken or is in conflict, whatever the files are called. -/
private theorem addGet_mapFile (h : Handler) :
    (m.addGet c h).mapFile φ = (m.mapFile φ).addGet (c.mapFile φ) (h.mapFile φ) := by
  have hclaim : (m.mapFile φ).getClaim = m.getClaim.map (Option.map (Claim.mapFile φ)) := rfl
  rw [addGet, addGet, hclaim]
  cases m.getClaim with
  | none => rfl
  | some claim =>
    cases claim with
    | none => rfl
    | some previous => exact m.report_mapFile φ c.site _

private theorem addAction_mapFile (h : Handler) :
    (m.addAction c h).mapFile φ = (m.mapFile φ).addAction (c.mapFile φ) (h.mapFile φ) := by
  have hnames : (m.mapFile φ).names.contains (h.mapFile φ).methodName =
      m.names.contains h.methodName := rfl
  rw [addAction, addAction, hnames]
  split
  · rfl
  · simp only [mapFile, Page.mapFile, List.map_append, List.map_cons, List.map_nil]
    rfl

/-- An event handler is taken, passed over or in conflict, whatever the files are called. -/
private theorem addEventHandler_mapFile (h : EventHandler) :
    (m.addEventHandler c h).mapFile φ =
      (m.mapFile φ).addEventHandler (c.mapFile φ) (h.mapFile φ) := by
  have hnames : (m.mapFile φ).names.contains (h.mapFile φ).methodName =
      m.names.contains h.methodName := rfl
  have hevents : (m.mapFile φ).events.lookup (h.mapFile φ).eventType =
      (m.events.lookup h.eventType).map (Option.map (Claim.mapFile φ)) :=
    lookup_map_snd (Option.map (Claim.mapFile φ)) h.eventType m.events
  rw [addEventHandler, addEventHandler, hevents, hnames]
  cases m.events.lookup h.eventType with
  | none =>
    dsimp only [Option.map_none]
    split
    · rfl
    · simp only [mapFile, Page.mapFile, List.map_append, List.map_cons, List.map_nil]
      rfl
  | some claim =>
    cases claim with
    | none => rfl
    | some previous => exact m.report_mapFile φ c.site _

private theorem addGet?_mapFile :
    (m.addGet? c).mapFile φ = (m.mapFile φ).addGet? (c.mapFile φ) := by
  have hget : (c.mapFile φ).page.get = c.page.get.map (Handler.mapFile φ) := rfl
  rw [addGet?, addGet?, hget]
  cases c.page.get with
  | none => rfl
  | some h => exact m.addGet_mapFile φ c h

private theorem foldl_addAction_mapFile (hs : List Handler) :
    (hs.foldl (addAction c) m).mapFile φ =
      (hs.map (Handler.mapFile φ)).foldl (addAction (c.mapFile φ)) (m.mapFile φ) := by
  rw [List.foldl_map]
  exact (List.foldl_hom (mapFile φ) fun m h => (m.addAction_mapFile φ c h).symm).symm

private theorem foldl_addEventHandler_mapFile (hs : List EventHandler) :
    (hs.foldl (addEventHandler c) m).mapFile φ =
      (hs.map (EventHandler.mapFile φ)).foldl (addEventHandler (c.mapFile φ)) (m.mapFile φ) := by
  rw [List.foldl_map]
  exact (List.foldl_hom (mapFile φ) fun m h => (m.addEventHandler_mapFile φ c h).symm).symm

/-- One contribution. -/
theorem add_mapFile : (m.add c).mapFile φ = (m.mapFile φ).add (c.mapFile φ) := by
  simp only [add]
  rw [foldl_addEventHandler_mapFile, foldl_addAction_mapFile, addGet?_mapFile]
  rfl

end Merge

/-- All contributions. -/
theorem Page.merged_mapFile (abstracts : List AbstractPage) (page : Page) :
    (page.mapFile φ).merged (abstracts.map (AbstractPage.mapFile φ)) =
      (page.merged abstracts).mapFile φ := by
  have hembeds : (page.mapFile φ).embeds = page.embeds.map (EmbedRef.mapFile φ) := rfl
  rw [merged, merged, hembeds, contributions_mapFile, List.foldl_map, Merge.start_mapFile]
  exact List.foldl_hom (Merge.mapFile φ) fun m c => (m.add_mapFile φ c).symm

/-- The page with what it inherits and the conflicts, in files under other names. -/
theorem Page.inherit_mapFile (abstracts : List AbstractPage) (page : Page) :
    (page.mapFile φ).inherit (abstracts.map (AbstractPage.mapFile φ)) =
      ((page.inherit abstracts).1.mapFile φ,
        (page.inherit abstracts).2.map (Finding.mapFile φ)) := by
  rw [inherit, inherit, merged_mapFile]
  rfl

end GoPages

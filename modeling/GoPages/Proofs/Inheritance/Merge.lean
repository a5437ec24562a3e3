import GoPages.Proofs.Inheritance.Offers

/-!
# What a page inherits

A merge keeps tables of names and of event types, of who has the GET, and of the conflicts. They say
what has been offered by then and what the page has taken of it (`Merge.Represents`).

* Each step of a merge keeps it: `Merge.Represents.addGet`, `Merge.Represents.addAction` and
  `Merge.Represents.addEventHandler`. So it holds of the page with all contributions merged into it
  (`Page.represents_merged`).
* `Merge.Extends` is what other parts of the analysis need to know of it: every handler is the
  page's own or that of an abstract page under its mark, and no name and no event type comes twice
  that did not do so before (`Page.extends_inherit`).
-/

namespace GoPages

namespace Merge

/-- One more offer. -/
def take (m : Merge) : Offer → Merge
  | .action c h => m.addAction c h
  | .eventHandler c h => m.addEventHandler c h

/-- A contribution is merged by its GET and then offer by offer. -/
theorem add_eq_foldl_take (m : Merge) (c : Contribution) :
    m.add c = c.offers.foldl take (m.addGet? c) := by
  rw [Contribution.offers, List.foldl_append, List.foldl_map, List.foldl_map]
  rfl

/-- The merge is that of a page to which `owners` have offered a GET, and which has taken the offers
`taken`, with the conflicts `conflicts` of event handlers. -/
structure Represents (start : Page) (owners : List Contribution) (taken : List Offer)
    (conflicts : List (Location × AnalysisError)) (m : Merge) : Prop where
  page : m.page = start.withOffers owners taken
  getClaim : m.getClaim =
    if start.get.isSome then some none else owners.head?.map fun c => some c.claim
  names : m.names.Perm (start.methodNamesWith taken)
  lookup : ∀ e, m.events.lookup e =
    if e ∈ start.eventTypes then some none
    else (taken.find? fun o => o.eventType? == some e).map fun o => some o.source.claim
  getConflicts : (m.found.filter fun f => f.2.isGetConflict) = start.getConflicts owners
  eventConflicts : (m.found.filter fun f => f.2.isEventConflict) = conflicts
  inherited : m.inherited =
    { get := start.get.isNone && !owners.isEmpty
      actions := (taken.filterMap Offer.action?).length
      eventHandlers := (taken.filterMap Offer.eventHandler?).length }

/-- At the start the page itself reacts to its event types, and nothing else does. -/
theorem lookup_events_start (page : Page) (e : String) :
    (start page).events.lookup e = if e ∈ page.eventTypes then some none else none := by
  change (page.eventHandlers.map fun h => (h.eventType, none)).lookup e = _
  rw [Page.eventTypes]
  induction page.eventHandlers with
  | nil => rfl
  | cons h hs ih =>
    rw [List.map_cons, List.lookup_cons, List.map_cons, ih]
    by_cases he : e = h.eventType
    · simp [he]
    · simp [he, beq_false_of_ne he]

namespace Represents

variable {page : Page} {owners : List Contribution} {taken : List Offer}
  {conflicts : List (Location × AnalysisError)} {m : Merge}

/-- Before anything is offered, a page has what it declares itself. -/
theorem start (page : Page) : (Merge.start page).Represents page [] [] [] where
  page := by simp [Merge.start, Page.withOffers, Page.getFrom]
  getClaim := rfl
  names := by simp [Merge.start, Page.methodNamesWith, Page.methodNames]
  lookup := lookup_events_start page
  getConflicts := by cases hget : page.get <;> simp [Merge.start, Page.getConflicts, hget]
  eventConflicts := rfl
  inherited := by simp [Merge.start]

/-- The first GET goes to a page without one of its own, and every later one is a conflict. -/
theorem addGet (hm : m.Represents page owners taken conflicts) {c : Contribution} {h : Handler}
    (hc : c.page.get = some h) :
    (m.addGet c h).Represents page (owners ++ [c]) taken conflicts := by
  rw [Merge.addGet]
  have hclaim := hm.getClaim
  rcases hget : page.get with _ | own
  · rcases owners with _ | ⟨first, others⟩
    · -- nobody has a GET yet
      replace hclaim : m.getClaim = none := by simpa [hget] using hclaim
      rw [hclaim]
      refine { hm with page := ?_, getClaim := ?_, getConflicts := ?_, inherited := ?_ }
      · simp [hm.page, Page.withOffers, Page.getFrom, hget, hc, Handler.inheritedBy]
      · simp [hget]
      · simpa [Page.getConflicts, hget] using hm.getConflicts
      · simp [hm.inherited, hget]
    · -- the first contribution has it, and keeps it
      replace hclaim : m.getClaim = some (some first.claim) := by simpa [hget] using hclaim
      have hname : m.page.typeName = page.typeName := by rw [hm.page, Page.withOffers]
      rw [hclaim]
      refine { hm with
        page := ?_, getClaim := ?_, getConflicts := ?_, eventConflicts := ?_, inherited := ?_ }
      · simpa [Page.withOffers, Page.getFrom] using hm.page
      · simpa [hget] using hclaim
      · simp [hm.getConflicts, Page.getConflicts, hget, hname, Page.getConflict, Contribution.claim]
      · simp [hm.eventConflicts]
      · simpa [hget] using hm.inherited
  · -- the page itself has it
    replace hclaim : m.getClaim = some none := by simpa [hget] using hclaim
    rw [hclaim]
    refine { hm with page := ?_, getClaim := ?_, getConflicts := ?_, inherited := ?_ }
    · simpa [Page.withOffers, Page.getFrom, hget] using hm.page
    · simpa [hget] using hclaim
    · simpa [Page.getConflicts, hget] using hm.getConflicts
    · simpa [hget] using hm.inherited

/-- An action is taken if its name is free, and otherwise it leaves no trace. -/
theorem addAction (hm : m.Represents page owners taken conflicts) (c : Contribution) (h : Handler) :
    (m.addAction c h).Represents page owners (page.acceptStep taken (.action c h)) conflicts := by
  rw [Merge.addAction]
  by_cases hname : h.methodName ∈ page.methodNamesWith taken
  · rw [if_pos (by simpa [hm.names.mem_iff] using hname),
      Page.acceptStep_of_not_accepts fun ho => ho.methodName hname]
    exact hm
  · rw [if_neg (by simpa [hm.names.mem_iff] using hname),
      Page.acceptStep_of_accepts (Page.accepts_action_iff.mpr hname)]
    refine { hm with page := ?_, names := ?_, lookup := ?_, inherited := ?_ }
    · simp [hm.page, Page.withOffers, Handler.inheritedBy]
    · exact (hm.names.cons _).trans
        (page.methodNamesWith_append_singleton_perm taken (.action c h)).symm
    · intro e
      simp [hm.lookup, List.find?_append]
    · simp [hm.inherited]

/-- An event type that is new to the page is found under the contribution that has brought it. -/
theorem lookup_cons (hm : m.Represents page owners taken conflicts) {c : Contribution}
    {h : EventHandler} (hnew : h.eventType ∉ page.eventTypesWith taken) (e : String) :
    ((h.eventType, some c.claim) :: m.events).lookup e =
      if e ∈ page.eventTypes then some none
      else ((taken ++ [Offer.eventHandler c h]).find? fun o => o.eventType? == some e).map fun o =>
        some o.source.claim := by
  rw [List.lookup_cons, hm.lookup, List.find?_append]
  by_cases he : e = h.eventType
  · subst he
    have hown : h.eventType ∉ page.eventTypes := fun hmem => hnew (List.mem_append_left _ hmem)
    have hnone := Offer.find?_eventType_eq_none_iff.mpr fun hmem =>
      hnew (List.mem_append_right _ hmem)
    simp [hnone, hown]
  · simp [beq_false_of_ne he, Ne.symm he]

/-- An event handler is taken if its name and its event type are free. Whether it is a conflict is
asked of its event type alone. -/
theorem addEventHandler (hm : m.Represents page owners taken conflicts) (c : Contribution)
    (h : EventHandler) :
    (m.addEventHandler c h).Represents page owners (page.acceptStep taken (.eventHandler c h))
      (conflicts ++ (page.eventConflict? taken (.eventHandler c h)).toList) := by
  rw [Merge.addEventHandler, Page.eventConflict?, hm.lookup]
  by_cases hown : h.eventType ∈ page.eventTypes
  · -- the page itself reacts to the event type
    rw [if_pos hown, if_pos hown, Page.acceptStep_of_not_accepts fun ho =>
      ho.eventType _ rfl (List.mem_append_left _ hown)]
    simpa using hm
  rw [if_neg hown, if_neg hown]
  cases hfind : taken.find? fun o => o.eventType? == some h.eventType with
  | none =>
    have hnew : h.eventType ∉ page.eventTypesWith taken := fun hmem =>
      (List.mem_append.mp hmem).elim hown (Offer.find?_eventType_eq_none_iff.mp hfind)
    simp only [Option.map_none, Option.toList_none, List.append_nil]
    by_cases hname : h.methodName ∈ page.methodNamesWith taken
    · rw [if_pos (by simpa [hm.names.mem_iff] using hname),
        Page.acceptStep_of_not_accepts fun ho => ho.methodName hname]
      exact hm
    · rw [if_neg (by simpa [hm.names.mem_iff] using hname),
        Page.acceptStep_of_accepts (Page.accepts_eventHandler_iff.mpr ⟨hname, hnew⟩)]
      refine { hm with page := ?_, names := ?_, lookup := hm.lookup_cons hnew, inherited := ?_ }
      · simp [hm.page, Page.withOffers, EventHandler.inheritedBy]
      · exact (hm.names.cons _).trans
          (page.methodNamesWith_append_singleton_perm taken (.eventHandler c h)).symm
      · simp [hm.inherited]
  | some first =>
    -- the event type has been taken before, whatever the name
    have htype : h.eventType ∈ page.eventTypesWith taken := by
      refine List.mem_append_right _ (List.mem_filterMap.mpr ⟨first, ?_, ?_⟩)
      · exact List.mem_of_find?_eq_some hfind
      · simpa using List.find?_some hfind
    rw [Page.acceptStep_of_not_accepts fun ho => ho.eventType _ rfl htype]
    have hname : m.page.typeName = page.typeName := by rw [hm.page, Page.withOffers]
    refine { hm with getConflicts := ?_, eventConflicts := ?_ }
    · simp [hm.getConflicts]
    · simp [hm.eventConflicts, hname, Contribution.claim]

/-- One turn of a method. -/
theorem take {offers : List Offer}
    (hm : m.Represents page owners (page.taken offers) (page.eventConflicts offers)) (o : Offer) :
    (m.take o).Represents page owners (page.taken (offers ++ [o]))
      (page.eventConflicts (offers ++ [o])) := by
  rw [Page.taken_append_singleton, Page.eventConflicts_append_singleton]
  cases o with
  | action c h => simpa [Page.eventConflict?, Merge.take] using hm.addAction c h
  | eventHandler c h => exact hm.addEventHandler c h

/-- After several offers in turn, the tables are those of all offers together. -/
theorem foldl_take {offers : List Offer}
    (hm : m.Represents page owners (page.taken offers) (page.eventConflicts offers))
    (more : List Offer) :
    (more.foldl Merge.take m).Represents page owners (page.taken (offers ++ more))
      (page.eventConflicts (offers ++ more)) := by
  induction more generalizing offers m with
  | nil => simpa using hm
  | cons o more ih => simpa using ih (hm.take o)

/-- A contribution: its GET, and then its methods. -/
theorem add {offers : List Offer}
    (hm : m.Represents page owners (page.taken offers) (page.eventConflicts offers))
    (c : Contribution) :
    (m.add c).Represents page (owners ++ getOwners [c]) (page.taken (offers ++ c.offers))
      (page.eventConflicts (offers ++ c.offers)) := by
  rw [add_eq_foldl_take]
  refine foldl_take ?_ c.offers
  rw [Merge.addGet?]
  split
  · next h hget => simpa [getOwners, hget] using hm.addGet hget
  · next hnone => simpa [getOwners, hnone] using hm

/-- After several contributions, they are those of all that these offer. -/
private theorem foldl_add {offers : List Offer}
    (hm : m.Represents page owners (page.taken offers) (page.eventConflicts offers))
    (cs : List Contribution) :
    (cs.foldl Merge.add m).Represents page (owners ++ getOwners cs)
      (page.taken (offers ++ cs.flatMap Contribution.offers))
      (page.eventConflicts (offers ++ cs.flatMap Contribution.offers)) := by
  induction cs generalizing owners offers m with
  | nil => simpa [getOwners] using hm
  | cons c cs ih =>
    have hcs := ih (hm.add c)
    rwa [List.append_assoc, ← getOwners_append, List.append_assoc, ← List.flatMap_cons] at hcs

end Represents

end Merge

/-- A page with all contributions merged into it. -/
theorem Page.represents_merged (abstracts : List AbstractPage) (page : Page) :
    (page.merged abstracts).Represents page (getOwners (contributions abstracts page.embeds))
      (page.taken (page.offers abstracts)) (page.eventConflicts (page.offers abstracts)) := by
  have hstart : (Merge.start page).Represents page [] (page.taken []) (page.eventConflicts []) :=
    .start page
  exact hstart.foldl_add (contributions abstracts page.embeds)

/-! ### What a page extends -/

namespace Merge

/-- The page `start` is extended by handlers of the abstract pages `pages`, without any
ambiguity. -/
structure Extends (start : Page) (pages : List AbstractPage) (m : Merge) : Prop where
  typeName : m.page.typeName = start.typeName
  route : m.page.route = start.route
  embeds : m.page.embeds = start.embeds
  get : ∀ h ∈ m.page.get, h ∈ start.get ∨
    ∃ p ∈ pages, ∃ a ∈ p.get, h = { a.inheritedBy p.typeName with route := start.route }
  actions : ∀ h ∈ m.page.actions, h ∈ start.actions ∨
    ∃ p ∈ pages, ∃ a ∈ p.actions, h = a.inheritedBy p.typeName
  eventHandlers : ∀ h ∈ m.page.eventHandlers, h ∈ start.eventHandlers ∨
    ∃ p ∈ pages, ∃ a ∈ p.eventHandlers, h = a.inheritedBy p.typeName
  nodup_methodNames : start.methodNames.Nodup → m.page.methodNames.Nodup
  nodup_eventTypes : (start.eventHandlers.map EventHandler.eventType).Nodup →
    (m.page.eventHandlers.map EventHandler.eventType).Nodup

end Merge

/-- A page with all that it inherits is the page, extended by handlers of abstract pages. -/
theorem Page.extends_inherit (abstracts : List AbstractPage) (page : Page) :
    ∃ m : Merge, (page.inherit abstracts).1 = m.page ∧ m.Extends page abstracts := by
  have hm := page.represents_merged abstracts
  have hmem {c : Contribution} (hc : c ∈ contributions abstracts page.embeds) :
      c.page ∈ abstracts :=
    mem_of_findAbstract? (findAbstract?_of_mem_contributions hc)
  refine ⟨page.merged abstracts, rfl, ?_⟩
  refine
    { typeName := by rw [hm.page, Page.withOffers]
      route := by rw [hm.page, Page.withOffers]
      embeds := by rw [hm.page, Page.withOffers]
      get := fun h hh => ?_
      actions := fun h hh => ?_
      eventHandlers := fun h hh => ?_
      nodup_methodNames := fun hnodup => ?_
      nodup_eventTypes := fun hnodup => ?_ }
  · rw [hm.page] at hh
    refine (Page.mem_getFrom hh).imp_right ?_
    rintro ⟨c, hc, a, ha, rfl⟩
    exact ⟨c.page, hmem (List.mem_of_mem_filter hc), a, ha, rfl⟩
  · rw [hm.page] at hh
    refine (List.mem_append.mp hh).imp_right fun htaken => ?_
    obtain ⟨c, hc, a, ha, rfl⟩ := page.exists_of_mem_taken_actions htaken
    exact ⟨c.page, hmem hc, a, ha, rfl⟩
  · rw [hm.page] at hh
    refine (List.mem_append.mp hh).imp_right fun htaken => ?_
    obtain ⟨c, hc, a, ha, rfl⟩ := page.exists_of_mem_taken_eventHandlers htaken
    exact ⟨c.page, hmem hc, a, ha, rfl⟩
  · rw [hm.page, (page.methodNames_withOffers_perm _ _).nodup_iff]
    exact page.nodup_methodNamesWith_taken hnodup _
  · rw [← Page.eventTypes, hm.page, Page.eventTypes_withOffers]
    exact page.nodup_eventTypesWith_taken hnodup _

end GoPages

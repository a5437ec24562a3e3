import GoPages.Proofs.Inheritance.Merge

/-!
# Who comes first is served first

What `Page.represents_merged` says of the tables of a merge, said of the page and of the conflicts
that inheritance gives.

* `Page.get_inherit`: the GET of a page is its own or the first one that is offered, and every later
  one is a conflict.
* `Page.inherit_appends`: inherited methods come behind the page's own ones. They are told apart by
  their names, and event handlers by their event types as well.
* `Page.inherit_complete`: nothing that can be reached is lost without a trace.
* `Page.passesOver_of_inherits`: an inherited method has the first declaration of its name, but for
  event handlers that were passed over for their event type. `Page.not_forall_inherits` shows that
  these leave their name to others.
-/

namespace GoPages

namespace Page

/-- The actions that a page inherits. They stand behind its own ones. -/
def inheritedActions (abstracts : List AbstractPage) (page : Page) : List Handler :=
  (page.inherit abstracts).1.actions.drop page.actions.length

/-- The event handlers that a page inherits. They stand behind its own ones. -/
def inheritedEventHandlers (abstracts : List AbstractPage) (page : Page) : List EventHandler :=
  (page.inherit abstracts).1.eventHandlers.drop page.eventHandlers.length

/-- The method names of what a page inherits. -/
def inheritedNames (abstracts : List AbstractPage) (page : Page) : List String :=
  (page.inheritedActions abstracts).map Handler.methodName ++
    (page.inheritedEventHandlers abstracts).map EventHandler.methodName

variable (abstracts : List AbstractPage) (page : Page)

/-- A page inherits the first GET that is offered, and the offers that it takes. -/
theorem inherit_eq_withOffers : (page.inherit abstracts).1 =
    page.withOffers (getOwners (contributions abstracts page.embeds))
      (page.taken (page.offers abstracts)) :=
  (page.represents_merged abstracts).page

/-- The inherited actions are those among the offers that are taken. -/
private theorem inheritedActions_eq : page.inheritedActions abstracts =
    (page.taken (page.offers abstracts)).filterMap Offer.action? := by
  rw [inheritedActions, inherit_eq_withOffers, withOffers, List.drop_left]

private theorem inheritedEventHandlers_eq : page.inheritedEventHandlers abstracts =
    (page.taken (page.offers abstracts)).filterMap Offer.eventHandler? := by
  rw [inheritedEventHandlers, inherit_eq_withOffers, withOffers, List.drop_left]

/-- The names of inherited methods are those of the offers that are taken. -/
private theorem inheritedNames_perm : (page.inheritedNames abstracts).Perm
    ((page.taken (page.offers abstracts)).map Offer.methodName) := by
  rw [inheritedNames, inheritedActions_eq, inheritedEventHandlers_eq]
  exact Offer.methodNames_perm _

private theorem map_eventType_inheritedEventHandlers :
    (page.inheritedEventHandlers abstracts).map EventHandler.eventType =
      (page.taken (page.offers abstracts)).filterMap Offer.eventType? := by
  rw [inheritedEventHandlers_eq, Offer.map_eventType_filterMap]

/-! ### GET -/

/-- What is offered as a GET can be reached. -/
theorem mem_getOwners_iff {p : AbstractPage} :
    p ∈ (getOwners (contributions abstracts page.embeds)).map Contribution.page ↔
      Reachable abstracts page.embeds p ∧ p.get.isSome := by
  rw [← mem_map_page_contributions_iff, getOwners, List.mem_map, List.mem_map]
  constructor
  · rintro ⟨c, hc, rfl⟩
    obtain ⟨hc, hget⟩ := List.mem_filter.mp hc
    exact ⟨⟨c, hc, rfl⟩, hget⟩
  · rintro ⟨⟨c, hc, rfl⟩, hget⟩
    exact ⟨c, List.mem_filter.mpr ⟨hc, hget⟩, rfl⟩

/-- **The first GET wins.** The abstract pages that can be reached and have a GET offer it in
breadth-first order. A page with a GET of its own keeps it, and there is no conflict. Any other page
takes the first one, under its own route, and is in conflict with all later ones. -/
theorem get_inherit :
    (∀ p, p ∈ (getOwners (contributions abstracts page.embeds)).map Contribution.page ↔
      Reachable abstracts page.embeds p ∧ p.get.isSome) ∧
    ((page.inherit abstracts).1.get,
        (page.inherit abstracts).2.filter fun f => f.2.isGetConflict) =
      match page.get, getOwners (contributions abstracts page.embeds) with
      | some h, _ => (some h, [])
      | none, [] => (none, [])
      | none, first :: others =>
        (first.page.get.map fun h =>
            { h with inheritedFrom := some first.page.typeName, route := page.route },
          others.map fun c =>
            (c.site, .conflictingGetEmbed page.typeName c.page.typeName first.page.typeName
              first.site)) := by
  refine ⟨fun p => page.mem_getOwners_iff abstracts, ?_⟩
  -- the effect of the merge on the GET and its conflicts is known from the contributions that have
  -- one
  have hget : (page.inherit abstracts).1.get =
      page.getFrom (getOwners (contributions abstracts page.embeds)) := by
    rw [inherit_eq_withOffers, withOffers]
  have hconflicts : ((page.inherit abstracts).2.filter fun f => f.2.isGetConflict) =
      page.getConflicts (getOwners (contributions abstracts page.embeds)) :=
    (page.represents_merged abstracts).getConflicts
  rw [hget, hconflicts]
  cases hown : page.get with
  | some own => simp [getFrom, getConflicts, hown]
  | none =>
    cases getOwners (contributions abstracts page.embeds) with
    | nil => simp [getFrom, getConflicts, hown]
    | cons first others =>
      simp [getFrom, getConflicts, hown, Handler.inheritedBy, getConflict]

/-! ### Methods -/

/-- A page has a GET in the end if it has one of its own, or is offered one. -/
theorem isSome_getFrom (cs : List Contribution) :
    (page.getFrom (getOwners cs)).isSome = (page.get.isSome || !(getOwners cs).isEmpty) := by
  rw [getFrom, Option.isSome_or]
  cases hcs : getOwners cs with
  | nil => rfl
  | cons first others =>
    have hfirst : first ∈ getOwners cs := by simp [hcs]
    simp [(List.mem_filter.mp hfirst).2]

/-- What is counted on the way is what the page has got in the end. -/
theorem inherited_eq_between :
    page.inherited abstracts = Inherited.between page (page.inherit abstracts).1 := by
  rw [inherited, (page.represents_merged abstracts).inherited, inherit_eq_withOffers,
    Inherited.between, withOffers, isSome_getFrom, List.length_append, List.length_append,
    Nat.add_sub_cancel_left, Nat.add_sub_cancel_left]
  cases page.get <;> rfl

/-- **Inherited methods stand behind the page's own ones.** Nothing else of the page changes but its
GET. Each inherited method is declared by an abstract page that can be reached, under whose mark it
stands. All method names that are inherited are different, and none is that of an own method; so it
is with event types. What is counted on the way is what has been inherited. -/
theorem inherit_appends :
    (page.inherit abstracts).1 = { page with
      get := (page.inherit abstracts).1.get
      actions := page.actions ++ page.inheritedActions abstracts
      eventHandlers := page.eventHandlers ++ page.inheritedEventHandlers abstracts } ∧
    (∀ h ∈ page.inheritedActions abstracts, ∃ p, Reachable abstracts page.embeds p ∧
      ∃ a ∈ p.actions, h = { a with inheritedFrom := some p.typeName }) ∧
    (∀ h ∈ page.inheritedEventHandlers abstracts, ∃ p, Reachable abstracts page.embeds p ∧
      ∃ a ∈ p.eventHandlers, h = { a with inheritedFrom := some p.typeName }) ∧
    (page.inheritedNames abstracts).Nodup ∧
    page.methodNames.Disjoint (page.inheritedNames abstracts) ∧
    ((page.inheritedEventHandlers abstracts).map EventHandler.eventType).Nodup ∧
    page.eventTypes.Disjoint
      ((page.inheritedEventHandlers abstracts).map EventHandler.eventType) ∧
    page.inherited abstracts =
      { get := page.get.isNone && (page.inherit abstracts).1.get.isSome
        actions := (page.inheritedActions abstracts).length
        eventHandlers := (page.inheritedEventHandlers abstracts).length } := by
  have hreachable {c : Contribution} (hc : c ∈ contributions abstracts page.embeds) :
      Reachable abstracts page.embeds c.page :=
    (mem_map_page_contributions_iff _ _).mp (List.mem_map_of_mem hc)
  refine ⟨?_, fun h hh => ?_, fun h hh => ?_, ?_, ?_, ?_, ?_, ?_⟩
  · rw [inheritedActions_eq, inheritedEventHandlers_eq, inherit_eq_withOffers]
    rfl
  · rw [inheritedActions_eq] at hh
    obtain ⟨c, hc, a, ha, rfl⟩ := page.exists_of_mem_taken_actions hh
    exact ⟨c.page, hreachable hc, a, ha, rfl⟩
  · rw [inheritedEventHandlers_eq] at hh
    obtain ⟨c, hc, a, ha, rfl⟩ := page.exists_of_mem_taken_eventHandlers hh
    exact ⟨c.page, hreachable hc, a, ha, rfl⟩
  · rw [(page.inheritedNames_perm abstracts).nodup_iff]
    exact page.nodup_methodName_taken _
  · exact List.disjoint_of_subset_right (page.inheritedNames_perm abstracts).subset
      (page.disjoint_methodName_taken _)
  · rw [map_eventType_inheritedEventHandlers]
    exact page.nodup_eventType_taken _
  · rw [map_eventType_inheritedEventHandlers]
    exact page.disjoint_eventType_taken _
  · rw [inherited_eq_between, Inherited.between, inheritedActions, inheritedEventHandlers,
      List.length_drop, List.length_drop]

/-! ### Completeness -/

/-- An event handler is offered exactly if an abstract page that can be reached declares it. -/
theorem eventHandler_mem_offers_iff {p : AbstractPage} {h : EventHandler} :
    (∃ c, c.page = p ∧ .eventHandler c h ∈ page.offers abstracts) ↔
      Reachable abstracts page.embeds p ∧ h ∈ p.eventHandlers := by
  rw [← mem_map_page_contributions_iff, List.mem_map]
  constructor
  · rintro ⟨c, rfl, hoffer⟩
    obtain ⟨hc, hh⟩ := eventHandler_mem_flatMap_offers_iff.mp hoffer
    exact ⟨⟨c, hc, rfl⟩, hh⟩
  · rintro ⟨⟨c, hc, rfl⟩, hh⟩
    exact ⟨c, rfl, eventHandler_mem_flatMap_offers_iff.mpr ⟨hc, hh⟩⟩

/-- The method names of a page in the end are its own ones and those that it takes. -/
theorem methodNames_inherit_perm : (page.inherit abstracts).1.methodNames.Perm
    (page.methodNamesWith (page.taken (page.offers abstracts))) := by
  rw [inherit_eq_withOffers]
  exact page.methodNames_withOffers_perm _ _

/-- So it is with its event types, in this order. -/
theorem eventTypes_inherit : (page.inherit abstracts).1.eventTypes =
    page.eventTypesWith (page.taken (page.offers abstracts)) := by
  rw [inherit_eq_withOffers, eventTypes_withOffers]

/-- What the loop over the offers has given the page after some turns. -/
theorem eventHandlers_foldl_take (offers : List Offer) :
    (offers.foldl Merge.take (Merge.start page)).page.eventHandlers =
      page.eventHandlers ++ (page.taken offers).filterMap Offer.eventHandler? := by
  have hstart : (Merge.start page).Represents page [] (page.taken []) (page.eventConflicts []) :=
    .start page
  rw [(hstart.foldl_take offers).page]
  rfl

/-- **Nothing is lost without a trace.** Let an abstract page be within reach. The name of each of
its actions is in use on the page in the end, and so is, for each of its event handlers, the event
type or the name. Event handlers take their turns in the order of offers, and those that have been
taken before a turn are what the page has got by then. The conflicts of event handlers are the
following and no others, each once: it is the turn of an event handler, the page does not react to
its event type by itself, and an event handler that has been taken before does. The conflict is
placed where the abstract page of the new one is embedded, and it names the abstract page of the
other one and the place of its embedding. -/
theorem inherit_complete :
    (∀ p, Reachable abstracts page.embeds p →
      (∀ a ∈ p.actions, a.methodName ∈ (page.inherit abstracts).1.methodNames) ∧
      ∀ h ∈ p.eventHandlers, h.eventType ∈ (page.inherit abstracts).1.eventTypes ∨
        h.methodName ∈ (page.inherit abstracts).1.methodNames) ∧
    (∀ p h, (∃ c, c.page = p ∧ .eventHandler c h ∈ page.offers abstracts) ↔
      Reachable abstracts page.embeds p ∧ h ∈ p.eventHandlers) ∧
    (∀ i, (((page.offers abstracts).take i).foldl Merge.take
        (Merge.start page)).page.eventHandlers =
      page.eventHandlers ++
        (page.taken ((page.offers abstracts).take i)).filterMap Offer.eventHandler?) ∧
    ((page.inherit abstracts).2.filter fun f => f.2.isEventConflict) =
      page.eventConflicts (page.offers abstracts) := by
  refine ⟨fun p hp => ⟨fun a ha => ?_, fun h hh => ?_⟩,
    fun p h => page.eventHandler_mem_offers_iff abstracts,
    fun i => page.eventHandlers_foldl_take _, (page.represents_merged abstracts).eventConflicts⟩
  · obtain ⟨c, hc, rfl⟩ := List.mem_map.mp ((mem_map_page_contributions_iff _ _).mpr hp)
    rw [(page.methodNames_inherit_perm abstracts).mem_iff]
    have hoffer : .action c a ∈ page.offers abstracts :=
      action_mem_flatMap_offers_iff.mpr ⟨hc, ha⟩
    -- only an event handler can be passed over because of an event type
    rcases page.methodName_mem_or_eventType_mem hoffer with hname | ⟨e, he, -⟩
    · exact hname
    · cases he
  · obtain ⟨c, rfl, hoffer⟩ := (page.eventHandler_mem_offers_iff abstracts).mpr ⟨hp, hh⟩
    rw [(page.methodNames_inherit_perm abstracts).mem_iff, eventTypes_inherit]
    rcases page.methodName_mem_or_eventType_mem hoffer with hname | ⟨e, he, htype⟩
    · exact .inr hname
    · cases he
      exact .inl htype

/-! ### Names -/

/-- The page has got a method of this name from an abstract page. -/
def Inherits (owner name : String) : Prop :=
  (∃ h ∈ page.inheritedActions abstracts, h.inheritedFrom = some owner ∧ h.methodName = name) ∨
    ∃ h ∈ page.inheritedEventHandlers abstracts, h.inheritedFrom = some owner ∧ h.methodName = name

/-- An event handler is passed over for its event type: the page reacts to it by itself, or by a
method of another name that it has got from one of these contributions. -/
def PassesOver (cs : List Contribution) (h : EventHandler) : Prop :=
  h.eventType ∈ page.eventTypes ∨
    ∃ f ∈ page.inheritedEventHandlers abstracts, f.eventType = h.eventType ∧
      f.methodName ≠ h.methodName ∧ ∃ b ∈ cs, f.inheritedFrom = some b.page.typeName

variable {abstracts page}

/-- What is inherited has been offered and taken. -/
private theorem Inherits.exists_offer {owner name : String}
    (h : page.Inherits abstracts owner name) : ∃ o ∈ page.taken (page.offers abstracts),
      o.source.page.typeName = owner ∧ o.methodName = name := by
  rcases h with ⟨h, hh, howner, hname⟩ | ⟨h, hh, howner, hname⟩
  · rw [inheritedActions_eq] at hh
    obtain ⟨c, a, ho, rfl⟩ := Offer.mem_filterMap_action?_iff.mp hh
    exact ⟨_, ho, Option.some.inj howner, hname⟩
  · rw [inheritedEventHandlers_eq] at hh
    obtain ⟨c, a, ho, rfl⟩ := Offer.mem_filterMap_eventHandler?_iff.mp hh
    exact ⟨_, ho, Option.some.inj howner, hname⟩

private theorem inheritedBy_mem_inheritedEventHandlers {c : Contribution} {h : EventHandler}
    (ho : .eventHandler c h ∈ page.taken (page.offers abstracts)) :
    h.inheritedBy c.page.typeName ∈ page.inheritedEventHandlers abstracts := by
  rw [inheritedEventHandlers_eq]
  exact Offer.mem_filterMap_eventHandler?_iff.mpr ⟨c, h, ho, rfl⟩

section Earlier

variable {before after : List Contribution} {c : Contribution}
  (hcs : contributions abstracts page.embeds = before ++ c :: after)
include hcs

private theorem offers_eq_append : page.offers abstracts =
    before.flatMap Contribution.offers ++ (c :: after).flatMap Contribution.offers := by
  rw [offers, hcs, List.flatMap_append]

/-- What is inherited from a contribution was acceptable after all earlier ones. -/
theorem Inherits.exists_accepts {name : String}
    (h : page.Inherits abstracts c.page.typeName name) : ∃ o : Offer, o.methodName = name ∧
      page.Accepts (page.taken (before.flatMap Contribution.offers)) o := by
  obtain ⟨o, ho, howner, hname⟩ := h.exists_offer
  rw [offers_eq_append hcs] at ho
  rcases page.accepts_of_mem_taken_append ho with hearly | ⟨-, haccepts⟩
  · -- no other contribution has the same name
    have hsource := Offer.source_mem_of_mem ((page.taken_sublist _).subset hearly)
    have hnodup := nodup_typeName_contributions abstracts page.embeds
    rw [hcs, List.map_append, List.map_cons, List.nodup_append'] at hnodup
    exact absurd List.mem_cons_self (hnodup.2.2 (List.mem_map.mpr ⟨_, hsource, howner⟩))
  · exact ⟨o, hname, haccepts⟩

/-- **Names go by the order of declarations, but for event types that are taken.** If a page has
got a method from an abstract page, then no abstract page before that one declares an action of its
name, and each event handler of its name that one of them declares was passed over for its event
type. -/
theorem passesOver_of_inherits {name : String}
    (h : page.Inherits abstracts c.page.typeName name) :
    ∀ d ∈ before, (∀ a ∈ d.page.actions, a.methodName ≠ name) ∧
      ∀ e ∈ d.page.eventHandlers, e.methodName = name → page.PassesOver abstracts before e := by
  obtain ⟨o, rfl, haccepts⟩ := h.exists_accepts hcs
  have hkept := offers_eq_append hcs ▸ page.taken_prefix_append
    (before.flatMap Contribution.offers) ((c :: after).flatMap Contribution.offers)
  refine fun d hd => ⟨fun a ha hname => ?_, fun e he hname => ?_⟩
  · have hoffer := action_mem_flatMap_offers_iff.mpr ⟨hd, ha⟩
    rcases page.methodName_mem_or_eventType_mem hoffer with hused | ⟨t, ht, -⟩
    · exact haccepts.methodName (hname ▸ hused)
    · cases ht
  · have hoffer := eventHandler_mem_flatMap_offers_iff.mpr ⟨hd, he⟩
    rcases page.methodName_mem_or_eventType_mem hoffer with hused | ⟨t, ht, hused⟩
    · exact absurd (hname ▸ hused) haccepts.methodName
    · -- the name is free, so the event type was taken
      cases ht
      refine (List.mem_append.mp hused).imp_right fun hmem => ?_
      obtain ⟨p, hp, htype⟩ := List.mem_filterMap.mp hmem
      cases p with
      | action b f => cases htype
      | eventHandler b f =>
        have hb := Offer.source_mem_of_mem ((page.taken_sublist _).subset hp)
        refine ⟨_, inheritedBy_mem_inheritedEventHandlers (hkept.subset hp),
          Option.some.inj htype, fun hsame => ?_, b, hb, rfl⟩
        -- under the same name it would have been in the way of what is inherited
        have hfree : o.methodName ≠ f.methodName := fun heq =>
          haccepts.methodName (List.mem_append_right _ (List.mem_map.mpr ⟨_, hp, heq.symm⟩))
        exact hfree (hname.symm.trans hsame.symm)

end Earlier

/-- An abstract page that reacts to a change by one event. -/
def changedBase : AbstractPage :=
  { (default : AbstractPage) with
    typeName := "Base"
    eventHandlers :=
      [{ (default : EventHandler) with methodName := "OnChange", eventType := "EventDeleted" }] }

/-- An event handler of the same name for another event. -/
def changedHandler : EventHandler :=
  { (default : EventHandler) with methodName := "OnChange", eventType := "EventSaved" }

/-- An abstract page that has this event handler, and embeds the other one. -/
def changedMiddle : AbstractPage :=
  { (default : AbstractPage) with
    typeName := "Middle"
    embeds := [⟨"Base", ⟨"app.go", 12, 31⟩⟩]
    eventHandlers := [changedHandler] }

/-- A page that embeds the latter, and reacts to its event under another name. -/
def changedPage : Page :=
  { (default : Page) with
    typeName := "PageIndex"
    route := "/"
    embeds := [⟨"Middle", ⟨"app.go", 15, 34⟩⟩]
    eventHandlers :=
      [{ (default : EventHandler) with methodName := "OnSaved", eventType := "EventSaved" }] }

/-- The middle page contributes before the page that it embeds. -/
private theorem contributions_changedPage :
    contributions [changedMiddle, changedBase] changedPage.embeds =
      [⟨changedMiddle, ⟨"app.go", 15, 34⟩⟩] ++ ⟨changedBase, ⟨"app.go", 12, 31⟩⟩ :: [] := by
  have hmiddle : findAbstract? "Middle" [changedMiddle, changedBase] = some changedMiddle := rfl
  have hbase : findAbstract? "Base" (withoutAbstract "Middle" [changedMiddle, changedBase]) =
      some changedBase := rfl
  have hlast : changedBase.embeds = [] := rfl
  rw [changedPage, contributions_cons_of_eq_some [] hmiddle, List.nil_append, changedMiddle,
    contributions_cons_of_eq_some [] hbase, hlast, List.append_nil, contributions]
  rfl

/-- The page gets `OnChange` from `Base`, although `Middle` declares it, which comes first. -/
theorem inherits_changedPage :
    changedPage.Inherits [changedMiddle, changedBase] "Base" "OnChange" := by
  have hany : ((changedPage.inheritedEventHandlers [changedMiddle, changedBase]).any fun h =>
      h.inheritedFrom == some "Base" && h.methodName == "OnChange") = true := by
    rw [inheritedEventHandlers_eq, offers, contributions_changedPage]
    decide
  simp only [List.any_eq_true, Bool.and_eq_true, beq_iff_eq] at hany
  exact .inr hany

/-- `Middle` is passed over for its event type. -/
theorem passesOver_changedHandler :
    changedPage.Inherits [changedMiddle, changedBase] "Base" "OnChange" ∧
      changedPage.PassesOver [changedMiddle, changedBase] [⟨changedMiddle, ⟨"app.go", 15, 34⟩⟩]
        changedHandler :=
  ⟨inherits_changedPage, (passesOver_of_inherits contributions_changedPage inherits_changedPage _
    List.mem_cons_self).2 _ List.mem_cons_self rfl⟩

/-- An event handler that is passed over leaves its name to later ones. -/
theorem not_forall_inherits :
    ¬ ∀ (abstracts : List AbstractPage) (page : Page) (before after : List Contribution)
      (c : Contribution) (name : String),
      contributions abstracts page.embeds = before ++ c :: after →
      page.Inherits abstracts c.page.typeName name →
      ∀ d ∈ before, (∀ a ∈ d.page.actions, a.methodName ≠ name) ∧
        ∀ e ∈ d.page.eventHandlers, e.methodName ≠ name := by
  intro hall
  obtain ⟨-, hnone⟩ := hall _ _ _ _ _ _ contributions_changedPage inherits_changedPage _
    List.mem_cons_self
  exact hnone _ List.mem_cons_self rfl

end Page

end GoPages

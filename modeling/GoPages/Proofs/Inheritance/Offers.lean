import GoPages.Proofs.Inheritance.Breadth
import GoPages.Proofs.Turns
import Mathlib.Data.List.Nodup

/-!
# What abstract pages offer to a page

Contributions offer a page what their abstract pages declare. Who comes first is served first, and a
page has served itself before all others.

* Of the GETs a page without one of its own takes the first one (`Page.getFrom`), and every later
  one is a conflict with it (`Page.getConflicts`).
* Actions and event handlers are an `Offer` each. A page takes an offer if no method that it has
  by then has the name, and if none reacts to the event type (`Page.Accepts`). `Page.taken` are the
  offers that it takes out of a list, and `Page.eventConflicts` are the conflicts on the way.

What is taken has names and event types of its own (`Page.nodup_methodName_taken`,
`Page.nodup_eventType_taken`), and what is not taken has come too late for its name or for its event
type (`Page.mem_taken_or`).
-/

namespace GoPages

/-! ### Methods of a page -/

namespace Page

/-- The method names of actions and event handlers. -/
def methodNames (p : Page) : List String :=
  p.actions.map Handler.methodName ++ p.eventHandlers.map EventHandler.methodName

/-- The event types that have a handler. -/
def eventTypes (p : Page) : List String := p.eventHandlers.map EventHandler.eventType

end Page

/-- The handler of an abstract page as a page inherits it. -/
def Handler.inheritedBy (owner : String) (h : Handler) : Handler :=
  { h with inheritedFrom := some owner }

@[simp] theorem Handler.route_inheritedBy (owner : String) (h : Handler) :
    (h.inheritedBy owner).route = h.route := rfl

/-- The event handler of an abstract page as a page inherits it. -/
def EventHandler.inheritedBy (owner : String) (h : EventHandler) : EventHandler :=
  { h with inheritedFrom := some owner }

/-! ### GET -/

/-- Is this about two GETs? -/
def AnalysisError.isGetConflict : AnalysisError → Bool
  | conflictingGetEmbed .. => true
  | _ => false

@[simp] theorem AnalysisError.isGetConflict_conflictingGetEmbed (page owner previousOwner : String)
    (previous : Location) :
    (conflictingGetEmbed page owner previousOwner previous).isGetConflict = true := rfl

@[simp] theorem AnalysisError.isGetConflict_conflictingEventHandlerEmbed
    (page event owner previousOwner : String) (previous : Location) :
    (conflictingEventHandlerEmbed page event owner previousOwner previous).isGetConflict = false :=
  rfl

/-- The contributions that have a GET. -/
def getOwners (cs : List Contribution) : List Contribution :=
  cs.filter fun c => c.page.get.isSome

/-- The contributions with a GET stand in the order of all contributions. -/
theorem getOwners_append (cs ds : List Contribution) :
    getOwners (cs ++ ds) = getOwners cs ++ getOwners ds := List.filter_append cs ds

namespace Page

/-- The GET of a page to which these contributions offer theirs. It answers under the route of the
page. -/
def getFrom (page : Page) (owners : List Contribution) : Option Handler :=
  page.get.or (owners.head?.bind fun c =>
    c.page.get.map fun h => { h.inheritedBy c.page.typeName with route := page.route })

/-- The GET of a page is its own or that of a contribution. -/
theorem mem_getFrom {page : Page} {owners : List Contribution} {h : Handler}
    (hh : h ∈ page.getFrom owners) : h ∈ page.get ∨ ∃ c ∈ owners, ∃ a ∈ c.page.get,
      h = { a.inheritedBy c.page.typeName with route := page.route } := by
  rw [getFrom, Option.mem_def, Option.or_eq_some_iff] at hh
  rcases hh with hown | ⟨-, hh⟩
  · exact .inl hown
  · obtain ⟨c, hc, hh⟩ := Option.bind_eq_some_iff.mp hh
    obtain ⟨a, ha, rfl⟩ := Option.map_eq_some_iff.mp hh
    exact .inr ⟨c, List.mem_of_mem_head? hc, a, ha, rfl⟩

/-- The finding that two contributions offer a GET. -/
def getConflict (page : Page) (first c : Contribution) : Location × AnalysisError :=
  (c.site, .conflictingGetEmbed page.typeName c.page.typeName first.page.typeName first.site)

/-- A page without a GET of its own is in conflict with all contributions after the first one. -/
def getConflicts (page : Page) (owners : List Contribution) : List (Location × AnalysisError) :=
  match page.get, owners with
  | none, first :: others => others.map (page.getConflict first)
  | _, _ => []

end Page

/-! ### Offers -/

/-- An action or an event handler of a contribution. -/
inductive Offer where
  | action (c : Contribution) (h : Handler)
  | eventHandler (c : Contribution) (h : EventHandler)

namespace Offer

/-- The contribution that the method comes from. -/
def source : Offer → Contribution
  | action c _ => c
  | eventHandler c _ => c

/-- The name of the method. -/
def methodName : Offer → String
  | action _ h => h.methodName
  | eventHandler _ h => h.methodName

/-- The event type that the method reacts to. -/
def eventType? : Offer → Option String
  | action _ _ => none
  | eventHandler _ h => some h.eventType

/-- The method as a page inherits it, if it is an action. -/
def action? : Offer → Option Handler
  | action c h => some (h.inheritedBy c.page.typeName)
  | eventHandler _ _ => none

/-- The method as a page inherits it, if it is an event handler. -/
def eventHandler? : Offer → Option EventHandler
  | action _ _ => none
  | eventHandler c h => some (h.inheritedBy c.page.typeName)

section Cases

variable (c : Contribution) (a : Handler) (h : EventHandler)

@[simp] theorem source_action : (action c a).source = c := rfl

@[simp] theorem source_eventHandler : (eventHandler c h).source = c := rfl

@[simp] theorem methodName_action : (action c a).methodName = a.methodName := rfl

@[simp] theorem methodName_eventHandler : (eventHandler c h).methodName = h.methodName := rfl

@[simp] theorem eventType?_action : (action c a).eventType? = none := rfl

@[simp] theorem eventType?_eventHandler : (eventHandler c h).eventType? = some h.eventType := rfl

@[simp] theorem action?_action : (action c a).action? = some (a.inheritedBy c.page.typeName) := rfl

@[simp] theorem action?_eventHandler : (eventHandler c h).action? = none := rfl

@[simp] theorem eventHandler?_action : (action c a).eventHandler? = none := rfl

@[simp] theorem eventHandler?_eventHandler :
    (eventHandler c h).eventHandler? = some (h.inheritedBy c.page.typeName) := rfl

end Cases

/-- The actions among offers are marked with the abstract pages that they come from. -/
theorem mem_filterMap_action?_iff {offers : List Offer} {h : Handler} :
    h ∈ offers.filterMap action? ↔
      ∃ c a, action c a ∈ offers ∧ a.inheritedBy c.page.typeName = h := by
  rw [List.mem_filterMap]
  constructor
  · rintro ⟨o, ho, hoh⟩
    cases o with
    | action c a => exact ⟨c, a, ho, Option.some.inj hoh⟩
    | eventHandler c a => cases hoh
  · rintro ⟨c, a, ho, rfl⟩
    exact ⟨_, ho, rfl⟩

/-- So are the event handlers. -/
theorem mem_filterMap_eventHandler?_iff {offers : List Offer} {h : EventHandler} :
    h ∈ offers.filterMap eventHandler? ↔
      ∃ c a, eventHandler c a ∈ offers ∧ a.inheritedBy c.page.typeName = h := by
  rw [List.mem_filterMap]
  constructor
  · rintro ⟨o, ho, hoh⟩
    cases o with
    | action c a => cases hoh
    | eventHandler c a => exact ⟨c, a, ho, Option.some.inj hoh⟩
  · rintro ⟨c, a, ho, rfl⟩
    exact ⟨_, ho, rfl⟩

/-- The offers that react to an event type can be found. -/
theorem find?_eventType_eq_none_iff {offers : List Offer} {e : String} :
    (offers.find? fun o => o.eventType? == some e) = none ↔
      e ∉ offers.filterMap eventType? := by
  simp [List.find?_eq_none, List.mem_filterMap]

end Offer

/-- The actions of a contribution, and then its event handlers. -/
def Contribution.offers (c : Contribution) : List Offer :=
  c.page.actions.map (.action c) ++ c.page.eventHandlers.map (.eventHandler c)

/-- All that abstract pages offer to a page, in breadth-first order. -/
def Page.offers (abstracts : List AbstractPage) (page : Page) : List Offer :=
  (contributions abstracts page.embeds).flatMap Contribution.offers

/-- A contribution offers the actions of its page. -/
theorem action_mem_flatMap_offers_iff {cs : List Contribution} {c : Contribution} {h : Handler} :
    .action c h ∈ cs.flatMap Contribution.offers ↔ c ∈ cs ∧ h ∈ c.page.actions := by
  simp [List.mem_flatMap, Contribution.offers]

/-- It offers the event handlers of its page, too. -/
theorem eventHandler_mem_flatMap_offers_iff {cs : List Contribution} {c : Contribution}
    {h : EventHandler} :
    .eventHandler c h ∈ cs.flatMap Contribution.offers ↔ c ∈ cs ∧ h ∈ c.page.eventHandlers := by
  simp [List.mem_flatMap, Contribution.offers]

/-- An offer comes from one of the contributions. -/
theorem Offer.source_mem_of_mem {cs : List Contribution} {o : Offer}
    (h : o ∈ cs.flatMap Contribution.offers) : o.source ∈ cs := by
  cases o with
  | action c a => exact (action_mem_flatMap_offers_iff.mp h).1
  | eventHandler c a => exact (eventHandler_mem_flatMap_offers_iff.mp h).1

/-- A method is an action or an event handler. -/
theorem Offer.methodNames_perm (offers : List Offer) :
    ((offers.filterMap action?).map Handler.methodName ++
      (offers.filterMap eventHandler?).map EventHandler.methodName).Perm
      (offers.map methodName) := by
  induction offers with
  | nil => exact .refl _
  | cons o offers ih =>
    cases o with
    | action c h => exact ih.cons _
    | eventHandler c h => exact List.perm_middle.trans (ih.cons _)

/-- The event types of the event handlers are those of their offers. -/
theorem Offer.map_eventType_filterMap (offers : List Offer) :
    (offers.filterMap eventHandler?).map EventHandler.eventType = offers.filterMap eventType? := by
  rw [List.map_filterMap]
  refine List.filterMap_congr fun o _ => ?_
  cases o <;> rfl

/-! ### What a page takes -/

/-- Is this about two event handlers? -/
def AnalysisError.isEventConflict : AnalysisError → Bool
  | conflictingEventHandlerEmbed .. => true
  | _ => false

@[simp] theorem AnalysisError.isEventConflict_conflictingGetEmbed
    (page owner previousOwner : String) (previous : Location) :
    (conflictingGetEmbed page owner previousOwner previous).isEventConflict = false := rfl

@[simp] theorem AnalysisError.isEventConflict_conflictingEventHandlerEmbed
    (page event owner previousOwner : String) (previous : Location) :
    (conflictingEventHandlerEmbed page event owner previousOwner previous).isEventConflict = true :=
  rfl

namespace Page

/-- The method names of a page that has taken these offers. -/
def methodNamesWith (page : Page) (taken : List Offer) : List String :=
  page.methodNames ++ taken.map Offer.methodName

/-- The event types that have a handler on a page that has taken these offers. -/
def eventTypesWith (page : Page) (taken : List Offer) : List String :=
  page.eventTypes ++ taken.filterMap Offer.eventType?

/-- Neither the name of the method nor its event type is in use on a page that has taken these
offers. -/
structure Accepts (page : Page) (taken : List Offer) (o : Offer) : Prop where
  methodName : o.methodName ∉ page.methodNamesWith taken
  eventType : ∀ e ∈ o.eventType?, e ∉ page.eventTypesWith taken

instance (page : Page) (taken : List Offer) (o : Offer) : Decidable (page.Accepts taken o) :=
  decidable_of_iff (o.methodName ∉ page.methodNamesWith taken ∧
      ∀ e ∈ o.eventType?.toList, e ∉ page.eventTypesWith taken)
    ⟨fun h => ⟨h.1, by simpa using h.2⟩, fun h => ⟨h.1, by simpa using h.2⟩⟩

/-- An offer that is taken adds its method name. -/
theorem methodNamesWith_append_singleton_perm (page : Page) (taken : List Offer) (o : Offer) :
    (page.methodNamesWith (taken ++ [o])).Perm (o.methodName :: page.methodNamesWith taken) := by
  rw [methodNamesWith, List.map_append, ← List.append_assoc]
  exact List.perm_append_singleton _ _

/-- An action is acceptable if its name is free. -/
theorem accepts_action_iff {page : Page} {taken : List Offer} {c : Contribution} {h : Handler} :
    page.Accepts taken (.action c h) ↔ h.methodName ∉ page.methodNamesWith taken :=
  ⟨Accepts.methodName, fun hname => ⟨hname, fun _ he => by cases he⟩⟩

/-- An event handler is acceptable if its name and its event type are free. -/
theorem accepts_eventHandler_iff {page : Page} {taken : List Offer} {c : Contribution}
    {h : EventHandler} : page.Accepts taken (.eventHandler c h) ↔
      h.methodName ∉ page.methodNamesWith taken ∧ h.eventType ∉ page.eventTypesWith taken :=
  ⟨fun ho => ⟨ho.methodName, ho.eventType _ rfl⟩,
    fun ho => ⟨ho.1, fun _ he => Option.mem_some.mp he ▸ ho.2⟩⟩

/-- One more offer. -/
def acceptStep (page : Page) (taken : List Offer) (o : Offer) : List Offer :=
  if page.Accepts taken o then taken ++ [o] else taken

/-- What is acceptable is taken. -/
theorem acceptStep_of_accepts {page : Page} {taken : List Offer} {o : Offer}
    (h : page.Accepts taken o) : page.acceptStep taken o = taken ++ [o] := if_pos h

/-- What is not acceptable leaves the page as it is. -/
theorem acceptStep_of_not_accepts {page : Page} {taken : List Offer} {o : Offer}
    (h : ¬ page.Accepts taken o) : page.acceptStep taken o = taken := if_neg h

/-- The offers that a page takes. -/
def taken (page : Page) (offers : List Offer) : List Offer := offers.foldl page.acceptStep []

/-- The page with the GET of these contributions and the methods that it has taken. -/
def withOffers (page : Page) (owners : List Contribution) (taken : List Offer) : Page :=
  { page with
    get := page.getFrom owners
    actions := page.actions ++ taken.filterMap Offer.action?
    eventHandlers := page.eventHandlers ++ taken.filterMap Offer.eventHandler? }

/-- The method names of a page with offers are its own ones and those of the offers. -/
theorem methodNames_withOffers_perm (page : Page) (owners : List Contribution)
    (taken : List Offer) :
    (page.withOffers owners taken).methodNames.Perm (page.methodNamesWith taken) := by
  rw [methodNames, withOffers, List.map_append, List.map_append, List.append_assoc,
    methodNamesWith, methodNames, List.append_assoc]
  -- the actions that are taken stand between the own actions and the own event handlers
  refine List.Perm.append_left _ ?_
  exact (List.perm_append_comm_assoc _ _ _).trans ((Offer.methodNames_perm taken).append_left _)

/-- So it is with event types, in this order. -/
theorem eventTypes_withOffers (page : Page) (owners : List Contribution) (taken : List Offer) :
    (page.withOffers owners taken).eventTypes = page.eventTypesWith taken := by
  rw [eventTypes, withOffers, List.map_append, Offer.map_eventType_filterMap]
  rfl

/-- The finding that an event handler is offered, though another one has been taken for its event
type. There is none if the page itself reacts to it. -/
def eventConflict? (page : Page) (taken : List Offer) : Offer → Option (Location × AnalysisError)
  | .action _ _ => none
  | .eventHandler c h =>
    if h.eventType ∈ page.eventTypes then none
    else (taken.find? fun o => o.eventType? == some h.eventType).map fun o =>
      (c.site, .conflictingEventHandlerEmbed page.typeName h.eventType c.page.typeName
        o.source.page.typeName o.source.site)

/-- The conflicts of event handlers, each with what has been taken before its turn. -/
def eventConflicts (page : Page) (offers : List Offer) : List (Location × AnalysisError) :=
  (List.range offers.length).filterMap fun i =>
    offers[i]?.bind (page.eventConflict? (page.taken (offers.take i)))

/-! ### Turns -/

variable (page : Page)

private theorem prefix_acceptStep (taken : List Offer) (o : Offer) :
    taken <+: page.acceptStep taken o := by
  rw [acceptStep]
  split
  · exact List.prefix_append _ _
  · exact List.prefix_rfl

/-- The last offer is judged after what has been taken of those before it. -/
theorem taken_append_singleton (offers : List Offer) (o : Offer) :
    page.taken (offers ++ [o]) = page.acceptStep (page.taken offers) o := by
  rw [taken, List.foldl_append]
  rfl

/-- What has been taken stays taken. -/
theorem taken_prefix_append (offers more : List Offer) :
    page.taken offers <+: page.taken (offers ++ more) := by
  induction more using List.reverseRecOn with
  | nil => rw [List.append_nil]
  | append_singleton more o ih =>
    rw [← List.append_assoc, taken_append_singleton]
    exact ih.trans (page.prefix_acceptStep _ _)

/-- Offers are taken in their order. -/
theorem taken_sublist (offers : List Offer) : (page.taken offers).Sublist offers := by
  induction offers using List.reverseRecOn with
  | nil => exact List.Sublist.slnil
  | append_singleton offers o ih =>
    rw [taken_append_singleton, acceptStep]
    split
    · exact ih.append (List.Sublist.refl _)
    · exact ih.trans (List.sublist_append_left _ _)

/-- Names that are taken stay taken. -/
private theorem methodNamesWith_subset (offers more : List Offer) :
    page.methodNamesWith (page.taken offers) ⊆ page.methodNamesWith (page.taken (offers ++ more)) :=
  ((List.Sublist.refl _).append ((page.taken_prefix_append offers more).sublist.map _)).subset

/-- Event types that are taken stay taken. -/
private theorem eventTypesWith_subset (offers more : List Offer) :
    page.eventTypesWith (page.taken offers) ⊆ page.eventTypesWith (page.taken (offers ++ more)) :=
  ((List.Sublist.refl _).append ((page.taken_prefix_append offers more).sublist.filterMap _)).subset

/-- The last offer is a conflict, or not, with what has been taken before it. -/
theorem eventConflicts_append_singleton (offers : List Offer) (o : Offer) :
    page.eventConflicts (offers ++ [o]) =
      page.eventConflicts offers ++ (page.eventConflict? (page.taken offers) o).toList :=
  inTurn_append_singleton (fun before o => page.eventConflict? (page.taken before) o) offers o

/-- An offer that has been taken was acceptable at its turn, and so at any time before. -/
theorem accepts_of_mem_taken_append {offers more : List Offer} {o : Offer}
    (h : o ∈ page.taken (offers ++ more)) :
    o ∈ page.taken offers ∨ o ∈ more ∧ page.Accepts (page.taken offers) o := by
  induction more using List.reverseRecOn with
  | nil => exact .inl (by simpa using h)
  | append_singleton more p ih =>
    rw [← List.append_assoc, taken_append_singleton, acceptStep] at h
    have hbefore : o ∈ page.taken (offers ++ more) → o ∈ page.taken offers ∨
        o ∈ more ++ [p] ∧ page.Accepts (page.taken offers) o := fun hmem =>
      (ih hmem).imp_right fun ⟨hmore, haccepts⟩ => ⟨List.mem_append_left _ hmore, haccepts⟩
    split at h
    · next hp =>
      rcases List.mem_append.mp h with hmem | hmem
      · exact hbefore hmem
      · -- names and event types that were in use before are still in use at the turn of `o`
        obtain rfl := List.mem_singleton.mp hmem
        refine .inr ⟨by simp, fun hname => hp.methodName ?_, fun e he htype => hp.eventType e he ?_⟩
        · exact page.methodNamesWith_subset offers more hname
        · exact page.eventTypesWith_subset offers more htype
    · exact hbefore h

/-! ### What is taken, and what is not -/

private theorem accepts_nil_of_mem_taken {offers : List Offer} {o : Offer}
    (h : o ∈ page.taken offers) : page.Accepts [] o := by
  have hmem : o ∈ page.taken ([] ++ offers) := h
  rcases page.accepts_of_mem_taken_append hmem with hnil | ⟨-, haccepts⟩
  · cases hnil
  · exact haccepts

/-- No two offers that are taken have a name or an event type in common. -/
theorem pairwise_taken (offers : List Offer) :
    (page.taken offers).Pairwise fun a b =>
      a.methodName ≠ b.methodName ∧ ∀ e ∈ a.eventType?, ∀ f ∈ b.eventType?, e ≠ f := by
  induction offers using List.reverseRecOn with
  | nil => exact List.Pairwise.nil
  | append_singleton offers o ih =>
    rw [taken_append_singleton, acceptStep]
    split
    · next h =>
      refine List.pairwise_append.mpr ⟨ih, List.pairwise_singleton _ _, fun a ha b hb => ?_⟩
      obtain rfl := List.mem_singleton.mp hb
      refine ⟨fun hname => h.methodName ?_, fun e he f hf heq => h.eventType f hf ?_⟩
      · exact List.mem_append_right _ (List.mem_map.mpr ⟨a, ha, hname⟩)
      · exact List.mem_append_right _ (List.mem_filterMap.mpr ⟨a, ha, heq ▸ he⟩)
    · exact ih

/-- No two offers of one method name are taken. -/
theorem nodup_methodName_taken (offers : List Offer) :
    ((page.taken offers).map Offer.methodName).Nodup :=
  List.pairwise_map.mpr ((page.pairwise_taken offers).imp And.left)

/-- No two offers of one event type are taken. -/
theorem nodup_eventType_taken (offers : List Offer) :
    ((page.taken offers).filterMap Offer.eventType?).Nodup :=
  List.pairwise_filterMap.mpr ((page.pairwise_taken offers).imp And.right)

/-- What is taken has none of the page's own method names. -/
theorem disjoint_methodName_taken (offers : List Offer) :
    page.methodNames.Disjoint ((page.taken offers).map Offer.methodName) := by
  intro name hown hmem
  obtain ⟨o, ho, rfl⟩ := List.mem_map.mp hmem
  exact (page.accepts_nil_of_mem_taken ho).methodName (List.mem_append_left _ hown)

/-- What is taken has none of the page's own event types. -/
theorem disjoint_eventType_taken (offers : List Offer) :
    page.eventTypes.Disjoint ((page.taken offers).filterMap Offer.eventType?) := by
  intro e hown hmem
  obtain ⟨o, ho, he⟩ := List.mem_filterMap.mp hmem
  exact (page.accepts_nil_of_mem_taken ho).eventType e he (List.mem_append_left _ hown)

/-- Method names that are different stay different, whatever is offered. -/
theorem nodup_methodNamesWith_taken (h : page.methodNames.Nodup) (offers : List Offer) :
    (page.methodNamesWith (page.taken offers)).Nodup :=
  List.nodup_append'.mpr
    ⟨h, page.nodup_methodName_taken offers, page.disjoint_methodName_taken offers⟩

/-- So do event types. -/
theorem nodup_eventTypesWith_taken (h : page.eventTypes.Nodup) (offers : List Offer) :
    (page.eventTypesWith (page.taken offers)).Nodup :=
  List.nodup_append'.mpr
    ⟨h, page.nodup_eventType_taken offers, page.disjoint_eventType_taken offers⟩

/-- An action that is taken is one of an abstract page, but for its mark. -/
theorem exists_of_mem_taken_actions {cs : List Contribution} {h : Handler}
    (hh : h ∈ (page.taken (cs.flatMap Contribution.offers)).filterMap Offer.action?) :
    ∃ c ∈ cs, ∃ a ∈ c.page.actions, h = a.inheritedBy c.page.typeName := by
  obtain ⟨c, a, ho, rfl⟩ := Offer.mem_filterMap_action?_iff.mp hh
  obtain ⟨hc, ha⟩ := action_mem_flatMap_offers_iff.mp ((page.taken_sublist _).subset ho)
  exact ⟨c, hc, a, ha, rfl⟩

/-- An event handler that is taken is one of an abstract page, but for its mark. -/
theorem exists_of_mem_taken_eventHandlers {cs : List Contribution} {h : EventHandler}
    (hh : h ∈ (page.taken (cs.flatMap Contribution.offers)).filterMap Offer.eventHandler?) :
    ∃ c ∈ cs, ∃ a ∈ c.page.eventHandlers, h = a.inheritedBy c.page.typeName := by
  obtain ⟨c, a, ho, rfl⟩ := Offer.mem_filterMap_eventHandler?_iff.mp hh
  obtain ⟨hc, ha⟩ := eventHandler_mem_flatMap_offers_iff.mp ((page.taken_sublist _).subset ho)
  exact ⟨c, hc, a, ha, rfl⟩

/-- An offer that has had its turn is taken, or it has come too late: for its name, or for its event
type. -/
theorem mem_taken_or (before after : List Offer) (o : Offer) :
    o ∈ page.taken (before ++ o :: after) ∨ ¬ page.Accepts (page.taken before) o := by
  by_cases h : page.Accepts (page.taken before) o
  · left
    rw [show before ++ o :: after = before ++ [o] ++ after by simp]
    refine (page.taken_prefix_append (before ++ [o]) after).subset ?_
    rw [taken_append_singleton, acceptStep_of_accepts h]
    exact List.mem_append_right _ (List.mem_singleton_self o)
  · exact .inr h

/-- Of every offer the name or the event type is in use in the end. -/
theorem methodName_mem_or_eventType_mem {offers : List Offer} {o : Offer} (h : o ∈ offers) :
    o.methodName ∈ page.methodNamesWith (page.taken offers) ∨
      ∃ e ∈ o.eventType?, e ∈ page.eventTypesWith (page.taken offers) := by
  obtain ⟨before, after, rfl⟩ := List.append_of_mem h
  rcases page.mem_taken_or before after o with hmem | hlate
  · exact .inl (List.mem_append_right _ (List.mem_map_of_mem hmem))
  · by_cases hname : o.methodName ∈ page.methodNamesWith (page.taken before)
    · exact .inl (page.methodNamesWith_subset before (o :: after) hname)
    · by_contra! hfree
      exact hlate ⟨hname, fun e he htype =>
        hfree.2 e he (page.eventTypesWith_subset before (o :: after) htype)⟩

end Page

end GoPages

import GoPages.Proofs.Inheritance.Precedence

/-!
# Inheriting twice

A page is *settled* if nothing is left for it to inherit and nothing to be in conflict with: of
every method that reaches it, it has the name or reacts to the event type, and it has a GET if one
reaches it (`Page.IsSettled`). A settled page stays as it is, since the tables of a merge start with
all that the page has, and each step of the merge finds its name or event type there
(`Merge.take_start`, `Merge.add_start`).

What a page has inherited counts as its own in a second run. So it is settled after the first one,
whatever was in conflict or left out then (`Page.isSettled_inherit`), and inheritance is idempotent
(`Page.inherit_inherit`).
-/

namespace GoPages

/-- The page has no use for the offer: it has the name, or it reacts to the event type. -/
def Page.Dispenses (page : Page) (o : Offer) : Prop :=
  o.methodName ∈ page.methodNames ∨ ∃ e ∈ o.eventType?, e ∈ page.eventTypes

/-- Nothing is left for the page to inherit, and nothing to be in conflict with. -/
structure Page.IsSettled (abstracts : List AbstractPage) (page : Page) : Prop where
  get : ∀ c ∈ contributions abstracts page.embeds, c.page.get.isSome → page.get.isSome
  offers : ∀ o ∈ page.offers abstracts, page.Dispenses o

/-! ### Steps that change nothing -/

namespace Merge

variable {page : Page}

/-- A page with a GET of its own keeps it, and a page without one keeps to that as long as none is
offered. -/
theorem addGet?_start {c : Contribution} (h : c.page.get.isSome → page.get.isSome) :
    (start page).addGet? c = start page := by
  rw [addGet?]
  split
  · next g hg =>
    have hclaim : (start page).getClaim = some none := if_pos (h (by simp [hg]))
    rw [addGet, hclaim]
  · rfl

/-- An offer that a page dispenses with changes nothing. -/
theorem take_start {o : Offer} (h : page.Dispenses o) : (start page).take o = start page := by
  have hnames : (start page).names = page.methodNames := rfl
  cases o with
  | action c a =>
    have hname : a.methodName ∈ page.methodNames := h.resolve_right (by simp)
    rw [take, addAction, if_pos (by simpa [hnames] using hname)]
  | eventHandler c a =>
    rw [take, addEventHandler, lookup_events_start]
    by_cases htype : a.eventType ∈ page.eventTypes
    · rw [if_pos htype]
    · -- the page does not react to the event type, so it has the name
      have hname : a.methodName ∈ page.methodNames := h.resolve_right (by simp [htype])
      rw [if_neg htype]
      exact if_pos (by simpa [hnames] using hname)

private theorem foldl_take_start {offers : List Offer} (h : ∀ o ∈ offers, page.Dispenses o) :
    offers.foldl take (start page) = start page :=
  List.foldlRecOn offers take (motive := fun m => m = start page) rfl
    fun _ hm o ho => hm ▸ take_start (h o ho)

/-- A contribution changes nothing if the page dispenses with all that it offers, and has a GET if
it offers one. -/
theorem add_start {c : Contribution} (hget : c.page.get.isSome → page.get.isSome)
    (hoffers : ∀ o ∈ c.offers, page.Dispenses o) : (start page).add c = start page := by
  rw [add_eq_foldl_take, addGet?_start hget, foldl_take_start hoffers]

end Merge

namespace Page

variable {abstracts : List AbstractPage} {page : Page}

/-- Nothing happens to a settled page. -/
theorem IsSettled.merged (h : page.IsSettled abstracts) :
    page.merged abstracts = Merge.start page :=
  List.foldlRecOn _ Merge.add (motive := fun m => m = Merge.start page) rfl fun _ hm c hc =>
    hm ▸ Merge.add_start (h.get c hc) fun o ho => h.offers o (List.mem_flatMap.mpr ⟨c, hc, ho⟩)

/-! ### Settled pages -/

/-- What a page embeds does not change. -/
private theorem embeds_inherit (abstracts : List AbstractPage) (page : Page) :
    (page.inherit abstracts).1.embeds = page.embeds := by
  rw [inherit_eq_withOffers, withOffers]

/-- A page with all that it inherits is settled. -/
theorem isSettled_inherit (abstracts : List AbstractPage) (page : Page) :
    (page.inherit abstracts).1.IsSettled abstracts where
  get c hc hget := by
    rw [embeds_inherit] at hc
    have howner : c ∈ getOwners (contributions abstracts page.embeds) :=
      List.mem_filter.mpr ⟨hc, hget⟩
    rw [inherit_eq_withOffers, withOffers, isSome_getFrom, Bool.or_eq_true]
    exact .inr (by simp [List.ne_nil_of_mem howner])
  offers o ho := by
    rw [offers, embeds_inherit, ← offers] at ho
    rw [Dispenses, (page.methodNames_inherit_perm abstracts).mem_iff, eventTypes_inherit]
    exact page.methodName_mem_or_eventType_mem ho

/-- **Inheritance is idempotent.** A page that has inherited and does so again is left as it is.
There is no conflict the second time, even if there were some the first time, and nothing is
inherited. -/
theorem inherit_inherit (abstracts : List AbstractPage) (page : Page) :
    (page.inherit abstracts).1.inherit abstracts = ((page.inherit abstracts).1, []) ∧
      (page.inherit abstracts).1.inherited abstracts =
        { get := false, actions := 0, eventHandlers := 0 } := by
  have hmerged := (page.isSettled_inherit abstracts).merged
  rw [inherit, inherited, hmerged]
  exact ⟨rfl, rfl⟩

end Page

end GoPages

import GoPages.Inheritance
import Mathlib.Logic.Function.Iterate
import Mathlib.Order.Lattice.Nat

/-!
# Inheritance goes breadth first

A list of abstract pages stands for the map from their type names: of several of a name the first
one counts. Embeddings make it a graph, which may have cycles, diamonds and names that lead nowhere.

* `EmbedPath` and `embedDepth` are paths of embeddings from a page, and the length of the shortest
  one.
* `embedLevel` cuts the graph into levels, without a queue: a level has the embeddings of the
  abstract pages that are named for the first time in the level before. `embedOrder` are the
  embeddings level by level.
* `Walk` is the loop over a queue of embeddings that marks names as visited.

The contributions to a page are the newcomers of the levels in their order
(`contributions_eq_flatMap`), and the newcomers of a level have one depth
(`embedDepth_of_mem_newcomers`). With it the loop is settled: it ends, and it merges what can be
reached, each abstract page once and the less deep ones first (`inherit_breadth_first`). What comes
of merging a contribution is left to the modules after this one (`Page.represents_merged`).
-/

namespace GoPages

section Graph

variable (abstracts : List AbstractPage) (embeds : List EmbedRef)

/-! ### Paths and depth -/

/-- The embedding is the last one of `n` embeddings, the first of which is one of `embeds`, and each
of which leads to the abstract page that has the next one. -/
inductive EmbedPath : Nat → EmbedRef → Prop where
  | direct {e : EmbedRef} (h : e ∈ embeds) : EmbedPath 1 e
  | next {n : Nat} {e f : EmbedRef} {p : AbstractPage} (path : EmbedPath n e)
      (found : findAbstract? e.typeName abstracts = some p) (h : f ∈ p.embeds) :
      EmbedPath (n + 1) f

/-- The abstract page is reached by `n` embeddings. -/
def ReachedIn (n : Nat) (p : AbstractPage) : Prop :=
  ∃ e, EmbedPath abstracts embeds n e ∧ findAbstract? e.typeName abstracts = some p

/-- The abstract page can be reached. -/
def Reachable (p : AbstractPage) : Prop := ∃ n, ReachedIn abstracts embeds n p

/-- The number of embeddings on the shortest path to an abstract page. -/
noncomputable def embedDepth (p : AbstractPage) : Nat := sInf {n | ReachedIn abstracts embeds n p}

/-! ### Levels -/

/-- The abstract pages that embeddings name for the first time, each with the place of the first one
that does. -/
def newcomers (fresh : List AbstractPage) : List EmbedRef → List Contribution
  | [] => []
  | e :: es =>
    match findAbstract? e.typeName fresh with
    | none => newcomers fresh es
    | some p => ⟨p, e.location⟩ :: newcomers (withoutAbstract e.typeName fresh) es

/-- The abstract pages that embeddings do not name. -/
def unnamed (fresh : List AbstractPage) (es : List EmbedRef) : List AbstractPage :=
  es.foldl (fun fresh e => withoutAbstract e.typeName fresh) fresh

/-- The embeddings of one depth, with the abstract pages that no embedding of a lesser depth
names. -/
structure EmbedLevel where
  fresh : List AbstractPage
  embeds : List EmbedRef

/-- The contributions of a level. -/
def EmbedLevel.newcomers (l : EmbedLevel) : List Contribution := GoPages.newcomers l.fresh l.embeds

/-- The level after a level. -/
def EmbedLevel.next (l : EmbedLevel) : EmbedLevel where
  fresh := unnamed l.fresh l.embeds
  embeds := l.newcomers.flatMap fun c => c.page.embeds

/-- The level that is reached by `n + 1` embeddings. -/
def embedLevel : (n : Nat) → EmbedLevel
  | 0 => ⟨abstracts, embeds⟩
  | n + 1 => (embedLevel n).next

/-- All embeddings in breadth-first order: level by level, and in a level in the order of the
abstract pages that have them. -/
def embedOrder : List EmbedRef :=
  (List.range (abstracts.length + 1)).flatMap fun n => (embedLevel abstracts embeds n).embeds

end Graph

/-! ### Names that are still fresh -/

/-- A name is taken out of the map with all pages of this name. -/
private theorem mem_withoutAbstract {name : String} {pages : List AbstractPage} {p : AbstractPage} :
    p ∈ withoutAbstract name pages ↔ p ∈ pages ∧ p.typeName ≠ name := by
  simp [withoutAbstract]

private theorem typeName_of_findAbstract? {name : String} {pages : List AbstractPage}
    {p : AbstractPage} (h : findAbstract? name pages = some p) : p.typeName = name := by
  simpa using List.find?_some h

/-- A page that is found is in the list. -/
theorem mem_of_findAbstract? {name : String} {pages : List AbstractPage} {p : AbstractPage}
    (h : findAbstract? name pages = some p) : p ∈ pages :=
  List.mem_of_find?_eq_some h

private theorem withoutAbstract_of_findAbstract?_eq_none {name : String} {pages : List AbstractPage}
    (h : findAbstract? name pages = none) : withoutAbstract name pages = pages := by
  rw [withoutAbstract, List.filter_eq_self]
  intro p hp
  simpa using List.find?_eq_none.mp h p hp

/-- Taking a name away hides that name and no other one. -/
theorem findAbstract?_withoutAbstract (name other : String) (pages : List AbstractPage) :
    findAbstract? name (withoutAbstract other pages) =
      if name = other then none else findAbstract? name pages := by
  split
  · next h =>
    subst h
    refine List.find?_eq_none.mpr fun p hp => ?_
    simpa using (mem_withoutAbstract.mp hp).2
  · next h =>
    rw [findAbstract?, findAbstract?, withoutAbstract, List.find?_filter]
    congr 1
    funext p
    by_cases hp : p.typeName = name <;> simp [hp, h]

/-- Names that have been met are found no more. -/
private theorem findAbstract?_unnamed (name : String) (fresh : List AbstractPage)
    (es : List EmbedRef) : findAbstract? name (unnamed fresh es) =
      if ∃ e ∈ es, e.typeName = name then none else findAbstract? name fresh := by
  induction es generalizing fresh with
  | nil => simp [unnamed]
  | cons e es ih =>
    rw [unnamed, List.foldl_cons, ← unnamed, ih, findAbstract?_withoutAbstract]
    by_cases he : e.typeName = name
    · simp [he]
    · simp [he, Ne.symm he]

/-! ### The newcomers of a level -/

/-- The first embedding may bring a newcomer, and the others bring none of its name. -/
private theorem newcomers_cons (fresh : List AbstractPage) (e : EmbedRef) (es : List EmbedRef) :
    newcomers fresh (e :: es) =
      ((findAbstract? e.typeName fresh).toList.map fun p => ⟨p, e.location⟩) ++
        newcomers (withoutAbstract e.typeName fresh) es := by
  rw [newcomers]
  split
  · next h => simp [h, withoutAbstract_of_findAbstract?_eq_none h]
  · next h => simp [h]

/-- The first embedding that names an abstract page decides where it is embedded. -/
theorem mem_newcomers_iff {fresh : List AbstractPage} {es : List EmbedRef} {c : Contribution} :
    c ∈ newcomers fresh es ↔ findAbstract? c.page.typeName fresh = some c.page ∧
      es.find? (fun e => e.typeName == c.page.typeName) = some ⟨c.page.typeName, c.site⟩ := by
  induction es generalizing fresh with
  | nil => simp [newcomers]
  | cons e es ih =>
    rw [newcomers_cons, List.mem_append, ih, findAbstract?_withoutAbstract]
    -- the first embedding with a name takes the abstract page, and later ones find it no more
    by_cases he : e.typeName = c.page.typeName
    · simp only [he, if_true, reduceCtorEq, false_and, or_false, List.find?_cons, beq_self_eq_true,
        Option.some.injEq]
      constructor
      · intro h
        simp only [List.mem_map, Option.mem_toList] at h
        obtain ⟨p, hp, rfl⟩ := h
        exact ⟨hp, by rw [← he]⟩
      · rintro ⟨hpage, hsite⟩
        rw [hpage, hsite]
        simp
    · have hne : (e.typeName == c.page.typeName) = false := by simpa using he
      simp only [List.find?_cons, hne, if_neg (Ne.symm he), or_iff_right_iff_imp]
      intro h
      simp only [List.mem_map, Option.mem_toList] at h
      obtain ⟨p, hp, rfl⟩ := h
      exact absurd (typeName_of_findAbstract? hp).symm he

/-- Every newcomer leaves fewer pages that are new. -/
private theorem length_unnamed_add_length_newcomers_le (fresh : List AbstractPage)
    (es : List EmbedRef) :
    (unnamed fresh es).length + (newcomers fresh es).length ≤ fresh.length := by
  induction es generalizing fresh with
  | nil => simp [unnamed, newcomers]
  | cons e es ih =>
    have ih := ih (withoutAbstract e.typeName fresh)
    rw [newcomers_cons, unnamed, List.foldl_cons, ← unnamed]
    cases h : findAbstract? e.typeName fresh with
    | none =>
      rw [withoutAbstract_of_findAbstract?_eq_none h] at ih ⊢
      simpa using ih
    | some p =>
      have hlt : (withoutAbstract e.typeName fresh).length < fresh.length :=
        List.length_filter_lt_length_iff_exists.mpr
          ⟨p, mem_of_findAbstract? h, by simpa using typeName_of_findAbstract? h⟩
      simp only [Option.toList_some, List.map_cons, List.map_nil, List.length_append,
        List.length_cons, List.length_nil]
      omega

/-- An embedding that leads to nothing new is passed over. -/
theorem contributions_cons_of_eq_none {fresh : List AbstractPage} {e : EmbedRef}
    (queue : List EmbedRef) (h : findAbstract? e.typeName fresh = none) :
    contributions fresh (e :: queue) = contributions fresh queue := by
  rw [contributions]
  split
  · rfl
  · next hp => simp [h] at hp

/-- An abstract page that is met for the first time contributes, and its embeddings are put at the
end of the queue. -/
theorem contributions_cons_of_eq_some {fresh : List AbstractPage} {e : EmbedRef} {p : AbstractPage}
    (queue : List EmbedRef) (h : findAbstract? e.typeName fresh = some p) :
    contributions fresh (e :: queue) =
      ⟨p, e.location⟩ :: contributions (withoutAbstract e.typeName fresh) (queue ++ p.embeds) := by
  rw [contributions]
  split
  · next hp => simp [h] at hp
  · next q hq =>
    obtain rfl : p = q := by simpa [h] using hq
    rfl

/-- A queue is worked off from its front; what the front embeds comes after the rest. -/
theorem contributions_append (fresh : List AbstractPage) (es queue : List EmbedRef) :
    contributions fresh (es ++ queue) = newcomers fresh es ++
      contributions (unnamed fresh es)
        (queue ++ (newcomers fresh es).flatMap fun c => c.page.embeds) := by
  induction es generalizing fresh queue with
  | nil => simp [newcomers, unnamed]
  | cons e es ih =>
    rw [List.cons_append, newcomers_cons, unnamed, List.foldl_cons, ← unnamed]
    cases h : findAbstract? e.typeName fresh with
    | none =>
      rw [contributions_cons_of_eq_none _ h, withoutAbstract_of_findAbstract?_eq_none h, ih]
      simp
    | some p =>
      rw [contributions_cons_of_eq_some _ h, List.append_assoc, ih]
      simp

section Graph

variable (abstracts : List AbstractPage) (embeds : List EmbedRef)

/-! ### Levels -/

/-- At a level those names are new that no level before it has met. -/
private theorem findAbstract?_embedLevel (n : Nat) (name : String) :
    findAbstract? name (embedLevel abstracts embeds n).fresh =
      if ∃ m < n, ∃ e ∈ (embedLevel abstracts embeds m).embeds, e.typeName = name then none
      else findAbstract? name abstracts := by
  induction n with
  | zero => simp [embedLevel]
  | succ n ih =>
    rw [embedLevel, EmbedLevel.next, findAbstract?_unnamed, ih]
    -- a name is met at this level, or it has been met before, or it is still new
    by_cases hn : ∃ e ∈ (embedLevel abstracts embeds n).embeds, e.typeName = name
    · rw [if_pos hn, if_pos ⟨n, by omega, hn⟩]
    · rw [if_neg hn]
      refine if_congr ?_ rfl rfl
      constructor
      · rintro ⟨m, hm, he⟩
        exact ⟨m, by omega, he⟩
      · rintro ⟨m, hm, he⟩
        rcases Nat.lt_succ_iff_lt_or_eq.mp hm with hm | rfl
        · exact ⟨m, hm, he⟩
        · exact absurd he hn

/-- The newcomers of a level are the abstract pages whose name stands in it and in no level
before. -/
theorem mem_newcomers_embedLevel_iff {n : Nat} {c : Contribution} :
    c ∈ (embedLevel abstracts embeds n).newcomers ↔
      findAbstract? c.page.typeName abstracts = some c.page ∧
      (∀ m < n, ∀ e ∈ (embedLevel abstracts embeds m).embeds, e.typeName ≠ c.page.typeName) ∧
      (embedLevel abstracts embeds n).embeds.find? (fun e => e.typeName == c.page.typeName) =
        some ⟨c.page.typeName, c.site⟩ := by
  rw [EmbedLevel.newcomers, mem_newcomers_iff, findAbstract?_embedLevel, ← and_assoc]
  refine and_congr_left fun _ => ?_
  by_cases h : ∃ m < n, ∃ e ∈ (embedLevel abstracts embeds m).embeds, e.typeName = c.page.typeName
  · rw [if_pos h]
    obtain ⟨m, hm, e, he, hname⟩ := h
    simp only [reduceCtorEq, false_iff, not_and, not_forall]
    exact fun _ => ⟨m, hm, e, he, fun hne => hne hname⟩
  · rw [if_neg h]
    push Not at h
    exact ⟨fun hp => ⟨hp, h⟩, And.left⟩

/-- Every level uses up an abstract page or leaves no embeddings to the next one. -/
theorem embeds_embedLevel_eq_nil_or (n : Nat) :
    (embedLevel abstracts embeds n).embeds = [] ∨
      (embedLevel abstracts embeds n).fresh.length + n ≤ abstracts.length := by
  induction n with
  | zero => simp [embedLevel]
  | succ n ih =>
    have hlen := length_unnamed_add_length_newcomers_le (embedLevel abstracts embeds n).fresh
      (embedLevel abstracts embeds n).embeds
    -- without newcomers nothing is embedded further, and each newcomer leaves one fresh page less
    rcases hc : (embedLevel abstracts embeds n).newcomers with _ | ⟨c, cs⟩
    · left
      simp [embedLevel, EmbedLevel.next, hc]
    · right
      rcases ih with hnil | hle
      · simp [EmbedLevel.newcomers, hnil, newcomers] at hc
      · rw [EmbedLevel.newcomers] at hc
        rw [hc, List.length_cons] at hlen
        rw [embedLevel, EmbedLevel.next]
        dsimp only
        omega

/-- There are no more levels than abstract pages, and one for the page itself. -/
theorem embeds_embedLevel_eq_nil :
    (embedLevel abstracts embeds (abstracts.length + 1)).embeds = [] := by
  rcases embeds_embedLevel_eq_nil_or abstracts embeds (abstracts.length + 1) with h | h
  · exact h
  · omega

/-- The queue goes through the levels one after the other. -/
private theorem contributions_eq_flatMap_append (n : Nat) :
    contributions abstracts embeds =
      ((List.range n).flatMap fun m => (embedLevel abstracts embeds m).newcomers) ++
        contributions (embedLevel abstracts embeds n).fresh
          (embedLevel abstracts embeds n).embeds := by
  induction n with
  | zero => simp [embedLevel]
  | succ n ih =>
    have happ := contributions_append (embedLevel abstracts embeds n).fresh
      (embedLevel abstracts embeds n).embeds []
    rw [List.append_nil, List.nil_append] at happ
    rw [ih, happ, List.range_succ, List.flatMap_append, List.flatMap_singleton, List.append_assoc]
    rfl

/-- The contributions are the newcomers level by level. -/
theorem contributions_eq_flatMap :
    contributions abstracts embeds =
      (List.range (abstracts.length + 1)).flatMap fun n =>
        (embedLevel abstracts embeds n).newcomers := by
  rw [contributions_eq_flatMap_append abstracts embeds (abstracts.length + 1),
    embeds_embedLevel_eq_nil, contributions, List.append_nil]

private theorem mem_contributions_iff {c : Contribution} :
    c ∈ contributions abstracts embeds ↔ ∃ n, c ∈ (embedLevel abstracts embeds n).newcomers := by
  constructor
  · intro h
    rw [contributions_eq_flatMap, List.mem_flatMap] at h
    obtain ⟨n, -, hc⟩ := h
    exact ⟨n, hc⟩
  · rintro ⟨n, hc⟩
    rw [contributions_eq_flatMap_append abstracts embeds (n + 1)]
    exact List.mem_append_left _ (List.mem_flatMap.mpr ⟨n, by simp, hc⟩)

/-- The embeddings in breadth-first order are those of the page and then those of its
contributions. -/
theorem embedOrder_eq :
    embedOrder abstracts embeds =
      embeds ++ (contributions abstracts embeds).flatMap fun c => c.page.embeds := by
  have hlast : ((embedLevel abstracts embeds abstracts.length).newcomers.flatMap
      fun c => c.page.embeds) = [] := embeds_embedLevel_eq_nil abstracts embeds
  rw [embedOrder, List.range_succ_eq_map, List.flatMap_cons, List.flatMap_map,
    contributions_eq_flatMap, List.flatMap_assoc, List.range_succ, List.flatMap_append,
    List.flatMap_singleton, hlast, List.append_nil]
  rfl

/-! ### Levels and depth -/

/-- What a level names has contributed by then. -/
theorem exists_newcomers_of_mem_embeds {n : Nat} {e : EmbedRef} {p : AbstractPage}
    (he : e ∈ (embedLevel abstracts embeds n).embeds)
    (hp : findAbstract? e.typeName abstracts = some p) :
    ∃ m ≤ n, ∃ c ∈ (embedLevel abstracts embeds m).newcomers, c.page = p := by
  -- the least level that names the abstract page
  have hnamed : ∃ m, ∃ f ∈ (embedLevel abstracts embeds m).embeds, f.typeName = p.typeName :=
    ⟨n, e, he, (typeName_of_findAbstract? hp).symm⟩
  classical
  obtain ⟨f, hf, hname⟩ := Nat.find_spec hnamed
  have hfind : ((embedLevel abstracts embeds (Nat.find hnamed)).embeds.find?
      fun e => e.typeName == p.typeName).isSome := by
    rw [List.find?_isSome]
    exact ⟨f, hf, by simpa using hname⟩
  obtain ⟨g, hg⟩ := Option.isSome_iff_exists.mp hfind
  have hgname : g.typeName = p.typeName := by simpa using List.find?_some hg
  refine ⟨Nat.find hnamed, Nat.find_min' hnamed ⟨e, he, (typeName_of_findAbstract? hp).symm⟩,
    ⟨p, g.location⟩, ?_, rfl⟩
  rw [mem_newcomers_embedLevel_iff]
  refine ⟨?_, fun m hm f hf hname => Nat.find_min hnamed hm ⟨f, hf, hname⟩, ?_⟩
  · rw [typeName_of_findAbstract? hp]
    exact hp
  · rw [hg, ← hgname]

/-- The embeddings of a level are reached by paths of one length. -/
theorem embedPath_of_mem_embeds {n : Nat} {e : EmbedRef}
    (h : e ∈ (embedLevel abstracts embeds n).embeds) : EmbedPath abstracts embeds (n + 1) e := by
  induction n generalizing e with
  | zero => exact .direct h
  | succ n ih =>
    obtain ⟨c, hc, he⟩ := List.mem_flatMap.mp h
    obtain ⟨hpage, -, hfind⟩ := (mem_newcomers_embedLevel_iff abstracts embeds).mp hc
    exact .next (ih (List.mem_of_find?_eq_some hfind)) hpage he

/-- A newcomer is reached by as many embeddings as its level says. -/
private theorem reachedIn_of_mem_newcomers {n : Nat} {c : Contribution}
    (h : c ∈ (embedLevel abstracts embeds n).newcomers) :
    ReachedIn abstracts embeds (n + 1) c.page := by
  obtain ⟨hpage, -, hfind⟩ := (mem_newcomers_embedLevel_iff abstracts embeds).mp h
  exact ⟨_, embedPath_of_mem_embeds abstracts embeds (List.mem_of_find?_eq_some hfind), hpage⟩

/-- A path cannot be faster than the levels. -/
theorem exists_newcomers_of_embedPath {n : Nat} {e : EmbedRef} {p : AbstractPage}
    (path : EmbedPath abstracts embeds n e) (hp : findAbstract? e.typeName abstracts = some p) :
    ∃ m < n, ∃ c ∈ (embedLevel abstracts embeds m).newcomers, c.page = p := by
  induction path generalizing p with
  | direct h =>
    obtain ⟨m, hm, hc⟩ := exists_newcomers_of_mem_embeds (n := 0) abstracts embeds h hp
    exact ⟨m, by omega, hc⟩
  | next path found h ih =>
    obtain ⟨m, hm, c, hc, rfl⟩ := ih found
    obtain ⟨k, hk, hd⟩ := exists_newcomers_of_mem_embeds (n := m + 1) abstracts embeds
      (List.mem_flatMap.mpr ⟨c, hc, h⟩) hp
    exact ⟨k, by omega, hd⟩

/-- An abstract page is a newcomer of one level only. -/
theorem le_of_mem_newcomers {m n : Nat} {c d : Contribution}
    (hc : c ∈ (embedLevel abstracts embeds m).newcomers)
    (hd : d ∈ (embedLevel abstracts embeds n).newcomers)
    (h : c.page.typeName = d.page.typeName) : n ≤ m := by
  by_contra hlt
  obtain ⟨-, -, hfind⟩ := (mem_newcomers_embedLevel_iff abstracts embeds).mp hc
  obtain ⟨-, hnew, -⟩ := (mem_newcomers_embedLevel_iff abstracts embeds).mp hd
  exact hnew m (by omega) _ (List.mem_of_find?_eq_some hfind) h

/-- The newcomers of a level have its depth. -/
theorem embedDepth_of_mem_newcomers {n : Nat} {c : Contribution}
    (h : c ∈ (embedLevel abstracts embeds n).newcomers) :
    embedDepth abstracts embeds c.page = n + 1 := by
  have hreach := reachedIn_of_mem_newcomers abstracts embeds h
  refine le_antisymm (Nat.sInf_le hreach) ?_
  obtain ⟨e, path, hp⟩ := Nat.sInf_mem (s := {n | ReachedIn abstracts embeds n c.page}) ⟨_, hreach⟩
  -- the shortest path is not shorter than the way to the level where the page is a newcomer
  obtain ⟨m, hm, d, hd, hpage⟩ := exists_newcomers_of_embedPath abstracts embeds path hp
  have hle := le_of_mem_newcomers abstracts embeds hd h (by rw [hpage])
  exact Nat.lt_of_le_of_lt hle hm

/-- Less deep contributions come first. -/
theorem pairwise_embedDepth_contributions :
    (contributions abstracts embeds).Pairwise fun c d =>
      embedDepth abstracts embeds c.page ≤ embedDepth abstracts embeds d.page := by
  rw [contributions_eq_flatMap, List.pairwise_flatMap]
  constructor
  · intro n _
    refine List.pairwise_of_forall_mem_list fun c hc d hd => ?_
    rw [embedDepth_of_mem_newcomers abstracts embeds hc,
      embedDepth_of_mem_newcomers abstracts embeds hd]
  · refine List.pairwise_lt_range.imp fun {m n} hlt c hc d hd => ?_
    rw [embedDepth_of_mem_newcomers abstracts embeds hc,
      embedDepth_of_mem_newcomers abstracts embeds hd]
    omega

/-- What contributes is what can be reached. -/
theorem mem_map_page_contributions_iff {p : AbstractPage} :
    p ∈ (contributions abstracts embeds).map Contribution.page ↔ Reachable abstracts embeds p := by
  rw [List.mem_map]
  constructor
  · rintro ⟨c, hc, rfl⟩
    obtain ⟨n, hn⟩ := (mem_contributions_iff abstracts embeds).mp hc
    exact ⟨n + 1, reachedIn_of_mem_newcomers abstracts embeds hn⟩
  · rintro ⟨n, e, path, hp⟩
    obtain ⟨m, -, c, hc, hpage⟩ := exists_newcomers_of_embedPath abstracts embeds path hp
    exact ⟨c, (mem_contributions_iff abstracts embeds).mpr ⟨m, hc⟩, hpage⟩

/-- The place of a contribution is that of the first embedding that names it, level by level. -/
theorem find?_embedOrder {c : Contribution} (h : c ∈ contributions abstracts embeds) :
    (embedOrder abstracts embeds).find? (fun e => e.typeName == c.page.typeName) =
      some ⟨c.page.typeName, c.site⟩ := by
  rw [contributions_eq_flatMap, List.mem_flatMap] at h
  obtain ⟨n, hn, hc⟩ := h
  obtain ⟨-, hnew, hfind⟩ := (mem_newcomers_embedLevel_iff abstracts embeds).mp hc
  -- the levels before the one that names it, that one, and the levels after it
  have hsplit : List.range (abstracts.length + 1) =
      List.range n ++ n :: List.range' (n + 1) (abstracts.length - n) := by
    rw [List.mem_range] at hn
    have happ := @List.range'_append_1 0 n (abstracts.length - n + 1)
    rw [Nat.zero_add, show n + (abstracts.length - n + 1) = abstracts.length + 1 by omega] at happ
    rw [List.range_eq_range', List.range_eq_range', ← happ, List.range'_succ]
  rw [embedOrder, List.find?_flatMap, List.findSome?_eq_some_iff]
  refine ⟨_, _, _, hsplit, hfind, fun m hm => ?_⟩
  rw [List.find?_eq_none]
  intro e he
  simpa using hnew m (List.mem_range.mp hm) e he

end Graph

/-- A contribution is that of the abstract page that counts under its name. -/
theorem findAbstract?_of_mem_contributions {fresh : List AbstractPage} {queue : List EmbedRef}
    {c : Contribution} (h : c ∈ contributions fresh queue) :
    findAbstract? c.page.typeName fresh = some c.page := by
  obtain ⟨n, hn⟩ := (mem_contributions_iff fresh queue).mp h
  exact ((mem_newcomers_embedLevel_iff fresh queue).mp hn).1

/-- No abstract page contributes twice. -/
theorem nodup_typeName_contributions (fresh : List AbstractPage) (queue : List EmbedRef) :
    ((contributions fresh queue).map fun c => c.page.typeName).Nodup := by
  fun_induction contributions fresh queue with
  | case1 => simp
  | case2 fresh e queue h ih => exact ih
  | case3 fresh e queue p h _ ih =>
    rw [List.map_cons, List.nodup_cons]
    refine ⟨fun hmem => ?_, ih⟩
    obtain ⟨c, hc, hname⟩ := List.mem_map.mp hmem
    have hfresh := mem_of_findAbstract? (findAbstract?_of_mem_contributions hc)
    exact (mem_withoutAbstract.mp hfresh).2 (hname.trans (typeName_of_findAbstract? h))

/-! ### The loop -/

/-- A page while a queue of embeddings is worked off, with the names that have been visited. -/
structure Walk where
  visited : List String
  queue : List EmbedRef
  merge : Merge

namespace Walk

/-- The loop starts with the embeddings of the page. -/
def start (page : Page) : Walk := ⟨[], page.embeds, Merge.start page⟩

/-- One turn of the loop takes the first embedding from the queue. A name that has been visited is
passed over; else it is marked, and if an abstract page has it, this one is merged and its
embeddings are put at the end of the queue. -/
def step (abstracts : List AbstractPage) (w : Walk) : Walk :=
  match w.queue with
  | [] => w
  | e :: queue =>
    if w.visited.contains e.typeName then { w with queue := queue }
    else match findAbstract? e.typeName abstracts with
      | none => { w with visited := e.typeName :: w.visited, queue := queue }
      | some p => ⟨e.typeName :: w.visited, queue ++ p.embeds, w.merge.add ⟨p, e.location⟩⟩

/-- The abstract pages that have not been visited. -/
def fresh (abstracts : List AbstractPage) (w : Walk) : List AbstractPage :=
  w.visited.foldr withoutAbstract abstracts

/-- The loop finds what it has not visited. -/
private theorem findAbstract?_fresh (abstracts : List AbstractPage) (w : Walk) (name : String) :
    findAbstract? name (w.fresh abstracts) =
      if name ∈ w.visited then none else findAbstract? name abstracts := by
  obtain ⟨visited, queue, merge⟩ := w
  rw [fresh]
  induction visited with
  | nil => simp
  | cons seen visited ih =>
    rw [List.foldr_cons, findAbstract?_withoutAbstract, ih]
    by_cases h : name = seen <;> simp [h]

/-- A turn of the loop that merges nothing. -/
theorem step_of_eq_none {abstracts : List AbstractPage} {w : Walk} {e : EmbedRef}
    {queue : List EmbedRef} (h : w.queue = e :: queue)
    (hnone : findAbstract? e.typeName (w.fresh abstracts) = none) :
    (w.step abstracts).queue = queue ∧ (w.step abstracts).merge = w.merge ∧
      (w.step abstracts).fresh abstracts = w.fresh abstracts := by
  have hfind := findAbstract?_fresh abstracts w e.typeName
  have hsame : withoutAbstract e.typeName (w.fresh abstracts) = w.fresh abstracts :=
    withoutAbstract_of_findAbstract?_eq_none hnone
  rw [hnone] at hfind
  -- either the name has been visited, or it is visited now and names no abstract page
  by_cases hseen : e.typeName ∈ w.visited
  · have hstep : w.step abstracts = { w with queue := queue } := by simp [step, h, hseen]
    rw [hstep]
    exact ⟨rfl, rfl, rfl⟩
  · rw [if_neg hseen] at hfind
    have hstep : w.step abstracts =
        { w with visited := e.typeName :: w.visited, queue := queue } := by
      simp [step, h, hseen, ← hfind]
    rw [hstep]
    exact ⟨rfl, rfl, hsame⟩

/-- A turn of the loop that merges an abstract page. -/
theorem step_of_eq_some {abstracts : List AbstractPage} {w : Walk} {e : EmbedRef}
    {queue : List EmbedRef} {p : AbstractPage} (h : w.queue = e :: queue)
    (hsome : findAbstract? e.typeName (w.fresh abstracts) = some p) :
    (w.step abstracts).queue = queue ++ p.embeds ∧
      (w.step abstracts).merge = w.merge.add ⟨p, e.location⟩ ∧
      (w.step abstracts).fresh abstracts = withoutAbstract e.typeName (w.fresh abstracts) := by
  have hfind := findAbstract?_fresh abstracts w e.typeName
  rw [hsome] at hfind
  by_cases hseen : e.typeName ∈ w.visited
  · simp [hseen] at hfind
  · rw [if_neg hseen] at hfind
    have hstep : w.step abstracts =
        ⟨e.typeName :: w.visited, queue ++ p.embeds, w.merge.add ⟨p, e.location⟩⟩ := by
      simp [step, h, hseen, ← hfind]
    rw [hstep]
    exact ⟨rfl, rfl, rfl⟩

/-- The loop ends after one turn for every embedding of the queue and of the contributions. -/
theorem iterate_step (abstracts : List AbstractPage) (w : Walk) (n : Nat)
    (hn : n = (w.queue ++
      (contributions (w.fresh abstracts) w.queue).flatMap fun c => c.page.embeds).length) :
    ((step abstracts)^[n] w).queue = [] ∧
    ((step abstracts)^[n] w).merge =
      (contributions (w.fresh abstracts) w.queue).foldl Merge.add w.merge := by
  induction n generalizing w with
  | zero =>
    have hnil : w.queue = [] := by
      have := List.eq_nil_of_length_eq_zero hn.symm
      exact (List.append_eq_nil_iff.mp this).1
    simp [hnil, contributions]
  | succ n ih =>
    -- a turn takes one embedding away; what a merged page puts into the queue has been counted
    -- before, among the embeddings of the contributions
    cases hq : w.queue with
    | nil => simp [hq, contributions] at hn
    | cons e queue =>
      rw [hq] at hn
      rw [Function.iterate_succ_apply]
      cases hfind : findAbstract? e.typeName (w.fresh abstracts) with
      | none =>
        obtain ⟨hqueue, hmerge, hfresh⟩ := step_of_eq_none hq hfind
        rw [contributions_cons_of_eq_none _ hfind] at hn ⊢
        rw [← hqueue, ← hmerge, ← hfresh]
        refine ih _ ?_
        rw [hqueue, hfresh]
        simpa using hn
      | some p =>
        obtain ⟨hqueue, hmerge, hfresh⟩ := step_of_eq_some hq hfind
        rw [contributions_cons_of_eq_some _ hfind] at hn ⊢
        rw [List.foldl_cons, ← hqueue, ← hmerge, ← hfresh]
        refine ih _ ?_
        rw [hqueue, hfresh]
        simpa using hn

end Walk

/-! ### Inheritance -/

/-- **Inheritance goes breadth first.** Whatever the embeddings look like, the loop over them ends,
after one turn for every embedding in breadth-first order. It merges the abstract pages that can be
reached and no other ones, each of them once, the less deep ones first, and with the place of the
first embedding in breadth-first order that names it.

What `Merge.add` makes of a contribution is said of all contributions together:
`Page.represents_merged` gives the page and the tables after them, and from it `Page.get_inherit`,
`Page.inherit_appends` and `Page.inherit_complete` tell which methods the page gets, and which of
them are conflicts. -/
theorem inherit_breadth_first (abstracts : List AbstractPage) (page : Page) :
    ∃ (w : Walk) (cs : List Contribution),
      w = (Walk.step abstracts)^[(embedOrder abstracts page.embeds).length] (Walk.start page) ∧
      w.queue = [] ∧
      page.inherit abstracts = (w.merge.page, w.merge.found) ∧
      w.merge = cs.foldl Merge.add (Merge.start page) ∧
      (cs.map fun c => c.page.typeName).Nodup ∧
      (∀ p, p ∈ cs.map Contribution.page ↔ Reachable abstracts page.embeds p) ∧
      (cs.Pairwise fun c d =>
        embedDepth abstracts page.embeds c.page ≤ embedDepth abstracts page.embeds d.page) ∧
      ∀ c ∈ cs, (embedOrder abstracts page.embeds).find? (fun e => e.typeName == c.page.typeName) =
        some ⟨c.page.typeName, c.site⟩ := by
  have hlen := congrArg List.length (embedOrder_eq abstracts page.embeds)
  obtain ⟨hqueue, hmerge⟩ := Walk.iterate_step abstracts (Walk.start page) _ hlen
  refine ⟨_, contributions abstracts page.embeds, rfl, hqueue, ?_, hmerge,
    nodup_typeName_contributions _ _, fun p => mem_map_page_contributions_iff _ _,
    pairwise_embedDepth_contributions _ _, fun c hc => find?_embedOrder _ _ hc⟩
  rw [hmerge]
  rfl

end GoPages

import GoPages.Proofs.Event.Reached
import GoPages.Proofs.Package.Following
import GoPages.Proofs.Package.Lines

/-!
# A walk that remembers what it has visited

The walk over the payload of an event can be a recursion from type to type that takes along the
texts of the types that it has visited, and looks into no text twice.

* `Payload.walkTypeWithin` is this recursion, for a number of calls inside each other.
* `Payload.exists_walkTypeWithin`: it comes to its end, and finds what `Payload.walk` finds. Types
  are resolved without type arguments, so only the texts of `Payload.candidates` can come up, also
  where a generic type holds itself with other arguments.
* `Package.following_ends` puts together how declarations are followed: the loops and the walk come
  to their end, the type found is not one of the package, and aliases end at once where they end.
-/

namespace GoPages

namespace Payload

variable {p : Package} {event : String} {t root : HostType} {texts visited after : List String}
  {n : ℕ}

/-! ### The recursion -/

/-- The findings about items in turn and the texts that are visited after them, given those for a
type. -/
def walkItems (event : String)
    (walkType : List String → HostType → Option (List AnalysisError × List String)) :
    List Item → List String → Option (List AnalysisError × List String)
  | [], visited => some ([], visited)
  | item :: items, visited =>
    match walkType visited item.target with
    | none => none
    | some (es, visited) =>
      match walkItems event walkType items visited with
      | none => none
      | some (others, visited) => some (item.errors event ++ es ++ others, visited)

/-- The findings of a walk from a type and the texts that are visited after it, if it takes fewer
than `n` calls inside each other. -/
def walkTypeWithin (p : Package) (event : String) :
    ℕ → List String → HostType → Option (List AnalysisError × List String)
  | 0, _, _ => none
  | n + 1, visited, t =>
    if t.render ∈ visited then some ([], visited)
    else walkItems event (walkTypeWithin p event n) (inside p t) (t.render :: visited)

/-! ### Texts that have been visited -/

/-- The texts that have not been visited. -/
def unvisited (texts visited : List String) : List String := texts.filter (· ∉ visited)

private theorem without_unvisited (text : String) (texts visited : List String) :
    without text (unvisited texts visited) = unvisited texts (text :: visited) := by
  rw [without, unvisited, List.filter_filter, unvisited]
  refine List.filter_congr fun s _ => ?_
  by_cases hs : s = text <;> simp [hs]

/-- Visiting more leaves no more to visit. -/
private theorem length_unvisited_le (texts : List String) (h : visited ⊆ after) :
    (unvisited texts after).length ≤ (unvisited texts visited).length := by
  refine List.Sublist.length_le (List.monotone_filter_right texts fun s hs => ?_)
  simp only [decide_eq_true_eq] at hs ⊢
  exact fun hmem => hs (h hmem)

/-- A text that is visited for the first time leaves fewer to visit. -/
private theorem length_unvisited_cons_lt {text : String} (htext : text ∈ texts)
    (h : text ∉ visited) :
    (unvisited texts (text :: visited)).length < (unvisited texts visited).length := by
  rw [← without_unvisited]
  exact length_without_lt (List.mem_filter.mpr ⟨htext, by simpa using h⟩)

/-! ### The recursion comes to its end -/

/-- An item comes before its type. -/
theorem walk_cons (p : Package) (event : String) (fresh : List String) (item : Item)
    (rest : List Item) : walk p event fresh (item :: rest) =
      item.errors event ++ walk p event fresh (.type item.target :: rest) := by
  cases item with
  | field f => rw [walk, Item.errors, Item.target]
  | type t => rw [Item.errors, Item.target, List.nil_append]

/-- The result of a recursion over items is that of the walk, whatever comes after them, where the
texts that are not visited are the fresh ones. -/
def WalksAs (p : Package) (event : String) (texts visited : List String) (items : List Item)
    (result : Option (List AnalysisError × List String)) : Prop :=
  ∃ es after, result = some (es, after) ∧ visited ⊆ after ∧ ∀ rest,
    walk p event (unvisited texts visited) (items ++ rest) =
      es ++ walk p event (unvisited texts after) rest

/-- A recursion over items goes as the walk does if it does so for their types. -/
theorem walksAs_walkItems
    {walkType : List String → HostType → Option (List AnalysisError × List String)}
    (items : List Item) (hlen : (unvisited texts visited).length < n)
    (hone : ∀ item ∈ items, ∀ visited, (unvisited texts visited).length < n →
      WalksAs p event texts visited [.type item.target] (walkType visited item.target)) :
    WalksAs p event texts visited items (walkItems event walkType items visited) := by
  induction items generalizing visited with
  | nil => exact ⟨[], visited, rfl, List.Subset.refl _, fun rest => rfl⟩
  | cons item items ih =>
    obtain ⟨hitem, hitems⟩ := List.forall_mem_cons.mp hone
    obtain ⟨es, mid, hes, hmid, hwalk⟩ := hitem visited hlen
    have hlen' := length_unvisited_le texts hmid
    obtain ⟨others, after, hothers, hafter, hwalk'⟩ := ih (Nat.lt_of_le_of_lt hlen' hlen) hitems
    refine ⟨item.errors event ++ es ++ others, after, ?_, List.Subset.trans hmid hafter,
      fun rest => ?_⟩
    · simp only [walkItems, hes, hothers]
    · -- what comes after the first item are the other items and then the rest
      have hfirst := hwalk (items ++ rest)
      rw [List.singleton_append] at hfirst
      rw [List.cons_append, walk_cons, hfirst, hwalk', List.append_assoc, List.append_assoc]

/-- The recursion from a type goes as the walk does, in one call more than there are texts that have
not been visited. -/
theorem walksAs_walkTypeWithin (ht : t ∈ candidates p root)
    (hlen : (unvisited ((candidates p root).map HostType.render) visited).length < n) :
    WalksAs p event ((candidates p root).map HostType.render) visited [.type t]
      (walkTypeWithin p event n visited t) := by
  induction n generalizing visited t with
  | zero => omega
  | succ n ih =>
    have htext : t.render ∈ (candidates p root).map HostType.render := List.mem_map_of_mem ht
    rw [walkTypeWithin]
    by_cases hmem : t.render ∈ visited
    · rw [if_pos hmem]
      refine ⟨[], visited, rfl, List.Subset.refl _, fun rest => ?_⟩
      have hnot : t.render ∉ unvisited ((candidates p root).map HostType.render) visited := by
        simp [unvisited, hmem]
      rw [List.singleton_append, walk, if_neg hnot, List.nil_append]
    · -- the text is new: it is visited from here on, so that its items have one call fewer
      rw [if_neg hmem]
      have hlt := length_unvisited_cons_lt htext hmem
      have hitems : WalksAs p event ((candidates p root).map HostType.render)
          (t.render :: visited) (inside p t)
          (walkItems event (walkTypeWithin p event n) (inside p t) (t.render :: visited)) := by
        refine walksAs_walkItems (inside p t) (Nat.lt_of_lt_of_le hlt (Nat.le_of_lt_succ hlen))
          fun item hitem visited hlen => ih (mem_candidates_of_mem_next ht ?_) hlen
        exact map_target_inside p t ▸ List.mem_map_of_mem hitem
      obtain ⟨es, after, hes, hafter, hwalk⟩ := hitems
      refine ⟨es, after, hes, fun s hs => hafter (List.mem_cons_of_mem _ hs), fun rest => ?_⟩
      have hfresh : t.render ∈ unvisited ((candidates p root).map HostType.render) visited :=
        List.mem_filter.mpr ⟨htext, by simpa using hmem⟩
      rw [List.singleton_append, walk, if_pos hfresh, without_unvisited, hwalk]

/-- **The recursion comes to its end** and gives the findings of a check, in one call more than
there are types that can come up. -/
theorem exists_walkTypeWithin (event : String) (h : (candidates p root).length < n) :
    ∃ after, walkTypeWithin p event n [] root = some (check p event root, after) := by
  have hunvisited : unvisited ((candidates p root).map HostType.render) [] =
      (candidates p root).map HostType.render := by
    simp [unvisited]
  have hroot : root ∈ candidates p root := List.mem_append_left _ root.mem_parts_self
  have hlen : (unvisited ((candidates p root).map HostType.render) []).length < n := by
    rwa [hunvisited, List.length_map]
  obtain ⟨es, after, hes, -, hwalk⟩ :
      WalksAs p event _ [] [.type root] (walkTypeWithin p event n [] root) :=
    walksAs_walkTypeWithin hroot hlen
  refine ⟨after, ?_⟩
  have hcheck := hwalk []
  rw [hunvisited, List.append_nil, walk, List.append_nil] at hcheck
  rw [hes, check, hcheck]

end Payload

namespace Package

/-- **Following declarations ends.** For every type the loop for what it stands for, the loop for
what its aliases end in, and the walk through its fields come to their end, within bounds that the
package gives. What the type stands for is not a type of the package, and what its aliases end in
they end in at once. -/
theorem following_ends (p : Package) (t : HostType) :
    (∀ n, p.typeDecls.length < n → p.underlyingWithin n [] t = some (p.underlying t) ∧
      p.unaliasWithin n [] t = some (p.unalias t)) ∧
    (∀ event n, (Payload.candidates p t).length < n →
      ∃ after, Payload.walkTypeWithin p event n [] t = some (Payload.check p event t, after)) ∧
    (p.underlying t).localName = none ∧ p.unalias (p.unalias t) = p.unalias t := by
  refine ⟨fun n hn => ?_, fun event n => Payload.exists_walkTypeWithin event,
    Payload.localName_underlyingFrom p _ t, p.unalias_unalias t⟩
  rw [← unseen_nil] at hn
  rw [underlying, unalias, ← unseen_nil]
  exact ⟨underlyingWithin_eq hn, unaliasWithin_eq hn⟩

/-- A generic type that holds itself with ever longer type arguments, and aliases and types that
lead to each other or to themselves. -/
def endlessTypes : List (String × List String) :=
  [("app.go",
    ["package app", "type Box[T any] struct\x7b V T; Next *Box[[]T] \x7d", "type Left = Right",
      "type Right = Left", "type Self Self", "type Even struct\x7b Odd *Odd \x7d",
      "type Odd struct\x7b Even Even \x7d"])]

set_option maxRecDepth 100000 in
/-- Types that hold themselves and aliases that go round: one round more than there are declarations
is enough for them. -/
theorem following_ends_endlessTypes : ∃ p, Package.load (sourcesOf endlessTypes) = .ok p ∧
    ∀ d ∈ p.typeDecls, ∀ args,
      p.underlyingWithin 7 [] (.named "" d.name args) =
        some (p.underlying (.named "" d.name args)) ∧
      p.unaliasWithin 7 [] (.named "" d.name args) = some (p.unalias (.named "" d.name args)) ∧
      ∃ after, Payload.walkTypeWithin p d.name 30 [] (.named "" d.name []) =
        some (Payload.check p d.name (.named "" d.name []), after) := by
  have hall : ((Package.load (sourcesOf endlessTypes)).toOption.any fun p =>
      p.typeDecls.length == 6 && p.typeDecls.all fun d =>
        (Payload.candidates p (.named "" d.name [])).length < 30) = true := by
    rw [Package.load_sourcesOf]
    decide +kernel
  cases hload : Package.load (sourcesOf endlessTypes) with
  | error e =>
    rw [hload] at hall
    cases hall
  | ok p =>
    rw [hload, Except.toOption, Option.any_some] at hall
    simp only [Bool.and_eq_true, beq_iff_eq, List.all_eq_true, decide_eq_true_eq] at hall
    obtain ⟨hdecls, htypes⟩ := hall
    refine ⟨p, rfl, fun d hd args => ?_⟩
    have hwalk := (p.following_ends (.named "" d.name [])).2.1 d.name 30 (htypes d hd)
    obtain ⟨hunderlying, hunalias⟩ := (p.following_ends (.named "" d.name args)).1 7 (by omega)
    exact ⟨hunderlying, hunalias, hwalk⟩

end Package

end GoPages

import GoPages.Owner.Attach

/-!
# Method names under the default conventions

The default conventions tell methods apart by how their names begin, and no name begins in two of
these ways.

* `Method.isGet`, `Method.isAction` and `Method.isEventHandler` look at nothing but the name.
* `Method.kind_cases` are the meanings that a name can have, each with its beginning.
* So what a setting asks of a name is asked of its beginning: `Setting.any_request?_get`,
  `Setting.any_request?_action` and `Setting.isSome_eventSuffix?`.
-/

namespace GoPages

/-! ### Beginnings -/

/-- Does the name start with this text? -/
def startsWith (start name : String) : Bool := start.toList.isPrefixOf name.toList

/-- A name starts with a prefix if the prefix is followed by some rest. -/
theorem startsWith_iff {start name : String} :
    startsWith start name ↔ ∃ rest, name.toList = start.toList ++ rest := by
  rw [startsWith, List.isPrefixOf_iff_prefix]
  exact exists_congr fun rest => eq_comm

/-- There is a suffix exactly if the name starts with the prefix. -/
theorem isSome_suffixAfter? (start name : String) :
    (suffixAfter? start name).isSome = startsWith start name := by
  rw [Bool.eq_iff_iff, startsWith_iff, suffixAfter?, Option.isSome_map, Option.isSome_iff_exists]
  exact exists_congr fun rest => Text.strip?_eq_some_iff

/-- There is no suffix exactly if the name does not start with the prefix. -/
theorem suffixAfter?_eq_none_iff {start name : String} :
    suffixAfter? start name = none ↔ startsWith start name = false := by
  rw [← isSome_suffixAfter?, Option.isSome_eq_false_iff, Option.isNone_iff_eq_none]

/-- A name starts with the first character of its beginning. -/
theorem head?_of_startsWith {start name : String} (h : startsWith start name) {c : Char}
    (hc : start.toList.head? = some c) : name.toList.head? = some c := by
  obtain ⟨rest, hrest⟩ := startsWith_iff.mp h
  rw [hrest, List.head?_append, hc]
  rfl

/-- No name starts in two ways. -/
theorem startsWith_eq_false {start other name : String} (h : startsWith other name) {c d : Char}
    (hc : start.toList.head? = some c) (hd : other.toList.head? = some d) (hne : c ≠ d) :
    startsWith start name = false := by
  refine Bool.eq_false_iff.mpr fun hstart => ?_
  have hname := head?_of_startsWith hstart hc
  rw [head?_of_startsWith h hd, Option.some.injEq] at hname
  exact hne hname.symm

/-! ### Methods by their beginnings -/

namespace Method

/-- Is the method called `GET`? -/
def isGet (m : Method) : Bool := m.name == "GET"

/-- Does the name of the method start with a verb of an action? -/
def isAction (m : Method) : Bool := ["POST", "PUT", "DELETE"].any fun verb => startsWith verb m.name

/-- Does the name of the method start with `On`? -/
def isEventHandler (m : Method) : Bool := startsWith "On" m.name

variable {m : Method}

private theorem isAction_iff :
    m.isAction ↔ ∃ verb ∈ Conventions.standard.actionVerbs, startsWith verb m.name :=
  List.any_eq_true

/-- A verb starts with `D` or with `P`. -/
theorem head?_of_mem_actionVerbs {verb : String} (h : verb ∈ Conventions.standard.actionVerbs) :
    ∃ c : Char, verb.toList.head? = some c ∧ c.isUpper ∧ c ≠ 'O' := by
  have hverb : verb = "POST" ∨ verb = "PUT" ∨ verb = "DELETE" := by
    simpa [Conventions.standard] using h
  rcases hverb with rfl | rfl | rfl
  · exact ⟨'P', by decide⟩
  · exact ⟨'P', by decide⟩
  · exact ⟨'D', by decide⟩

end Method

namespace Conventions

/-- Sorting the verbs by length leaves no verb out. -/
theorem mem_verbs_iff {c : Conventions} {verb : String} : verb ∈ c.verbs ↔ verb ∈ c.actionVerbs :=
  (sortBy_perm _ _).mem_iff

private theorem exists_of_actionOf? {name : String} {verbs : List String} {found : String × String}
    (h : actionOf? name verbs = some found) : found.1 ∈ verbs ∧ startsWith found.1 name := by
  obtain ⟨verb, hverb, hsuffix⟩ := List.exists_of_findSome?_eq_some h
  obtain ⟨suffix, hsome, rfl⟩ := Option.map_eq_some_iff.mp hsuffix
  exact ⟨hverb, by rw [← isSome_suffixAfter?, hsome, Option.isSome_some]⟩

/-- No verb is found exactly if the name starts with none. -/
theorem actionOf?_eq_none_iff {name : String} {verbs : List String} :
    actionOf? name verbs = none ↔ ∀ verb ∈ verbs, startsWith verb name = false := by
  simp [actionOf?, List.findSome?_eq_none_iff, suffixAfter?_eq_none_iff]

/-- A name that starts with a capital and is not that of a GET means an action or an event
handler. -/
theorem methodKind_of_isUpper {c : Conventions} {name : String} {first : Char}
    (hfirst : name.toList.head? = some first) (hupper : first.isUpper)
    (hget : name ≠ c.getMethod) :
    c.methodKind name =
      match actionOf? name c.verbs with
      | some (verb, suffix) => .action verb suffix
      | none =>
        match suffixAfter? c.eventHandlerPrefix name with
        | some suffix => .eventHandler suffix
        | none => .ignored := by
  rw [methodKind, hfirst]
  exact (if_neg (by simp [hupper])).trans (if_neg hget)

end Conventions

open Conventions in
/-- The meanings of a method name under the default conventions, and how the name begins then. -/
theorem Method.kind_cases (m : Method) :
    (standard.methodKind m.name = .get ∧
      m.isGet ∧ m.isAction = false ∧ m.isEventHandler = false) ∨
    (∃ verb ∈ standard.actionVerbs, ∃ suffix, standard.methodKind m.name = .action verb suffix ∧
      m.isGet = false ∧ m.isAction ∧ m.isEventHandler = false) ∨
    (∃ suffix, standard.methodKind m.name = .eventHandler suffix ∧
      m.isGet = false ∧ m.isAction = false ∧ m.isEventHandler) ∨
    (standard.methodKind m.name = .ignored ∧
      m.isGet = false ∧ m.isAction = false ∧ m.isEventHandler = false) := by
  by_cases hname : m.name = "GET"
  · refine .inl ?_
    rw [isGet, isAction, isEventHandler, hname]
    decide
  have hget : m.isGet = false := by simpa [isGet] using hname
  cases haction : actionOf? m.name standard.verbs with
  | some found =>
    -- a verb starts with another letter than `GET` and `On`
    obtain ⟨hverb, hstart⟩ := exists_of_actionOf? haction
    rw [mem_verbs_iff] at hverb
    obtain ⟨c, hc, hupper, hO⟩ := head?_of_mem_actionVerbs hverb
    have hkind :=
      methodKind_of_isUpper (c := standard) (head?_of_startsWith hstart hc) hupper hname
    rw [haction] at hkind
    exact .inr (.inl ⟨found.1, hverb, found.2, hkind, hget, isAction_iff.mpr ⟨_, hverb, hstart⟩,
      startsWith_eq_false hstart rfl hc hO.symm⟩)
  | none =>
    have hnone : m.isAction = false := by
      rw [Bool.eq_false_iff, ne_eq, isAction_iff]
      rintro ⟨verb, hverb, hstart⟩
      simp [actionOf?_eq_none_iff.mp haction verb (mem_verbs_iff.mpr hverb)] at hstart
    cases hon : suffixAfter? standard.eventHandlerPrefix m.name with
    | some suffix =>
      have hevent : m.isEventHandler := by
        rw [isEventHandler, ← isSome_suffixAfter?]
        exact Option.isSome_of_eq_some hon
      have hkind := methodKind_of_isUpper (c := standard) (head?_of_startsWith hevent rfl) rfl hname
      rw [haction, hon] at hkind
      exact .inr (.inr (.inl ⟨suffix, hkind, hget, hnone, hevent⟩))
    | none =>
      refine .inr (.inr (.inr ⟨?_, hget, hnone, suffixAfter?_eq_none_iff.mp hon⟩))
      -- whether the name starts with a capital or not
      rw [methodKind, if_neg (c := m.name = standard.getMethod) hname, haction, hon]
      split <;> rfl

/-! ### Methods in a setting -/

/-- The verbs of actions stand for methods of HTTP other than GET. -/
theorem exists_ofVerb?_of_mem {verb : String} (h : verb ∈ Conventions.standard.actionVerbs) :
    ∃ method, HttpMethod.ofVerb? verb = some method ∧ method ≠ .get := by
  have hverb : verb = "POST" ∨ verb = "PUT" ∨ verb = "DELETE" := by
    simpa [Conventions.standard] using h
  rcases hverb with rfl | rfl | rfl
  · exact ⟨.post, rfl, by decide⟩
  · exact ⟨.put, rfl, by decide⟩
  · exact ⟨.delete, rfl, by decide⟩

namespace Setting

variable {s : Setting} (hstd : s.conventions = .standard) (m : Method)
include hstd

/-- A setting takes a method for the GET exactly if it has this name. -/
theorem any_request?_get : (s.request? m.name).any (fun r => r.1 = .get) = m.isGet := by
  rw [request?, hstd]
  rcases m.kind_cases with ⟨hkind, hget, -⟩ | ⟨verb, hverb, suffix, hkind, hget, -⟩ |
    ⟨suffix, hkind, hget, -⟩ | ⟨hkind, hget, -⟩
  · simp [hkind, hget]
  · obtain ⟨method, hmethod, hne⟩ := exists_ofVerb?_of_mem hverb
    simp [hkind, hget, hmethod, hne]
  · simp [hkind, hget]
  · simp [hkind, hget]

/-- A setting takes a method for an action exactly if its name starts with a verb. -/
theorem any_request?_action : (s.request? m.name).any (fun r => r.1 ≠ .get) = m.isAction := by
  rw [request?, hstd]
  rcases m.kind_cases with ⟨hkind, -, haction, -⟩ | ⟨verb, hverb, suffix, hkind, -, haction, -⟩ |
    ⟨suffix, hkind, -, haction, -⟩ | ⟨hkind, -, haction, -⟩
  · simp [hkind, haction]
  · obtain ⟨method, hmethod, hne⟩ := exists_ofVerb?_of_mem hverb
    simp [hkind, haction, hmethod, hne]
  · simp [hkind, haction]
  · simp [hkind, haction]

/-- A setting takes a method for an event handler exactly if its name starts with the prefix. -/
theorem isSome_eventSuffix? : (s.eventSuffix? m.name).isSome = m.isEventHandler := by
  rw [eventSuffix?, hstd]
  rcases m.kind_cases with ⟨hkind, -, -, hevent⟩ | ⟨verb, -, suffix, hkind, -, -, hevent⟩ |
    ⟨suffix, hkind, -, -, hevent⟩ | ⟨hkind, -, -, hevent⟩ <;> simp [hkind, hevent]

end Setting

end GoPages

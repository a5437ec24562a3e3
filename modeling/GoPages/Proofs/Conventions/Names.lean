import Mathlib.Data.Prod.Lex
import Mathlib.Data.String.Basic
import GoPages.Proofs.Conventions.Patterns
import GoPages.Proofs.Sorting

/-!
# What conventions say about names

Any texts may be the verbs of actions, and a name may start with several of them. The longest of
these counts (`Conventions.actionOf?_verbs_eq_some_iff`), and there is only one of this length. So
what a name means depends on which verbs there are, but not on their order or on how often they
occur (`Conventions.methodKind_congr`).

Any text may be the beginning of valid names, too. A name is valid for it exactly if the pattern
that is made from it finds the name (`Conventions.judges_names`).
-/

namespace GoPages

/-- A name with a prefix is the prefix and its suffix. -/
private theorem suffixAfter?_eq_some_iff {start name suffix : String} :
    suffixAfter? start name = some suffix ↔ name = start ++ suffix := by
  rw [suffixAfter?, Option.map_eq_some_iff]
  simp only [Text.strip?_eq_some_iff]
  constructor
  · rintro ⟨rest, hname, rfl⟩
    rw [← String.toList_inj, hname, String.toList_append, String.toList_ofList]
  · rintro rfl
    exact ⟨suffix.toList, String.toList_append, String.ofList_toList⟩

/-- The name starts with a capital in ASCII. -/
def StartsUpper (name : String) : Prop :=
  ∃ first rest, name.toList = first :: rest ∧ 'A' ≤ first ∧ first ≤ 'Z'

/-- What counts is the first character, and that it is a capital in ASCII. -/
private theorem startsUpper_iff {name : String} :
    StartsUpper name ↔ (name.toList.head?.map Char.isUpper).getD false := by
  rw [StartsUpper]
  cases name.toList with
  | nil => simp
  | cons c cs => simp [isUpper_iff]

namespace Conventions

variable {c : Conventions} {name : String}

/-! ### The longest verb -/

/-- The key by which verbs are sorted: longer ones first, and then by the alphabet. -/
def verbKey (verb : String) : Natᵒᵈ ×ₗ String := toLex (OrderDual.toDual verb.utf8ByteSize, verb)

/-- A verb stands after those that are longer. -/
theorem pairwise_verbs (c : Conventions) :
    c.verbs.Pairwise fun v w => w.utf8ByteSize ≤ v.utf8ByteSize := by
  have hle : ∀ v w : String, (w.utf8ByteSize < v.utf8ByteSize ||
      (v.utf8ByteSize == w.utf8ByteSize && !decide (w < v))) = true ↔ verbKey v ≤ verbKey w := by
    intro v w
    simp only [verbKey, Prod.Lex.toLex_le_toLex, OrderDual.toDual_lt_toDual, OrderDual.toDual_inj,
      Bool.or_eq_true, Bool.and_eq_true, beq_iff_eq, Bool.not_eq_true', decide_eq_true_eq,
      decide_eq_false_iff_not, not_lt]
  refine (pairwise_sortBy hle c.actionVerbs).imp fun {v w} h => ?_
  rw [verbKey, verbKey, Prod.Lex.toLex_le_toLex] at h
  rcases h with h | ⟨h, -⟩
  · exact le_of_lt (OrderDual.toDual_lt_toDual.mp h)
  · exact le_of_eq (OrderDual.toDual_inj.mp h).symm

/-- Of two beginnings of a name, the one with more characters has more bytes. -/
theorem length_le_of_startsWith {v w : String} (hv : startsWith v name) (hw : startsWith w name)
    (hsize : w.utf8ByteSize ≤ v.utf8ByteSize) : w.length ≤ v.length := by
  rw [startsWith, List.isPrefixOf_iff_prefix] at hv hw
  rw [← String.length_toList, ← String.length_toList]
  rcases List.prefix_or_prefix_of_prefix hw hv with hprefix | ⟨rest, hrest⟩
  · exact hprefix.length_le
  · have heq : w = v ++ String.ofList rest := by
      rw [← String.toList_inj, String.toList_append, String.toList_ofList, hrest]
    rw [heq, String.utf8ByteSize_append] at hsize
    have hnil : String.ofList rest = "" := String.utf8ByteSize_eq_zero_iff.mp (by omega)
    rw [heq, hnil, String.append_empty]

/-- A name has one beginning of each length. -/
private theorem eq_of_startsWith {v w : String} (hv : startsWith v name) (hw : startsWith w name)
    (hlength : v.length = w.length) : v = w := by
  rw [startsWith, List.isPrefixOf_iff_prefix] at hv hw
  rw [← String.length_toList, ← String.length_toList] at hlength
  exact String.toList_inj.mp
    ((List.prefix_of_prefix_length_le hv hw hlength.le).eq_of_length hlength)

private theorem startsWith_append (start suffix : String) : startsWith start (start ++ suffix) :=
  startsWith_iff.mpr ⟨suffix.toList, String.toList_append⟩

/-- The first verb of a name has no longer one before it. -/
theorem longest_of_actionOf? {verb suffix : String}
    (h : actionOf? name c.verbs = some (verb, suffix)) :
    verb ∈ c.actionVerbs ∧ name = verb ++ suffix ∧
      ∀ w ∈ c.actionVerbs, startsWith w name → w.length ≤ verb.length := by
  obtain ⟨before, v, after, hverbs, hv, hbefore⟩ := List.findSome?_eq_some_iff.mp h
  obtain ⟨rest, hrest, heq⟩ := Option.map_eq_some_iff.mp hv
  obtain ⟨rfl, rfl⟩ := Prod.mk.inj heq
  have hname := suffixAfter?_eq_some_iff.mp hrest
  refine ⟨mem_verbs_iff.mp (by simp [hverbs]), hname, fun w hw hstart => ?_⟩
  rw [← mem_verbs_iff, hverbs, List.mem_append, List.mem_cons] at hw
  rcases hw with hw | rfl | hw
  · -- the name starts with no verb before this one
    have hnone := Option.map_eq_none_iff.mp (hbefore w hw)
    rw [suffixAfter?_eq_none_iff.mp hnone] at hstart
    cases hstart
  · exact le_rfl
  · have hpairwise := pairwise_verbs c
    rw [hverbs, List.pairwise_append, List.pairwise_cons] at hpairwise
    obtain ⟨-, ⟨hafter, -⟩, -⟩ := hpairwise
    exact length_le_of_startsWith (hname ▸ startsWith_append v rest) hstart (hafter w hw)

/-- **The verb of a name** is the longest one that it starts with. -/
theorem actionOf?_verbs_eq_some_iff {verb suffix : String} :
    actionOf? name c.verbs = some (verb, suffix) ↔ verb ∈ c.actionVerbs ∧ name = verb ++ suffix ∧
      ∀ w ∈ c.actionVerbs, startsWith w name → w.length ≤ verb.length := by
  refine ⟨longest_of_actionOf?, ?_⟩
  rintro ⟨hmem, hname, hmost⟩
  have hstart : startsWith verb name := hname ▸ startsWith_append verb suffix
  cases hfound : actionOf? name c.verbs with
  | none =>
    rw [actionOf?_eq_none_iff.mp hfound verb (mem_verbs_iff.mpr hmem)] at hstart
    cases hstart
  | some found =>
    obtain ⟨hmem', hname', hmost'⟩ := longest_of_actionOf? hfound
    have hstart' : startsWith found.1 name := hname' ▸ startsWith_append found.1 found.2
    have heq : found.1 = verb := eq_of_startsWith hstart' hstart
      (le_antisymm (hmost _ hmem' hstart') (hmost' _ hmem hstart))
    rw [hname, heq, ← String.toList_inj, String.toList_append, String.toList_append] at hname'
    have hsuffix : found.2 = suffix := String.toList_inj.mp (List.append_cancel_left hname').symm
    rw [← heq, ← hsuffix]

/-! ### What names mean -/

/-- The name means an action with the verb. -/
structure MeansAction (c : Conventions) (name verb suffix : String) : Prop where
  upper : StartsUpper name
  ne_get : name ≠ c.getMethod
  eq : name = verb ++ suffix
  mem : verb ∈ c.actionVerbs
  longest : ∀ w ∈ c.actionVerbs, verb.length < w.length → ¬ startsWith w name

/-- The name means an event handler. -/
structure MeansEventHandler (c : Conventions) (name suffix : String) : Prop where
  upper : StartsUpper name
  ne_get : name ≠ c.getMethod
  eq : name = c.eventHandlerPrefix ++ suffix
  noVerb : ∀ w ∈ c.actionVerbs, ¬ startsWith w name

private theorem methodKind_of_not_startsUpper (h : ¬ StartsUpper name) :
    c.methodKind name = .ignored := by
  rw [startsUpper_iff] at h
  rw [methodKind, if_pos (by simpa using h)]

private theorem methodKind_of_startsUpper (h : StartsUpper name) (hget : name ≠ c.getMethod) :
    c.methodKind name =
      match actionOf? name c.verbs with
      | some (verb, suffix) => .action verb suffix
      | none =>
        match suffixAfter? c.eventHandlerPrefix name with
        | some suffix => .eventHandler suffix
        | none => .ignored := by
  obtain ⟨first, rest, hname, hfirst⟩ := h
  exact methodKind_of_isUpper (by rw [hname]; rfl) (isUpper_iff.mpr hfirst) hget

/-- The name of an action is a capitalized name other than that of the GET, and the longest verb
that it starts with is taken off. -/
private theorem meansAction_iff {verb suffix : String} :
    c.MeansAction name verb suffix ↔
      StartsUpper name ∧ name ≠ c.getMethod ∧ actionOf? name c.verbs = some (verb, suffix) := by
  rw [actionOf?_verbs_eq_some_iff]
  constructor
  · rintro ⟨hupper, hget, hname, hmem, hlongest⟩
    exact ⟨hupper, hget, hmem, hname, fun w hw hstart =>
      not_lt.mp fun hlonger => hlongest w hw hlonger hstart⟩
  · rintro ⟨hupper, hget, hmem, hname, hmost⟩
    exact ⟨hupper, hget, hname, hmem, fun w hw hlonger hstart =>
      absurd (hmost w hw hstart) (not_le.mpr hlonger)⟩

/-- The name of an event handler starts with the prefix and with no verb. -/
private theorem meansEventHandler_iff {suffix : String} :
    c.MeansEventHandler name suffix ↔ StartsUpper name ∧ name ≠ c.getMethod ∧
      actionOf? name c.verbs = none ∧ suffixAfter? c.eventHandlerPrefix name = some suffix := by
  rw [actionOf?_eq_none_iff, suffixAfter?_eq_some_iff]
  simp only [mem_verbs_iff, ← Bool.not_eq_true]
  exact ⟨fun ⟨hupper, hget, hname, hnone⟩ => ⟨hupper, hget, hnone, hname⟩,
    fun ⟨hupper, hget, hnone, hname⟩ => ⟨hupper, hget, hname, hnone⟩⟩

/-- The meanings of a name, and what each asks of it. -/
theorem methodKind_cases (c : Conventions) (name : String) :
    c.methodKind name = .ignored ∨
    (name = c.getMethod ∧ c.methodKind name = .get) ∨
    (∃ verb suffix, c.MeansAction name verb suffix ∧ c.methodKind name = .action verb suffix) ∨
    ∃ suffix, c.MeansEventHandler name suffix ∧ c.methodKind name = .eventHandler suffix := by
  by_cases hupper : StartsUpper name
  · by_cases hget : name = c.getMethod
    · refine .inr (.inl ⟨hget, ?_⟩)
      rw [methodKind, if_neg (by simpa using startsUpper_iff.mp hupper), if_pos hget]
    have hkind := methodKind_of_startsUpper hupper hget
    cases haction : actionOf? name c.verbs with
    | some found =>
      rw [haction] at hkind
      exact .inr (.inr (.inl
        ⟨found.1, found.2, meansAction_iff.mpr ⟨hupper, hget, haction⟩, hkind⟩))
    | none =>
      rw [haction] at hkind
      cases hevent : suffixAfter? c.eventHandlerPrefix name with
      | some suffix =>
        rw [hevent] at hkind
        exact .inr (.inr (.inr
          ⟨suffix, meansEventHandler_iff.mpr ⟨hupper, hget, haction, hevent⟩, hkind⟩))
      | none =>
        rw [hevent] at hkind
        exact .inl hkind
  · exact .inl (methodKind_of_not_startsUpper hupper)

private theorem methodKind_eq_action_iff {verb suffix : String} :
    c.methodKind name = .action verb suffix ↔ c.MeansAction name verb suffix := by
  constructor
  · intro h
    rcases methodKind_cases c name with hkind | ⟨-, hkind⟩ | ⟨v, s, hmeans, hkind⟩ | ⟨s, -, hkind⟩
    · cases hkind.symm.trans h
    · cases hkind.symm.trans h
    · cases hkind.symm.trans h
      exact hmeans
    · cases hkind.symm.trans h
  · intro h
    obtain ⟨hupper, hget, haction⟩ := meansAction_iff.mp h
    rw [methodKind_of_startsUpper hupper hget, haction]

private theorem methodKind_eq_eventHandler_iff {suffix : String} :
    c.methodKind name = .eventHandler suffix ↔ c.MeansEventHandler name suffix := by
  constructor
  · intro h
    rcases methodKind_cases c name with hkind | ⟨-, hkind⟩ | ⟨v, s, -, hkind⟩ | ⟨s, hmeans, hkind⟩
    · cases hkind.symm.trans h
    · cases hkind.symm.trans h
    · cases hkind.symm.trans h
    · cases hkind.symm.trans h
      exact hmeans
  · intro h
    obtain ⟨hupper, hget, haction, hevent⟩ := meansEventHandler_iff.mp h
    rw [methodKind_of_startsUpper hupper hget, haction, hevent]

/-! ### Other lists of the verbs -/

/-- The longest verb is the same for all lists of the same verbs. -/
private theorem actionOf?_verbs_congr {verbs : List String}
    (h : ∀ v, v ∈ verbs ↔ v ∈ c.actionVerbs) :
    actionOf? name (Conventions.verbs { c with actionVerbs := verbs }) =
      actionOf? name c.verbs := by
  ext ⟨verb, suffix⟩
  rw [actionOf?_verbs_eq_some_iff, actionOf?_verbs_eq_some_iff]
  simp only [h]

/-- **Only which verbs there are** matters for what a name means. -/
theorem methodKind_congr {verbs : List String} (h : ∀ v, v ∈ verbs ↔ v ∈ c.actionVerbs) :
    methodKind { c with actionVerbs := verbs } name = c.methodKind name := by
  rw [methodKind, methodKind, actionOf?_verbs_congr h]

private theorem isValidActionName_congr {verbs : List String}
    (h : ∀ v, v ∈ verbs ↔ v ∈ c.actionVerbs) (verb : String) :
    isValidActionName { c with actionVerbs := verbs } verb name =
      c.isValidActionName verb name := by
  have hcontains : verbs.contains verb = c.actionVerbs.contains verb := by
    rw [Bool.eq_iff_iff, List.contains_iff_mem, List.contains_iff_mem]
    exact h verb
  rw [isValidActionName, isValidActionName, hcontains]

end Conventions

/-! ### All names -/

open Conventions Pattern

/-- **What names mean** under any conventions. A method name means an action exactly if it starts
with a capital, is not the name of a GET, and starts with a verb; it means the longest one. It means
an event handler only if it starts with no verb, and nothing if it does not start with a capital. In
which order the verbs stand and how often does not matter. A name is valid for a beginning exactly
if it goes on with a capital and then with letters and digits, and so says every library of patterns
of the pattern that is made from this beginning, unless it refuses the pattern. -/
theorem Conventions.judges_names (c : Conventions) (name : String) :
    (∀ verb suffix, c.methodKind name = .action verb suffix ↔ c.MeansAction name verb suffix) ∧
    (∀ suffix, c.methodKind name = .eventHandler suffix ↔ c.MeansEventHandler name suffix) ∧
    (¬ StartsUpper name → c.methodKind name = .ignored) ∧
    (∀ verbs, (∀ v, v ∈ verbs ↔ v ∈ c.actionVerbs) →
      methodKind { c with actionVerbs := verbs } name = c.methodKind name ∧
      ∀ verb, isValidActionName { c with actionVerbs := verbs } verb name =
        c.isValidActionName verb name) ∧
    (∀ library : Library, library.IsDocumented → ∀ (start : String) (finds : List Char → Bool),
      library.compile? (library.namePattern start.toList) = some finds →
        (finds name.toList ↔ IsNameAfter start.toList name.toList) ∧
        (isCapitalized start name ↔ IsNameAfter start.toList name.toList)) ∧
    (c.isValidPageName name ↔ IsNameAfter c.pagePrefix.toList name.toList) ∧
    (c.isValidEventName name ↔ IsNameAfter c.eventPrefix.toList name.toList) ∧
    (c.isValidEventHandlerName name ↔ IsNameAfter c.eventHandlerPrefix.toList name.toList) ∧
    ∀ verb, c.isValidActionName verb name ↔
      verb ∈ c.actionVerbs ∧ IsNameAfter verb.toList name.toList := by
  refine ⟨fun verb suffix => methodKind_eq_action_iff,
    fun suffix => methodKind_eq_eventHandler_iff, methodKind_of_not_startsUpper,
    fun verbs h => ⟨methodKind_congr h, isValidActionName_congr h⟩, ?_, isCapitalized_iff,
    isCapitalized_iff, isCapitalized_iff, fun verb => ?_⟩
  · intro library hlibrary start finds hfinds
    exact ⟨(hlibrary.finds_iff_isCapitalized hfinds name).trans isCapitalized_iff,
      isCapitalized_iff⟩
  · rw [isValidActionName, Bool.and_eq_true, List.contains_iff_mem, isCapitalized_iff]

/-- Verbs that start each other, one of them twice, and with a character that has a meaning in
patterns. -/
def plusVerbs : Conventions :=
  { Conventions.standard with actionVerbs := ["POST", "POST+", "POST"] }

/-- A verb may be one that a pattern would take for an operator, and a verb may start with another
one. -/
theorem Conventions.judges_names_plusVerbs :
    plusVerbs.methodKind "POST+Save" = .action "POST+" "Save" ∧
      methodKind { plusVerbs with actionVerbs := ["POST+", "POST"] } "POST+Save" =
        .action "POST+" "Save" ∧
      plusVerbs.methodKind "save" = .ignored ∧
      ∃ finds, (Library.ofStart "POST+").compile?
          ((Library.ofStart "POST+").namePattern "POST+".toList) = some finds ∧
        finds "POST+Save".toList := by
  obtain ⟨haction, -, -, hverbs, hpattern, -⟩ := judges_names plusVerbs "POST+Save"
  obtain ⟨-, -, hignored, -⟩ := judges_names plusVerbs "save"
  have hmeans : plusVerbs.MeansAction "POST+Save" "POST+" "Save" :=
    { upper := ⟨'P', "OST+Save".toList, rfl, by decide, by decide⟩
      ne_get := by decide
      eq := rfl
      mem := by decide
      longest := by decide }
  have hkind := (haction "POST+" "Save").mpr hmeans
  have hmem : ∀ v, v ∈ ["POST+", "POST"] ↔ v ∈ plusVerbs.actionVerbs := by
    intro v
    simp only [plusVerbs, List.mem_cons, List.not_mem_nil, or_false]
    tauto
  have hsave : ¬ StartsUpper "save" := by
    rw [startsUpper_iff]
    decide
  have hcompile := Library.compile?_ofStart "POST+"
  refine ⟨hkind, (hverbs _ hmem).1.trans hkind, hignored hsave, _, hcompile, ?_⟩
  exact (hpattern _ (Library.isDocumented_ofStart "POST+") "POST+" _ hcompile).1.mpr
    (isCapitalized_iff.mp (by decide))

end GoPages

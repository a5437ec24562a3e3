import Mathlib.Data.List.Basic

/-!
# Tables in which the first entry counts

A table is made of entries in their order, where an entry is passed over if the table has one of its
key.

* `lookup_enterAll`: the table holds the first value of every key.
* `entered` are the items whose entries come into the table: of each key the first one
  (`filter_entered`).
* `repeats` are the entries that are passed over, each with the value that the table has for its
  key: of each key all but the first, with the value of the first (`filter_repeats`).
* `afterFirst` is what is said about the items after the first one, given the first one.
-/

namespace GoPages

variable {α β κ ν : Type} [BEq κ]

/-- The table with a further entry, unless it has one of this key. -/
def enter (table : List (κ × ν)) (entry : κ × ν) : List (κ × ν) :=
  match table.lookup entry.1 with
  | some _ => table
  | none => entry :: table

/-- The table with further entries in their order. -/
def enterAll (table entries : List (κ × ν)) : List (κ × ν) := entries.foldl enter table

/-- The entries that are passed over, each with the value that the table has for its key. -/
def repeats : List (κ × ν) → List (κ × ν) → List ((κ × ν) × ν)
  | _, [] => []
  | table, entry :: entries =>
    match table.lookup entry.1 with
    | some previous => (entry, previous) :: repeats (enter table entry) entries
    | none => repeats (enter table entry) entries

/-- The items whose entries are not passed over. -/
def entered (entryOf : α → κ × ν) : List (κ × ν) → List α → List α
  | _, [] => []
  | table, a :: as =>
    match table.lookup (entryOf a).1 with
    | some _ => entered entryOf (enter table (entryOf a)) as
    | none => a :: entered entryOf (enter table (entryOf a)) as

/-- What is said about the items after the first one, given the first one. -/
def afterFirst (say : α → α → β) : List α → List β
  | [] => []
  | first :: rest => rest.map (say first)

@[simp] theorem length_afterFirst (say : α → α → β) (as : List α) :
    (afterFirst say as).length = as.length - 1 := by
  cases as <;> simp [afterFirst]

/-- What is said of mapped items is said of the items. -/
theorem afterFirst_map (f : α → β) (say : β → β → ν) (as : List α) :
    afterFirst say (as.map f) = afterFirst (fun a b => say (f a) (f b)) as := by
  cases as <;> simp [afterFirst]

/-- What is said may be mapped, too. -/
theorem map_afterFirst (f : β → ν) (say : α → α → β) (as : List α) :
    (afterFirst say as).map f = afterFirst (fun a b => f (say a b)) as := by
  cases as <;> simp [afterFirst]

/-- Only what is said of the items in the list matters. -/
theorem afterFirst_congr {say say' : α → α → β} {as : List α}
    (h : ∀ a, ∀ b ∈ as, say a b = say' a b) : afterFirst say as = afterFirst say' as := by
  cases as with
  | nil => rfl
  | cons a as => exact List.map_congr_left fun b hb => h a b (List.mem_cons_of_mem _ hb)

/-- Entries are entered one after the other. -/
theorem enterAll_append (table xs ys : List (κ × ν)) :
    enterAll table (xs ++ ys) = enterAll (enterAll table xs) ys := List.foldl_append

/-- The entries that are passed over later are those that the table has by then. -/
theorem repeats_append (table xs ys : List (κ × ν)) :
    repeats table (xs ++ ys) = repeats table xs ++ repeats (enterAll table xs) ys := by
  induction xs generalizing table with
  | nil => rfl
  | cons x xs ih =>
    have hstep : enterAll table (x :: xs) = enterAll (enter table x) xs := rfl
    rw [List.cons_append, repeats, repeats, ih, hstep]
    cases table.lookup x.1 <;> rfl

/-- So it is with the items that come into the table. -/
theorem entered_append (entryOf : α → κ × ν) (table : List (κ × ν)) (as bs : List α) :
    entered entryOf table (as ++ bs) = entered entryOf table as ++
      entered entryOf (enterAll table (as.map entryOf)) bs := by
  induction as generalizing table with
  | nil => rfl
  | cons a as ih =>
    have hstep : enterAll table ((a :: as).map entryOf) =
      enterAll (enter table (entryOf a)) (as.map entryOf) := rfl
    rw [List.cons_append, entered, entered, ih, hstep]
    cases table.lookup (entryOf a).1 <;> rfl

variable [LawfulBEq κ]

private theorem lookup_singleton (entry : κ × ν) (k : κ) :
    [entry].lookup k = if entry.1 == k then some entry.2 else none := by
  obtain ⟨key, value⟩ := entry
  rw [List.lookup_cons, List.lookup_nil, BEq.comm]
  cases key == k <;> rfl

/-- An entry adds its key if the table does not have it. -/
private theorem lookup_enter (table : List (κ × ν)) (entry : κ × ν) (k : κ) :
    (enter table entry).lookup k = (table.lookup k).or ([entry].lookup k) := by
  obtain ⟨key, value⟩ := entry
  rw [enter]
  by_cases hk : k = key
  · subst hk
    cases h : table.lookup k <;> simp [h]
  · have hbeq : (k == key) = false := by simpa using hk
    cases h : table.lookup key <;> simp [List.lookup_cons, hbeq]

/-- **A table holds the first value of every key**, and what it held before comes first of all. -/
theorem lookup_enterAll (table entries : List (κ × ν)) (k : κ) :
    (enterAll table entries).lookup k = (table.lookup k).or (entries.lookup k) := by
  induction entries generalizing table with
  | nil => simp [enterAll]
  | cons entry entries ih =>
    have hstep : enterAll table (entry :: entries) = enterAll (enter table entry) entries := rfl
    have hcons : (entry :: entries).lookup k = ([entry].lookup k).or (entries.lookup k) := by
      rw [← List.lookup_append, List.singleton_append]
    rw [hstep, ih, lookup_enter, hcons, Option.or_assoc]

/-- A table that is made of entries has the first value of each key. -/
theorem lookup_enterAll_nil (entries : List (κ × ν)) (k : κ) :
    (enterAll [] entries).lookup k = entries.lookup k := by
  rw [lookup_enterAll, List.lookup_nil, Option.none_or]

/-- The first value of a key among the entries of items. -/
theorem lookup_map (entryOf : α → κ × ν) (as : List α) (k : κ) :
    (as.map entryOf).lookup k =
      (as.find? fun a => (entryOf a).1 == k).map fun a => (entryOf a).2 := by
  induction as with
  | nil => rfl
  | cons a as ih =>
    rw [List.map_cons, List.lookup_cons, List.find?_cons, ih, BEq.comm]
    cases (entryOf a).1 == k <;> rfl

/-- Of each key the first item comes into the table, if the table has no value for it. -/
theorem filter_entered (entryOf : α → κ × ν) (table : List (κ × ν)) (as : List α) (k : κ) :
    (entered entryOf table as).filter (fun a => (entryOf a).1 == k) =
      match table.lookup k with
      | some _ => []
      | none => (as.find? fun a => (entryOf a).1 == k).toList := by
  induction as generalizing table with
  | nil => cases table.lookup k <;> rfl
  | cons a as ih =>
    rw [entered]
    by_cases hk : (entryOf a).1 = k
    · subst hk
      cases h : table.lookup (entryOf a).1 <;> simp [ih, lookup_enter, lookup_singleton, h]
    · have hbeq : ((entryOf a).1 == k) = false := by simpa using hk
      cases h : table.lookup (entryOf a).1 <;>
        simp [ih, lookup_enter, lookup_singleton, hbeq]

/-- Of each key all entries but the first are passed over, or all if the table has a value for
it. -/
theorem filter_repeats (table entries : List (κ × ν)) (k : κ) :
    (repeats table entries).filter (fun r => r.1.1 == k) =
      match table.lookup k with
      | some previous => (entries.filter fun e => e.1 == k).map (·, previous)
      | none => afterFirst (fun first e => (e, first.2)) (entries.filter fun e => e.1 == k) := by
  induction entries generalizing table with
  | nil => cases table.lookup k <;> rfl
  | cons entry entries ih =>
    rw [repeats]
    by_cases hk : entry.1 = k
    · subst hk
      cases h : table.lookup entry.1 <;> simp [ih, lookup_enter, lookup_singleton, h, afterFirst]
    · have hbeq : (entry.1 == k) = false := by simpa using hk
      cases h : table.lookup entry.1 <;> simp [ih, lookup_enter, lookup_singleton, hbeq]

end GoPages

import GoPages.Json.Limits
import GoPages.Json.Record
import Mathlib.Data.List.Nodup

/-!
# Records that are read back

A record that is written as an object with different keys is read from it: `Json.record?_obj` says
what is left of the object, and `Json.record?_self` that nothing is lost if it has the keys of the
record. The rest of the module says how the fields of such a record are read.

* `Json.Record.required_cons` and its kin look a field up in the members of the object.
* `Json.list_ofList` and `Json.Record.optional_cons_ofOption` read lists and values that may be
  absent, given that their items are read back. The items may have to have a property for that.
-/

namespace GoPages.Json

/-! ### Records -/

section Records

variable {keys : List String} {members : List (String × Json)} {least : Nat}

/-- Of an object without repetitions the members are read that the record has keys for. -/
theorem record?_obj (hnodup : (members.map Prod.fst).Nodup) :
    record? keys least (.obj members) =
      some (members.filter fun member => keys.contains member.1) := by
  have honce : ∀ key ∈ keys, ((members.filter fun member => keys.contains member.1).filter
      fun member => member.1 == key).length ≤ 1 := by
    intro key _
    have hcount := List.nodup_iff_count_le_one.mp hnodup key
    rw [List.count, List.countP_map] at hcount
    rw [← List.countP_eq_length_filter]
    exact Nat.le_trans List.filter_sublist.countP_le hcount
  rw [record?, namedMembers?, if_pos]
  simpa using honce

/-- A record that is written with all of its fields is read with all of them. -/
theorem record?_self (hkeys : members.map Prod.fst = keys) (hnodup : keys.Nodup) :
    record? keys least (.obj members) = some members := by
  subst hkeys
  rw [record?_obj hnodup, List.filter_eq_self.mpr]
  intro member hmember
  simpa using ⟨member.2, hmember⟩

/-- A member that the record has no key for is passed over. -/
theorem record?_obj_cons_of_notMem {key : String} {value : Json} (hkey : key ∉ keys) :
    record? keys least (.obj ((key, value) :: members)) = record? keys least (.obj members) := by
  have hnot : keys.contains key = false := by simpa using hkey
  simp only [record?, namedMembers?, List.filter_cons, hnot, Bool.false_eq_true, if_false]

end Records

/-! ### Fields -/

namespace Record

variable {α : Type} {record : Record} {key key' : String} {value : Json} {decode : Json → Option α}
  {encode : α → Json}

/-- The first member with the key counts. -/
private theorem get?_cons : get? ((key', value) :: record) key =
    if key = key' then some value else get? record key := by
  rw [get?, List.lookup_cons]
  by_cases h : key = key'
  · simp [h]
  · rw [if_neg h, beq_false_of_ne h]
    rfl

@[simp] theorem required_cons : required ((key', value) :: record) key decode =
    if key = key' then decode value else required record key decode := by
  rw [required, get?_cons]
  split <;> rfl

@[simp] theorem withDefault_nil {a : α} : withDefault [] key a decode = some a := rfl

@[simp] theorem withDefault_cons {a : α} : withDefault ((key', value) :: record) key a decode =
    if key = key' then decode value else withDefault record key a decode := by
  by_cases h : key = key'
  · simp [withDefault, get?_cons, h]
  · simp [withDefault, get?_cons, h]

@[simp] theorem optional_cons_of_ne (h : key ≠ key') :
    optional ((key', value) :: record) key decode = optional record key decode := by
  rw [optional, get?_cons, if_neg h]
  rfl

/-- A value that may be absent is read back if present values with the property are. -/
theorem optional_cons_ofOption {p : α → Bool} (hnull : decode .null = none)
    (hread : ∀ a, p a = true → decode (encode a) = some a) {o : Option α} (h : o.all p = true) :
    optional ((key, ofOption encode o) :: record) key decode = some o := by
  rw [optional, get?_cons, if_pos rfl]
  cases o with
  | none => rfl
  | some a =>
    have ha := hread a h
    rw [ofOption]
    split
    · contradiction
    · next heq =>
      rw [Option.some.inj heq, hnull] at ha
      cases ha
    · next heq =>
      rw [← Option.some.inj heq, ha, Option.map_some]

/-- A text that may be absent is read back. -/
theorem optional_string_cons (o : Option String) :
    optional ((key, ofOption str o) :: record) key string = some o := by
  have hread (text : String) (_ : true = true) : string (.str text) = some text := rfl
  exact optional_cons_ofOption rfl hread (by cases o <;> rfl)

/-- A field that has to be present has a value. -/
theorem exists_of_required {a : α} (h : record.required key decode = some a) :
    ∃ value, decode value = some a := by
  obtain ⟨value, -, hvalue⟩ := Option.bind_eq_some_iff.mp h
  exact ⟨value, hvalue⟩

/-- A field with a default has the default or a value. -/
theorem eq_or_exists_of_withDefault {a b : α} (h : record.withDefault key a decode = some b) :
    b = a ∨ ∃ value, decode value = some b := by
  rw [withDefault] at h
  split at h
  · exact .inl (Option.some.inj h).symm
  · exact .inr ⟨_, h⟩

end Record

/-! ### Values -/

/-- What is read as a word has 32 bits. -/
theorem lt_of_word {value : Json} {n : Nat} (h : word value = some n) : n < Nat.pow 2 32 := by
  cases value with
  | natural m =>
    rw [word] at h
    split at h
    · cases h
      assumption
    · cases h
  | _ => cases h

/-- A list is read item by item. -/
theorem list_arr_cons {α : Type} {decode : Json → Option α} {item : Json} {items : List Json}
    {a : α} {as : List α} (hitem : decode item = some a)
    (hitems : list decode (.arr items) = some as) :
    list decode (.arr (item :: items)) = some (a :: as) := by
  replace hitems : items.mapM decode = some as := hitems
  simp [list, hitem, hitems]

/-- A list is read back if items with the property are. -/
theorem list_ofList {α : Type} {decode : Json → Option α} {encode : α → Json} {p : α → Bool}
    (hread : ∀ a, p a = true → decode (encode a) = some a) {as : List α} (h : as.all p = true) :
    list decode (ofList encode as) = some as := by
  induction as with
  | nil => rfl
  | cons a as ih =>
    rw [List.all_cons, Bool.and_eq_true] at h
    exact list_arr_cons (hread a h.1) (ih h.2)

/-- A list of texts is read back. -/
theorem list_string_ofList_str (texts : List String) :
    list string (ofList .str texts) = some texts := by
  have hread (text : String) (_ : true = true) : string (.str text) = some text := rfl
  exact list_ofList hread (by simp)

/-- What a list is read from holds a value for each item. -/
theorem exists_of_mem_of_list {α : Type} {decode : Json → Option α} {value : Json} {as : List α}
    (h : list decode value = some as) {a : α} (ha : a ∈ as) : ∃ item, decode item = some a := by
  cases value with
  | arr items =>
    replace h : items.mapM decode = some as := h
    induction items generalizing as with
    | nil =>
      cases h
      cases ha
    | cons item items ih =>
      simp only [List.mapM_cons, Option.pure_def, Option.bind_eq_bind, Option.bind_eq_some_iff] at h
      obtain ⟨a', ha', as', has', heq⟩ := h
      cases heq
      cases ha with
      | head => exact ⟨item, ha'⟩
      | tail _ ha => exact ih ha has'
  | _ => cases h

end GoPages.Json

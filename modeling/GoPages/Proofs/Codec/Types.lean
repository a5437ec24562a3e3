import GoPages.HostType.Codec
import GoPages.Proofs.Codec.Records

/-!
# Types that are read back

In JSON the numbers of a location have 32 bits. A type is read back if the numbers of its locations
fit into them, and every type that is read at all has such numbers: `HostType.ofJson?_toJson` and
`HostType.fits_of_ofJson?`. So what has been read is read again when it is written.

A type may be read where `levels` exceeds the height of its JSON, and the induction is on the
levels: the parts of a type are lower than the type.
-/

namespace GoPages

open Json (Record)

@[simp] theorem Json.height_str (text : String) : (str text).height = 0 := by simp [height]

@[simp] theorem Json.height_bool (b : Bool) : (bool b).height = 0 := by simp [height]

/-! ### Locations -/

namespace Location

variable {l : Location} {value : Json}

/-- Are line and column below `2 ^ 32`? -/
def fits (l : Location) : Bool := l.line < Nat.pow 2 32 && l.column < Nat.pow 2 32

/-- A location is read back if its numbers have 32 bits. -/
theorem ofJson?_toJson (h : l.fits = true) : ofJson? l.toJson = some l := by
  obtain ⟨hline, hcolumn⟩ : l.line < Nat.pow 2 32 ∧ l.column < Nat.pow 2 32 := by
    simpa [fits] using h
  rw [toJson, ofJson?, Json.record?_self (by rfl) (by decide)]
  simp [Json.string, Json.word, hline, hcolumn]

/-- A location that is read has numbers of 32 bits. -/
theorem fits_of_ofJson? (h : ofJson? value = some l) : l.fits = true := by
  simp only [ofJson?, Option.bind_eq_bind, Option.bind_eq_some_iff, Option.pure_def] at h
  obtain ⟨r, -, file, -, line, hline, column, hcolumn, heq⟩ := h
  cases heq
  obtain ⟨_, hline⟩ := Record.exists_of_required hline
  obtain ⟨_, hcolumn⟩ := Record.exists_of_required hcolumn
  simpa [fits] using ⟨Json.lt_of_word hline, Json.lt_of_word hcolumn⟩

private theorem readable_toJson (h : l.fits = true) : l.toJson.readable = true := by
  obtain ⟨hline, hcolumn⟩ : l.line < Nat.pow 2 32 ∧ l.column < Nat.pow 2 32 := by
    simpa [fits] using h
  have hword (n : Nat) (hn : n < Nat.pow 2 32) : Json.naturalInRange n = true := by
    have : n < Nat.pow 2 64 := Nat.lt_of_lt_of_le hn (by decide)
    simp [Json.naturalInRange, this]
  simp [toJson, Json.readable, Json.readableMembers, hword _ hline, hword _ hcolumn]

end Location

namespace HostType

/-! ### Types that fit -/

mutual

/-- Do the numbers of all locations in a type fit? -/
def fits : HostType → Bool
  | named _ _ args => fitsList args
  | pointer elem => fits elem
  | slice elem => fits elem
  | array _ elem => fits elem
  | map key value => fits key && fits value
  | chan elem => fits elem
  | func params results _ => fitsList params && fitsList results
  | struct fields => fitsFields fields
  | _ => true

/-- Do the numbers of all locations in types fit? -/
def fitsList : List HostType → Bool
  | [] => true
  | t :: ts => fits t && fitsList ts

/-- Do the numbers of all locations in fields fit? -/
def fitsFields : List (StructFieldOf HostType) → Bool
  | [] => true
  | ⟨_, _, type, _, l⟩ :: fields => l.fits && fits type && fitsFields fields

end

end HostType

/-- Do the numbers of all locations in a field fit? -/
def StructFieldOf.fits (field : StructField) : Bool := field.location.fits && field.type.fits

namespace HostType

/-! ### Writing -/

/-- A type that is written has its kind read first. -/
theorem untag?_tagged {byPosition : Bool} {kind : String} {parts : List (String × Json)}
    (hparts : "kind" ∉ parts.map Prod.fst) :
    untag? byPosition (tagged kind parts) = some (kind, tagged kind parts) := by
  have hnone : parts.filter (fun member => member.1 == "kind") = [] := by
    rw [List.filter_eq_nil_iff]
    intro member hmember hkind
    exact hparts (List.mem_map.mpr ⟨member, hmember, by simpa using hkind⟩)
  simp [untag?, tagged, kind?, hnone]

/-- The parts of a type that is written are read without its kind. -/
theorem record?_tagged {kind : String} {parts : List (String × Json)} {keys : List String}
    {least : Nat} (hkind : "kind" ∉ keys) (hparts : (parts.map Prod.fst).Nodup)
    (hkeys : ∀ member ∈ parts, member.1 ∈ keys) :
    Json.record? keys least (tagged kind parts) = some parts := by
  rw [tagged, Json.record?_obj_cons_of_notMem hkind, Json.record?_obj hparts,
    List.filter_eq_self.mpr]
  simpa using hkeys

@[simp] theorem height_tagged (kind : String) (parts : List (String × Json)) :
    (tagged kind parts).height = Json.heightMembers parts + 1 := by
  simp [tagged, Json.height, Json.heightMembers]

@[simp] theorem readable_tagged (kind : String) (parts : List (String × Json)) :
    (tagged kind parts).readable = Json.readableMembers parts := by
  simp [tagged, Json.readable, Json.readableMembers]

mutual

/-- No number in a type that fits is beyond what is read. -/
theorem readable_toJson : (t : HostType) → t.fits = true → t.toJson.readable = true
  | .named package name [], _ => by
    simp [toJson, listToJson, argsMember, Json.readableMembers, Json.readable]
  | .named package name (t :: ts), h => by
    have hargs := readable_listToJson (t :: ts) h
    rw [listToJson] at hargs
    simp [toJson, listToJson, argsMember, Json.readableMembers, Json.readable, hargs]
  | .pointer elem, h | .slice elem, h | .chan elem, h | .array _ elem, h => by
    have helem := readable_toJson elem h
    simp [toJson, Json.readableMembers, Json.readable, helem]
  | .map key value, h => by
    rw [fits, Bool.and_eq_true] at h
    have hkey := readable_toJson key h.1
    have hvalue := readable_toJson value h.2
    simp [toJson, Json.readableMembers, hkey, hvalue]
  | .func params results _, h => by
    rw [fits, Bool.and_eq_true] at h
    have hparams := readable_listToJson params h.1
    have hresults := readable_listToJson results h.2
    simp [toJson, Json.readableMembers, Json.readable, hparams, hresults]
  | .struct fields, h => by
    have hfields := readable_fieldsToJson fields h
    simp [toJson, Json.readableMembers, Json.readable, hfields]
  | .basic _, _ | .error, _ | .typeParam _, _ | .interface _, _ | .invalid, _ => by
    simp [toJson, Json.readableMembers, Json.readable]

private theorem readable_listToJson : (ts : List HostType) → fitsList ts = true →
    Json.readableItems (listToJson ts) = true
  | [], _ => rfl
  | t :: ts, h => by
    rw [fitsList, Bool.and_eq_true] at h
    rw [listToJson, Json.readableItems, readable_toJson t h.1, readable_listToJson ts h.2]
    rfl

private theorem readable_fieldsToJson : (fields : List StructField) → fitsFields fields = true →
    Json.readableItems (fieldsToJson fields) = true
  | [], _ => rfl
  | ⟨name, embedded, type, tag, l⟩ :: fields, h => by
    simp only [fitsFields, Bool.and_eq_true] at h
    have hl := Location.readable_toJson h.1.1
    have htype := readable_toJson type h.1.2
    have hfields := readable_fieldsToJson fields h.2
    simp [fieldsToJson, structFieldJson, Json.readableItems, Json.readable, Json.readableMembers,
      hl, htype, hfields]

end

/-! ### Reading what is written -/

/-- A field is read back by whatever reads back its type. -/
theorem structFieldOfJson?_structFieldJson {typeOf : Json → Option HostType} {name tag : String}
    {embedded : Bool} {value : Json} {type : HostType} {l : Location} (hl : l.fits = true)
    (htype : typeOf value = some type) :
    structFieldOfJson? typeOf (structFieldJson name embedded value tag l) =
      some ⟨name, embedded, type, tag, l⟩ := by
  rw [structFieldJson, structFieldOfJson?, Json.record?_self (by rfl) (by decide)]
  simp [Json.string, Json.boolean, Location.ofJson?_toJson hl, htype]

mutual

/-- A type is read back where there are more levels than the type has. -/
theorem ofJsonWithin?_toJson : (t : HostType) → (levels : Nat) → (byPosition : Bool) →
    t.fits = true → t.toJson.height < levels →
    ofJsonWithin? levels byPosition t.toJson = some t
  | _, 0, _, _, hlevels => absurd hlevels (Nat.not_lt_zero _)
  | .basic name, levels + 1, _, _, _ | .typeParam name, levels + 1, _, _, _ => by
    rw [toJson, ofJsonWithin?, untag?_tagged (by simp)]
    simp [record?_tagged, Json.string]
  | .error, levels + 1, _, _, _ | .invalid, levels + 1, _, _, _ => by
    rw [toJson, ofJsonWithin?, untag?_tagged (by simp)]
    simp [record?_tagged]
  | .interface empty, levels + 1, _, _, _ => by
    rw [toJson, ofJsonWithin?, untag?_tagged (by simp)]
    simp [record?_tagged, Json.boolean]
  -- Without arguments there is no member to read them from, and they have their default.
  | .named package name [], levels + 1, _, _, _ => by
    rw [toJson, listToJson, argsMember, ofJsonWithin?, untag?_tagged (by simp)]
    simp [record?_tagged, Json.string]
  | .named package name (t :: ts), levels + 1, _, h, hlevels => by
    have hargs := list_listToJson (t :: ts) levels h
      (by simpa [toJson, argsMember, listToJson, Json.heightMembers] using hlevels)
    rw [listToJson] at hargs
    rw [toJson, listToJson, argsMember, ofJsonWithin?, untag?_tagged (by simp)]
    simp [record?_tagged, Json.string, hargs]
  | .pointer elem, levels + 1, _, h, hlevels | .slice elem, levels + 1, _, h, hlevels
  | .chan elem, levels + 1, _, h, hlevels => by
    have helem := ofJsonWithin?_toJson elem levels true h
      (by simpa [toJson, Json.heightMembers] using hlevels)
    rw [toJson, ofJsonWithin?, untag?_tagged (by simp)]
    simp [record?_tagged, helem]
  | .array len elem, levels + 1, _, h, hlevels => by
    have helem := ofJsonWithin?_toJson elem levels true h
      (by simpa [toJson, Json.heightMembers] using hlevels)
    rw [toJson, ofJsonWithin?, untag?_tagged (by simp)]
    simp [record?_tagged, Json.string, helem]
  | .map key value, levels + 1, _, h, hlevels => by
    rw [fits, Bool.and_eq_true] at h
    obtain ⟨hlow, hlow'⟩ : key.toJson.height < levels ∧ value.toJson.height < levels := by
      simpa [toJson, Json.heightMembers, Nat.max_lt] using hlevels
    have hkey := ofJsonWithin?_toJson key levels true h.1 hlow
    have hvalue := ofJsonWithin?_toJson value levels true h.2 hlow'
    rw [toJson, ofJsonWithin?, untag?_tagged (by simp)]
    simp [record?_tagged, hkey, hvalue]
  | .func params results variadic, levels + 1, _, h, hlevels => by
    rw [fits, Bool.and_eq_true] at h
    obtain ⟨hlow, hlow'⟩ : (Json.arr (listToJson params)).height < levels ∧
        (Json.arr (listToJson results)).height < levels := by
      simpa [toJson, Json.heightMembers, Nat.max_lt] using hlevels
    have hparams := list_listToJson params levels h.1 hlow
    have hresults := list_listToJson results levels h.2 hlow'
    rw [toJson, ofJsonWithin?, untag?_tagged (by simp)]
    simp [record?_tagged, Json.boolean, hparams, hresults]
  | .struct fields, levels + 1, _, h, hlevels => by
    have hfields := list_fieldsToJson fields levels h
      (by simpa [toJson, Json.heightMembers] using hlevels)
    rw [toJson, ofJsonWithin?, untag?_tagged (by simp)]
    simp [record?_tagged, hfields]

/-- Types are read back one by one, at the levels that their list leaves. -/
private theorem list_listToJson : (ts : List HostType) → (levels : Nat) → fitsList ts = true →
    (Json.arr (listToJson ts)).height < levels →
    Json.list (ofJsonWithin? levels true) (.arr (listToJson ts)) = some ts
  | [], _, _, _ => rfl
  | t :: ts, levels, h, hlevels => by
    rw [fitsList, Bool.and_eq_true] at h
    simp only [listToJson, Json.height, Json.heightItems] at hlevels
    have hhead := ofJsonWithin?_toJson t levels true h.1 (by omega)
    have htail := list_listToJson ts levels h.2 (by rw [Json.height]; omega)
    exact Json.list_arr_cons hhead htail

private theorem list_fieldsToJson : (fields : List StructField) → (levels : Nat) →
    fitsFields fields = true → (Json.arr (fieldsToJson fields)).height < levels →
    Json.list (structFieldOfJson? (ofJsonWithin? levels true)) (.arr (fieldsToJson fields)) =
      some fields
  | [], _, _, _ => rfl
  | ⟨name, embedded, type, tag, l⟩ :: fields, levels, h, hlevels => by
    simp only [fitsFields, Bool.and_eq_true] at h
    simp only [fieldsToJson, structFieldJson, Json.height, Json.heightItems,
      Json.heightMembers] at hlevels
    have htype := ofJsonWithin?_toJson type levels true h.1.2 (by omega)
    have hhead : structFieldOfJson? (ofJsonWithin? levels true)
        (structFieldJson name embedded type.toJson tag l) = some ⟨name, embedded, type, tag, l⟩ :=
      structFieldOfJson?_structFieldJson h.1.1 htype
    have htail := list_fieldsToJson fields levels h.2 (by rw [Json.height]; omega)
    exact Json.list_arr_cons hhead htail

end

/-- A type is read back if the numbers of its locations fit. -/
theorem ofJson?_toJson {t : HostType} (h : t.fits = true) : ofJson? t.toJson = some t := by
  rw [ofJson?, if_pos (readable_toJson t h)]
  exact ofJsonWithin?_toJson t _ false h (Nat.lt_succ_self _)

/-! ### What is read fits -/

private theorem fitsList_eq_all (ts : List HostType) : fitsList ts = ts.all fits := by
  induction ts with
  | nil => rfl
  | cons t ts ih => rw [fitsList, List.all_cons, ih]

private theorem fitsFields_eq_all (fields : List StructField) :
    fitsFields fields = fields.all StructFieldOf.fits := by
  induction fields with
  | nil => rfl
  | cons field fields ih => rw [fitsFields, List.all_cons, ih, StructFieldOf.fits]

section Parts

variable {read : Json → Option HostType} (hread : ∀ {value t}, read value = some t → t.fits = true)
include hread

/-- The type under a key has numbers that fit if all types that are read have. -/
private theorem fits_of_required {r : Record} {key : String} {t : HostType}
    (h : r.required key read = some t) : t.fits = true := by
  obtain ⟨_, hvalue⟩ := Record.exists_of_required h
  exact hread hvalue

private theorem fitsList_of_list {value : Json} {ts : List HostType}
    (h : Json.list read value = some ts) : fitsList ts = true := by
  rw [fitsList_eq_all, List.all_eq_true]
  intro t ht
  obtain ⟨_, hitem⟩ := Json.exists_of_mem_of_list h ht
  exact hread hitem

/-- The numbers of a field fit if those of all types that are read do. -/
private theorem fits_of_structFieldOfJson? {value : Json} {field : StructField}
    (h : structFieldOfJson? read value = some field) : field.fits = true := by
  simp only [structFieldOfJson?, Option.bind_eq_bind, Option.bind_eq_some_iff,
    Option.pure_def] at h
  obtain ⟨_, -, _, -, _, -, type, htype, _, -, l, hl, heq⟩ := h
  cases heq
  obtain ⟨_, hl⟩ := Record.exists_of_required hl
  simpa [StructFieldOf.fits] using ⟨Location.fits_of_ofJson? hl, fits_of_required hread htype⟩

private theorem fitsFields_of_list {value : Json} {fields : List StructField}
    (h : Json.list (structFieldOfJson? read) value = some fields) : fitsFields fields = true := by
  rw [fitsFields_eq_all, List.all_eq_true]
  intro field hfield
  obtain ⟨_, hitem⟩ := Json.exists_of_mem_of_list h hfield
  exact fits_of_structFieldOfJson? hread hitem

end Parts

/-- The numbers of a type that is read fit. -/
theorem fits_of_ofJsonWithin? {levels : Nat} {byPosition : Bool} {value : Json} {t : HostType}
    (h : ofJsonWithin? levels byPosition value = some t) : t.fits = true := by
  induction levels generalizing byPosition value t with
  | zero => cases h
  | succ levels ih =>
    simp only [ofJsonWithin?, Option.bind_eq_bind, Option.bind_eq_some_iff, Option.pure_def] at h
    obtain ⟨⟨kind, parts⟩, -, h⟩ := h
    dsimp only at h
    -- One case for each of `kinds`, and a last one for what is no kind.
    split at h
    all_goals simp only [Option.bind_eq_some_iff, Option.some.injEq, reduceCtorEq] at h
    case h_1 | h_4 | h_12 =>
      obtain ⟨_, -, _, -, rfl⟩ := h
      rfl
    case h_2 | h_13 =>
      obtain ⟨_, -, rfl⟩ := h
      rfl
    case h_3 =>
      obtain ⟨_, -, _, -, _, -, args, hargs, rfl⟩ := h
      obtain rfl | ⟨_, hargs⟩ := Record.eq_or_exists_of_withDefault hargs
      · rfl
      · exact fitsList_of_list ih hargs
    case h_5 | h_6 | h_9 =>
      obtain ⟨_, -, elem, helem, rfl⟩ := h
      rw [fits, fits_of_required ih helem]
    case h_7 =>
      obtain ⟨_, -, _, -, elem, helem, rfl⟩ := h
      rw [fits, fits_of_required ih helem]
    case h_8 =>
      obtain ⟨_, -, key, hkey, value, hvalue, rfl⟩ := h
      rw [fits, fits_of_required ih hkey, fits_of_required ih hvalue]
      rfl
    case h_10 =>
      obtain ⟨_, -, params, hparams, results, hresults, _, -, rfl⟩ := h
      obtain ⟨_, hparams⟩ := Record.exists_of_required hparams
      obtain ⟨_, hresults⟩ := Record.exists_of_required hresults
      rw [fits, fitsList_of_list ih hparams, fitsList_of_list ih hresults]
      rfl
    case h_11 =>
      obtain ⟨_, -, fields, hread, rfl⟩ := h
      obtain ⟨_, hread⟩ := Record.exists_of_required hread
      exact fitsFields_of_list ih hread

/-- A type that is read has numbers of 32 bits in all of its places. -/
theorem fits_of_ofJson? {value : Json} {t : HostType} (h : ofJson? value = some t) :
    t.fits = true := by
  rw [ofJson?] at h
  split at h
  · exact fits_of_ofJsonWithin? h
  · cases h

end HostType

end GoPages

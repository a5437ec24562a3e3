import GoPages.Conventions.Codec
import GoPages.Model.Codec
import GoPages.Proofs.Codec.Types
import GoPages.Proofs.Signature.Slots

/-!
# Applications that are read back

Every record of the model is read back from its JSON if the numbers of its locations have 32 bits,
as they have in JSON: record by record, from the slots of a handler up to `App.ofJson?_toJson`.
Conventions have no locations, so that `Conventions.ofJson?_toJson` holds of all of them.
`reads_back` is about all that is exchanged as JSON: types, applications and conventions.
-/

namespace GoPages

open Json (Record)

/-! ### Alternatives -/

/-- Methods and kinds of pages have different names, so they are read back. -/
theorem HttpMethod.ofJson?_toJson (m : HttpMethod) : ofJson? m.toJson = some m := by
  cases m <;> decide

theorem PageKind.ofJson?_toJson (k : PageKind) : ofJson? k.toJson = some k := by
  cases k <;> decide

/-! ### Slots -/

/-- Do the numbers of all locations in a slot fit? -/
def Slot.fits (x : Slot) : Bool := x.type.resolved.fits && x.location.fits

/-- Fields are read back if their places and their types have numbers of 32 bits; so it is with
whatever has fields or places in it. -/
theorem StructFieldOf.ofJson?_toJson {x : StructField} (h : x.fits = true) :
    ofJson? x.toJson = some x := by
  rw [fits, Bool.and_eq_true] at h
  exact HostType.structFieldOfJson?_structFieldJson h.1 (HostType.ofJson?_toJson h.2)

theorem TypeRef.ofJson?_toJson {x : TypeRef} (h : x.resolved.fits = true) :
    ofJson? x.toJson = some x := by
  rw [toJson, ofJson?, Json.record?_self (by rfl) (by decide)]
  simp [HostType.ofJson?_toJson h, Json.string]

namespace Slot

theorem ofJson?_toJson {x : Slot} (h : x.fits = true) : ofJson? x.toJson = some x := by
  rw [fits, Bool.and_eq_true] at h
  rw [toJson, ofJson?, Json.record?_self (by rfl) (by decide)]
  simp [TypeRef.ofJson?_toJson h.1, Location.ofJson?_toJson h.2, Json.string]

/-- Slots are read back in their order. -/
theorem list_ofList {xs : List Slot} (h : xs.all fits = true) :
    Json.list ofJson? (Json.ofList toJson xs) = some xs :=
  Json.list_ofList (fun _ => ofJson?_toJson) h

/-- A slot that may be absent is read back, and its absence, too. -/
private theorem optional_cons {record : Record} {key : String} {o : Option Slot}
    (h : o.all fits = true) :
    Record.optional ((key, Json.ofOption toJson o) :: record) key ofJson? = some o :=
  Record.optional_cons_ofOption rfl (fun _ => ofJson?_toJson) h

/-- Of values that may be absent, all that are present have a property. -/
theorem all_reduceOption_cons (o : Option Slot) (os : List (Option Slot)) :
    (o :: os).reduceOption.all fits = (o.all fits && os.reduceOption.all fits) := by
  cases o <;> simp

end Slot

theorem HandlerInputs.ofJson?_toJson {x : HandlerInputs} (h : x.slots.all Slot.fits = true) :
    ofJson? x.toJson = some x := by
  simp only [slots, Slot.all_reduceOption_cons, List.reduceOption_nil, List.all_nil,
    Bool.and_eq_true] at h
  rw [toJson, ofJson?, Json.record?_self (by rfl) (by decide)]
  simp [Slot.optional_cons, Record.optional_cons_of_ne, h]

theorem HandlerOutputs.ofJson?_toJson {x : HandlerOutputs} (h : x.slots.all Slot.fits = true) :
    ofJson? x.toJson = some x := by
  simp only [slots, Slot.all_reduceOption_cons, List.reduceOption_nil, List.all_nil,
    Bool.and_eq_true] at h
  rw [toJson, ofJson?, Json.record?_self (by rfl) (by decide)]
  simp [Slot.optional_cons, Record.optional_cons_of_ne, h]

/-! ### Handlers -/

/-- Do the numbers of all locations in a handler fit? -/
def Handler.fits (x : Handler) : Bool := x.location.fits && x.slots.all Slot.fits

/-- A handler is read back from its slots, its names and its places. -/
theorem Handler.ofJson?_toJson {x : Handler} (h : x.fits = true) : ofJson? x.toJson = some x := by
  simp only [fits, slots, List.all_append, Bool.and_eq_true] at h
  obtain ⟨hlocation, ⟨⟨hinputs, houtputs⟩, hpluginInputs⟩, hpluginOutputs⟩ := h
  rw [toJson, ofJson?, Json.record?_self (by rfl) (by decide)]
  simp [HttpMethod.ofJson?_toJson, Location.ofJson?_toJson hlocation, Record.optional_string_cons,
    HandlerInputs.ofJson?_toJson hinputs, HandlerOutputs.ofJson?_toJson houtputs,
    Json.list_string_ofList_str, Slot.list_ofList hpluginInputs, Slot.list_ofList hpluginOutputs,
    Json.string]

/-- Do the numbers of all locations in an event handler fit? -/
def EventHandler.fits (x : EventHandler) : Bool := x.location.fits && x.slots.all Slot.fits

theorem EventHandler.ofJson?_toJson {x : EventHandler} (h : x.fits = true) :
    ofJson? x.toJson = some x := by
  simp only [fits, slots, List.all_append, Slot.all_reduceOption_cons, List.reduceOption_nil,
    List.all_nil, Bool.and_eq_true] at h
  obtain ⟨hlocation, hslots, hpluginInputs⟩ := h
  rw [toJson, ofJson?, Json.record?_self (by rfl) (by decide)]
  simp [Location.ofJson?_toJson hlocation, Record.optional_string_cons, Slot.optional_cons,
    Record.optional_cons_of_ne, hslots, Slot.list_ofList hpluginInputs, Json.string]

/-! ### Pages and events -/

/-- Does the location of an embedding fit? -/
def EmbedRef.fits (x : EmbedRef) : Bool := x.location.fits

theorem EmbedRef.ofJson?_toJson {x : EmbedRef} (h : x.fits = true) : ofJson? x.toJson = some x := by
  rw [toJson, ofJson?, Json.record?_self (by rfl) (by decide)]
  simp [Location.ofJson?_toJson h, Json.string]

/-- Do the numbers of all locations in a page fit? -/
def Page.fits (x : Page) : Bool :=
  x.location.fits && x.get.all Handler.fits && x.actions.all Handler.fits &&
    x.eventHandlers.all EventHandler.fits && x.embeds.all EmbedRef.fits

theorem Page.ofJson?_toJson {x : Page} (h : x.fits = true) : ofJson? x.toJson = some x := by
  simp only [fits, Bool.and_eq_true] at h
  obtain ⟨⟨⟨⟨hlocation, hget⟩, hactions⟩, heventHandlers⟩, hembeds⟩ := h
  rw [toJson, ofJson?, Json.record?_self (by rfl) (by decide)]
  simp [Location.ofJson?_toJson hlocation, PageKind.ofJson?_toJson, Record.optional_cons_of_ne,
    Record.optional_cons_ofOption rfl (fun _ => Handler.ofJson?_toJson) hget,
    Json.list_ofList (fun _ => Handler.ofJson?_toJson) hactions,
    Json.list_ofList (fun _ => EventHandler.ofJson?_toJson) heventHandlers,
    Json.list_ofList (fun _ => EmbedRef.ofJson?_toJson) hembeds, Json.string]

/-- Do the numbers of all locations in an abstract page fit? -/
def AbstractPage.fits (x : AbstractPage) : Bool :=
  x.location.fits && x.get.all Handler.fits && x.actions.all Handler.fits &&
    x.eventHandlers.all EventHandler.fits && x.embeds.all EmbedRef.fits

theorem AbstractPage.ofJson?_toJson {x : AbstractPage} (h : x.fits = true) :
    ofJson? x.toJson = some x := by
  simp only [fits, Bool.and_eq_true] at h
  obtain ⟨⟨⟨⟨hlocation, hget⟩, hactions⟩, heventHandlers⟩, hembeds⟩ := h
  rw [toJson, ofJson?, Json.record?_self (by rfl) (by decide)]
  simp [Location.ofJson?_toJson hlocation, Record.optional_cons_of_ne,
    Record.optional_cons_ofOption rfl (fun _ => Handler.ofJson?_toJson) hget,
    Json.list_ofList (fun _ => Handler.ofJson?_toJson) hactions,
    Json.list_ofList (fun _ => EventHandler.ofJson?_toJson) heventHandlers,
    Json.list_ofList (fun _ => EmbedRef.ofJson?_toJson) hembeds, Json.string]

/-- Does the location of an event fit? -/
def Event.fits (x : Event) : Bool := x.location.fits

theorem Event.ofJson?_toJson {x : Event} (h : x.fits = true) : ofJson? x.toJson = some x := by
  rw [toJson, ofJson?, Json.record?_self (by rfl) (by decide)]
  simp [Location.ofJson?_toJson h, Json.string, Json.boolean]

/-! ### Applications -/

/-- Do the numbers of all locations in a hook fit? -/
def Hook.fits (x : Hook) : Bool := x.location.fits && x.slots.all Slot.fits

theorem Hook.ofJson?_toJson {x : Hook} (h : x.fits = true) : ofJson? x.toJson = some x := by
  simp only [fits, slots, List.all_append, Bool.and_eq_true] at h
  obtain ⟨hlocation, hinputs, houtputs⟩ := h
  rw [toJson, ofJson?, Json.record?_self (by rfl) (by decide)]
  simp [Location.ofJson?_toJson hlocation, Slot.list_ofList hinputs, Slot.list_ofList houtputs,
    Json.string]

/-- Do the numbers of all locations in a session type fit? -/
def SessionShape.fits (x : SessionShape) : Bool :=
  x.location.fits && x.fields.all StructFieldOf.fits

theorem SessionShape.ofJson?_toJson {x : SessionShape} (h : x.fits = true) :
    ofJson? x.toJson = some x := by
  rw [fits, Bool.and_eq_true] at h
  rw [toJson, ofJson?, Json.record?_self (by rfl) (by decide)]
  simp [Location.ofJson?_toJson h.1, Json.list_ofList (fun _ => StructFieldOf.ofJson?_toJson) h.2,
    Json.string]

/-- Do the numbers of all locations in an application fit? -/
def App.fits (x : App) : Bool :=
  x.location.fits && x.session.all SessionShape.fits && x.head.all Hook.fits &&
    x.recover500.all Hook.fits && x.pages.all Page.fits && x.abstractPages.all AbstractPage.fits &&
    x.events.all Event.fits

/-- An application is read back record by record. -/
theorem App.ofJson?_toJson {x : App} (h : x.fits = true) : ofJson? x.toJson = some x := by
  simp only [fits, Bool.and_eq_true] at h
  obtain ⟨⟨⟨⟨⟨⟨hlocation, hsession⟩, hhead⟩, hrecover500⟩, hpages⟩, habstractPages⟩, hevents⟩ := h
  rw [toJson, ofJson?, Json.record?_self (by rfl) (by decide)]
  simp [Location.ofJson?_toJson hlocation, Record.optional_cons_of_ne,
    Record.optional_cons_ofOption rfl (fun _ => SessionShape.ofJson?_toJson) hsession,
    Record.optional_cons_ofOption rfl (fun _ => Hook.ofJson?_toJson) hhead,
    Record.optional_cons_ofOption rfl (fun _ => Hook.ofJson?_toJson) hrecover500,
    Json.list_ofList (fun _ => Page.ofJson?_toJson) hpages,
    Json.list_ofList (fun _ => AbstractPage.ofJson?_toJson) habstractPages,
    Json.list_ofList (fun _ => Event.ofJson?_toJson) hevents, Json.string]

/-! ### Conventions -/

private theorem some_bind {α β : Type} (a : α) (f : α → Option β) : (some a >>= f) = f a := rfl

theorem QualifiedType.ofJson?_toJson (q : QualifiedType) : ofJson? q.toJson = some q := by
  rw [toJson, ofJson?, Json.record?_self (by rfl) (by decide)]
  simp [Json.string, Json.boolean]

/-- Conventions hold no locations, so all of them are read back. -/
theorem Conventions.ofJson?_toJson (c : Conventions) : ofJson? c.toJson = some c := by
  rw [toJson, ofJson?, Json.record?_self (by rfl) (by simp [keys])]
  -- `Option.bind` has a congruence lemma that would look at each of the many steps twice.
  simp -implicitDefEqProofs only [some_bind, Option.pure_def, Record.withDefault_cons,
    String.reduceEq, reduceIte, QualifiedType.ofJson?_toJson, Json.list_string_ofList_str,
    Json.string]

/-! ### Reading back -/

/-- What is written as JSON is read back: a type just if the numbers of its locations fit, an
application if they fit, and conventions always. A type that is read from any JSON is read again
from the JSON that is written for it. -/
theorem reads_back (t : HostType) (app : App) (c : Conventions) (value : Json) :
    (HostType.ofJson? t.toJson = some t ↔ t.fits = true) ∧
      (app.fits = true → App.ofJson? app.toJson = some app) ∧
      Conventions.ofJson? c.toJson = some c ∧
      (HostType.ofJson? value = some t → HostType.ofJson? t.toJson = some t) := by
  refine ⟨⟨HostType.fits_of_ofJson?, HostType.ofJson?_toJson⟩, App.ofJson?_toJson,
    c.ofJson?_toJson, fun hread => ?_⟩
  have hfits := HostType.fits_of_ofJson? hread
  exact HostType.ofJson?_toJson hfits

/-- A pointer in JSON, with a member that is not read and with an array in place of the type that
it points to. -/
def pointerValue : Json :=
  .obj [("elem", .arr [.natural 2, .str "net/http", .str "Request"]), ("doc", .arr []),
    ("kind", .str "pointer")]

/-- An application with a hook and an event. -/
def hookedApp : App :=
  let request : TypeRef := ⟨.pointer (.named "net/http" "Request" []), "*http.Request"⟩
  { (default : App) with
    package := "main"
    head := some ⟨"Head", ⟨"app.go", 9, 1⟩, [⟨"r", request, ⟨"app.go", 9, 16⟩⟩], []⟩
    events := [⟨"EventSaved", "saved", false, ⟨"app.go", 12, 6⟩⟩] }

/-- An application with a hook is read back, and a type is written again as it was read. -/
theorem reads_back_hookedApp :
    App.ofJson? hookedApp.toJson = some hookedApp ∧
      HostType.ofJson? pointerValue = some (.pointer (.named "net/http" "Request" [])) ∧
      HostType.ofJson? (HostType.pointer (.named "net/http" "Request" [])).toJson =
        some (.pointer (.named "net/http" "Request" [])) := by
  have hread : HostType.ofJson? pointerValue =
      some (.pointer (.named "net/http" "Request" [])) := rfl
  have hback := reads_back (.pointer (.named "net/http" "Request" [])) hookedApp
    Conventions.standard pointerValue
  exact ⟨hback.2.1 (by decide), hread, hback.2.2.2 hread⟩

end GoPages

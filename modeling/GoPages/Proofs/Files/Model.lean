import GoPages.Owner
import GoPages.Proofs.Files.Package
import GoPages.Setting

/-!
# Applications and findings in files under other names

The parts of an application have the locations of their declarations, and so have findings. The
place of a finding is shown with the base name of its file alone; so is the place of a first handler
of an event type that a finding is about. Not so the place of an earlier embedding: `mapPrevious`
gives it the other file name too.

`Location.KeepsBaseNames` are the maps of file names that keep base names and are injective: such as
moving the files to another directory. Under them a normalized location remains the same
(`Location.normalized_mapFile`).
-/

namespace GoPages

/-! ### Base names -/

namespace Location

/-- The map of file names keeps base names and tells files apart. -/
structure KeepsBaseNames (φ : String → String) : Prop where
  injective : Function.Injective φ
  empty : φ "" = ""
  baseName : ∀ file, baseName (φ file) = baseName file

variable {φ : String → String}

/-- A location is known in the other file exactly if it is known. -/
private theorem isKnown_mapFile (hφ : KeepsBaseNames φ) (l : Location) :
    (l.mapFile φ).isKnown = l.isKnown := by
  have hempty : φ l.file = "" ↔ l.file = "" :=
    ⟨fun h => hφ.injective (h.trans hφ.empty.symm), fun h => by rw [h, hφ.empty]⟩
  have hknown : (φ l.file != "") = (l.file != "") := Bool.eq_iff_iff.mpr (by simp [hempty])
  exact congrArg (· && decide (0 < l.line)) hknown

/-- Where base names are kept, places are shown as before. -/
theorem normalized_mapFile (hφ : KeepsBaseNames φ) (l : Location) :
    (l.mapFile φ).normalized = l.normalized := by
  rw [normalized, normalized, isKnown_mapFile hφ]
  split
  · exact congrArg (fun file => (⟨file, l.line, l.column⟩ : Location)) (hφ.baseName l.file)
  · rfl

end Location

/-! ### Findings -/

variable (φ : String → String)

/-- The finding with the place of an earlier embedding in another file. -/
def AnalysisError.mapPrevious : AnalysisError → AnalysisError
  | conflictingGetEmbed page owner previousOwner previous =>
    conflictingGetEmbed page owner previousOwner (previous.mapFile φ)
  | conflictingEventHandlerEmbed page event owner previousOwner previous =>
    conflictingEventHandlerEmbed page event owner previousOwner (previous.mapFile φ)
  | e => e

/-- The finding in another file. -/
def Finding.mapFile (found : Finding) : Finding :=
  (found.1.mapFile φ, found.2.mapPrevious φ)

/-! ### Handlers -/

/-- The parameter or result in another file. -/
def Slot.mapFile (slot : Slot) : Slot :=
  ⟨slot.name, ⟨slot.type.resolved.mapFile φ, slot.type.expr⟩, slot.location.mapFile φ⟩

/-- The parameters in another file. -/
def HandlerInputs.mapFile (inputs : HandlerInputs) : HandlerInputs where
  request := inputs.request.map (Slot.mapFile φ)
  sse := inputs.sse.map (Slot.mapFile φ)
  sessionToken := inputs.sessionToken.map (Slot.mapFile φ)
  session := inputs.session.map (Slot.mapFile φ)
  path := inputs.path.map (Slot.mapFile φ)
  query := inputs.query.map (Slot.mapFile φ)
  signals := inputs.signals.map (Slot.mapFile φ)
  dispatch := inputs.dispatch.map (Slot.mapFile φ)

/-- The results in another file. -/
def HandlerOutputs.mapFile (outputs : HandlerOutputs) : HandlerOutputs where
  err := outputs.err.map (Slot.mapFile φ)
  body := outputs.body.map (Slot.mapFile φ)
  head := outputs.head.map (Slot.mapFile φ)
  redirect := outputs.redirect.map (Slot.mapFile φ)
  redirectStatus := outputs.redirectStatus.map (Slot.mapFile φ)
  newSession := outputs.newSession.map (Slot.mapFile φ)
  closeSession := outputs.closeSession.map (Slot.mapFile φ)
  enableBackgroundStreaming := outputs.enableBackgroundStreaming.map (Slot.mapFile φ)
  disableRefreshAfterHidden := outputs.disableRefreshAfterHidden.map (Slot.mapFile φ)

/-- The handler in another file. -/
def Handler.mapFile (h : Handler) : Handler :=
  { h with
    location := h.location.mapFile φ
    inputs := h.inputs.mapFile φ
    outputs := h.outputs.mapFile φ
    pluginInputs := h.pluginInputs.map (Slot.mapFile φ)
    pluginOutputs := h.pluginOutputs.map (Slot.mapFile φ) }

/-- The event handler in another file. -/
def EventHandler.mapFile (h : EventHandler) : EventHandler :=
  { h with
    location := h.location.mapFile φ
    event := h.event.map (Slot.mapFile φ)
    sse := h.sse.map (Slot.mapFile φ)
    sessionToken := h.sessionToken.map (Slot.mapFile φ)
    session := h.session.map (Slot.mapFile φ)
    err := h.err.map (Slot.mapFile φ)
    pluginInputs := h.pluginInputs.map (Slot.mapFile φ) }

/-! ### Owners -/

/-- The embedding in another file. -/
def EmbedRef.mapFile (e : EmbedRef) : EmbedRef := ⟨e.typeName, e.location.mapFile φ⟩

/-- The page in another file. -/
def Page.mapFile (p : Page) : Page :=
  { p with
    location := p.location.mapFile φ
    get := p.get.map (Handler.mapFile φ)
    actions := p.actions.map (Handler.mapFile φ)
    eventHandlers := p.eventHandlers.map (EventHandler.mapFile φ)
    embeds := p.embeds.map (EmbedRef.mapFile φ) }

/-- The abstract page in another file. -/
def AbstractPage.mapFile (p : AbstractPage) : AbstractPage :=
  { p with
    location := p.location.mapFile φ
    get := p.get.map (Handler.mapFile φ)
    actions := p.actions.map (Handler.mapFile φ)
    eventHandlers := p.eventHandlers.map (EventHandler.mapFile φ)
    embeds := p.embeds.map (EmbedRef.mapFile φ) }

/-- The handlers in another file. -/
def OwnHandlers.mapFile (hs : OwnHandlers) : OwnHandlers where
  get := hs.get.map (Handler.mapFile φ)
  actions := hs.actions.map (Handler.mapFile φ)
  eventHandlers := hs.eventHandlers.map (EventHandler.mapFile φ)

/-- The owner in another file. -/
def Owner.mapFile : Owner → Owner
  | page p => page (p.mapFile φ)
  | abstractPage p => abstractPage (p.mapFile φ)

@[simp] theorem Owner.typeName_mapFile (o : Owner) : (o.mapFile φ).typeName = o.typeName := by
  cases o <;> rfl

@[simp] theorem Owner.route?_mapFile (o : Owner) : (o.mapFile φ).route? = o.route? := by
  cases o <;> rfl

/-! ### Settings -/

namespace Setting

/-- The setting with the package in files under other names. -/
def mapFile (digest : String) (s : Setting) : Setting :=
  ⟨s.package.mapFile φ digest, s.conventions⟩

variable (digest : String) (s : Setting)

/-- Event types are known by their names and their comments. -/
theorem isEventType_mapFile (name : String) :
    (s.mapFile φ digest).isEventType name = s.isEventType name :=
  congrArg (s.conventions.isValidEventName name && ·)
    (s.package.isSome_typeDecl?_mapFile φ digest name)

theorem eventTypes_mapFile :
    (s.mapFile φ digest).eventTypes = s.eventTypes.map (TypeDecl.mapFile φ) := by
  have htypes : (s.mapFile φ digest).package.types = s.package.types.map (TypeDecl.mapFile φ) :=
    s.package.types_mapFile φ digest
  rw [eventTypes, eventTypes, htypes, List.filter_map]
  rfl

/-- Which event a type stands for does not depend on where it is declared. -/
theorem eventOf?_mapFile (type : HostType) :
    (s.mapFile φ digest).eventOf? (type.mapFile φ) = s.eventOf? type := by
  have hunalias : (s.mapFile φ digest).package.unalias (type.stripPointer.mapFile φ) =
      (s.package.unalias type.stripPointer).mapFile φ := s.package.unalias_mapFile φ digest _
  have hevent : (s.mapFile φ digest).isEventType = s.isEventType :=
    funext (s.isEventType_mapFile φ digest)
  rw [eventOf?, eventOf?, HostType.stripPointer_mapFile, hunalias, HostType.localName_mapFile,
    hevent]

/-- So it is with the session. -/
theorem isSession_mapFile (type : HostType) :
    (s.mapFile φ digest).isSession (type.mapFile φ) = s.isSession type := by
  have hunalias : (s.mapFile φ digest).package.unalias (type.mapFile φ) =
      (s.package.unalias type).mapFile φ := s.package.unalias_mapFile φ digest type
  rw [isSession, isSession, hunalias, HostType.localName_mapFile]
  rfl

/-- And with pointers to the application. -/
theorem isAppPointer_mapFile (type : HostType) :
    (s.mapFile φ digest).isAppPointer (type.mapFile φ) = s.isAppPointer type := by
  cases type with
  | pointer elem => exact congrArg (· == some s.conventions.appType) (elem.localName_mapFile φ)
  | _ => rfl

end Setting

end GoPages

import GoPages.Proofs.Owner.Turns

/-!
# Handlers without additions

`Handler.bare` forgets what plugins have added to a handler. Attaching methods with plugins and then
forgetting their additions is attaching the methods without plugins, step by step
(`Owner.bare_attach`) and so for all of them (`Owner.bare_attached`). Additions do not show in what
is found about methods either (`Owner.findings_eq`).
-/

namespace GoPages

/-- The handler without additions. -/
def Handler.bare (h : Handler) : Handler := { h with pluginInputs := [], pluginOutputs := [] }

/-- The event handler without additions. -/
def EventHandler.bare (h : EventHandler) : EventHandler := { h with pluginInputs := [] }

/-- The handlers without additions. -/
def OwnHandlers.bare (hs : OwnHandlers) : OwnHandlers where
  get := hs.get.map Handler.bare
  actions := hs.actions.map Handler.bare
  eventHandlers := hs.eventHandlers.map EventHandler.bare

/-! ### Plugins -/

@[simp] theorem HandlerContext.extended_nil (c : HandlerContext) : c.extended [] = c.handler := by
  simp [extended]

@[simp] theorem HandlerContext.bare_extended (plugins : List Plugin) (c : HandlerContext) :
    (c.extended plugins).bare = c.handler.bare := rfl

@[simp] theorem EventHandlerContext.extended_nil (c : EventHandlerContext) :
    c.extended [] = c.handler := by
  simp [extended]

@[simp] theorem EventHandlerContext.bare_extended (plugins : List Plugin)
    (c : EventHandlerContext) : (c.extended plugins).bare = c.handler.bare := rfl

/-! ### Reading -/

@[simp] theorem Handler.bare_read (s : Setting) (m : Method) (method : HttpMethod)
    (name route : String) : (read s m method name route).bare = read s m method name route := rfl

/-- A method declares a handler without additions. -/
theorem Owner.bare_of_handler? {s : Setting} {o : Owner} {m : Method} {h : Handler}
    (hread : o.handler? s m = some h) : h.bare = h := by
  obtain ⟨⟨method, name⟩, -, rfl⟩ := Option.map_eq_some_iff.mp hread
  rfl

/-- So it is with an event handler. -/
theorem Owner.bare_of_eventHandler? {s : Setting} {m : Method} {h : EventHandler}
    (hread : eventHandler? s m = some h) : h.bare = h := by
  obtain ⟨suffix, -, hread⟩ := Option.bind_eq_some_iff.mp hread
  rw [EventHandler.read?] at hread
  split at hread
  · cases hread
  · cases hread
    rfl

/-! ### Adding -/

namespace OwnHandlers

variable (hs : OwnHandlers)

/-- Additions to a handler are forgotten when it is added, or before. -/
theorem bare_add (h : Handler) : (hs.add h).bare = hs.bare.add h.bare := by
  have hmethod : h.bare.method = h.method := rfl
  rw [add, add, hmethod]
  split
  · cases hget : hs.get <;> simp [bare, hget]
  · simp [bare]

private theorem bare_addEvent (h : EventHandler) :
    (hs.addEvent h).bare = hs.bare.addEvent h.bare := by
  simp [bare, addEvent]

private theorem eventHandler?_bare (e : String) :
    hs.bare.eventHandler? e = (hs.eventHandler? e).map EventHandler.bare := List.find?_map

end OwnHandlers

/-! ### Attaching -/

namespace Owner

variable (s : Setting) (plugins : List Plugin) (o : Owner)

/-- One method: its additions are all that plugins change. -/
theorem bare_attach (hs : OwnHandlers) (m : Method) :
    (o.attach s plugins hs m).bare = o.attach s [] hs.bare m := by
  rw [attach, attach]
  split
  · simp [attachHandler, OwnHandlers.bare_add]
  · split
    · next h hread =>
      rw [attachEventHandler, attachEventHandler, OwnHandlers.eventHandler?_bare, Option.isSome_map]
      split
      · rfl
      · simp [OwnHandlers.bare_addEvent, bare_of_eventHandler? hread]
    · rfl

/-- All methods. -/
theorem bare_attached (ms : List Method) :
    (o.attached s plugins ms).bare = o.attached s [] ms :=
  (List.foldl_hom OwnHandlers.bare fun hs m => (o.bare_attach s plugins hs m).symm).symm

/-- The handlers of an owner without additions are those without plugins. -/
theorem bare_handlers : (o.handlers s plugins).bare = o.handlers s [] := o.bare_attached s plugins _

/-! ### Findings -/

/-- What is found about a method does not depend on what was added to the handlers before it. -/
private theorem methodFindings_bare (hs : OwnHandlers) (m : Method) :
    o.methodFindings s hs.bare m = o.methodFindings s hs m := by
  have hduplicate : duplicateFindings s hs.bare m = duplicateFindings s hs m := by
    rw [duplicateFindings, duplicateFindings]
    split
    · rfl
    · next h _ =>
      rw [OwnHandlers.eventHandler?_bare]
      cases hs.eventHandler? h.eventType <;> rfl
  rw [methodFindings, methodFindings, hduplicate]

private theorem findingsAfter_eq (hs : OwnHandlers) (ms : List Method) :
    findingsAfter s plugins o hs ms = findingsAfter s [] o hs.bare ms := by
  induction ms generalizing hs with
  | nil => rfl
  | cons m ms ih => rw [findingsAfter, findingsAfter, ih, bare_attach, methodFindings_bare]

/-- What is found about the methods of an owner does not depend on plugins. -/
theorem findings_eq : o.findings s plugins = o.findings s [] := o.findingsAfter_eq s plugins _ _

end Owner

end GoPages

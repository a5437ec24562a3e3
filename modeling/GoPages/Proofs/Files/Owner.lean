import GoPages.Owner.Attach
import GoPages.Proofs.Files.Signature
import GoPages.Proofs.Owner.Bare

/-!
# Owners in files under other names

An owner whose methods stand in files under other names declares the same handlers
(`Owner.handlers_mapFile`), and the same findings come up about its methods
(`Owner.findings_mapFile`). The finding about a second handler of an event type shows the place of
the first one, with the base name of its file.

No plugins take part here, since a plugin may look at the names of files.
-/

namespace GoPages

variable (φ : String → String) (digest : String)

/-! ### Own handlers -/

namespace OwnHandlers

variable (hs : OwnHandlers)

/-- A handler is added in the other file. -/
theorem add_mapFile (h : Handler) :
    (hs.add h).mapFile φ = (hs.mapFile φ).add (h.mapFile φ) := by
  have hmethod : (h.mapFile φ).method = h.method := rfl
  rw [add, add, hmethod]
  split
  · rw [mapFile, mapFile, Option.map_or]
    rfl
  · rw [mapFile, List.map_append]
    rfl

private theorem addEvent_mapFile (h : EventHandler) :
    (hs.addEvent h).mapFile φ = (hs.mapFile φ).addEvent (h.mapFile φ) := by
  rw [addEvent, mapFile, List.map_append]
  rfl

private theorem eventHandler?_mapFile (e : String) :
    (hs.mapFile φ).eventHandler? e = (hs.eventHandler? e).map (EventHandler.mapFile φ) :=
  List.find?_map

end OwnHandlers

/-! ### Methods by their names -/

namespace Setting

variable (s : Setting) (m : Method)

private theorem nameFindings_mapFile :
    (s.mapFile φ digest).nameFindings (m.mapFile φ) =
      (s.nameFindings m).map (Finding.mapFile φ) := by
  have hconventions : (s.mapFile φ digest).conventions = s.conventions := rfl
  have hname : (m.mapFile φ).name = m.name := rfl
  rw [nameFindings, nameFindings, hconventions, hname]
  split
  · split <;> rfl
  · split <;> rfl
  · rfl

/-- The methods of a receiver stand in the other files, in the same order. -/
theorem methodsOf_mapFile (receiver : String) :
    (s.mapFile φ digest).methodsOf receiver =
      (s.methodsOf receiver).map (Method.mapFile φ) := by
  have hdecls : (s.mapFile φ digest).package.methodsOf receiver =
      (s.package.methodsOf receiver).map (MethodDecl.mapFile φ) :=
    s.package.methodsOf_mapFile φ digest receiver
  rw [methodsOf, methodsOf, hdecls, List.map_map, List.map_map]
  rfl

/-- The places of invalid paths move with their methods. -/
theorem invalidPaths_mapFile (receiver : String) :
    (s.mapFile φ digest).invalidPaths receiver =
      (s.invalidPaths receiver).map (Location.mapFile φ) := by
  rw [invalidPaths, invalidPaths, methodsOf_mapFile, List.filter_map, List.map_map, List.map_map]
  simp only [Function.comp_def, HandlerInputs.pathIsInvalid_mapFile]
  rfl

end Setting

/-! ### Owners -/

namespace Owner

variable (o : Owner) (s : Setting) (m : Method)

private theorem handlerRoute_mapFile (method : HttpMethod) :
    (o.mapFile φ).handlerRoute (m.mapFile φ) method = o.handlerRoute m method := by
  have hdoc : (m.mapFile φ).decl.decl.doc = m.decl.decl.doc.map (CommentGroup.mapFile φ) := rfl
  rw [handlerRoute, handlerRoute, route?_mapFile, hdoc, Route.ofComment_mapFile]
  rfl

private theorem nestingFindings_mapFile (route : String) :
    (o.mapFile φ).nestingFindings (m.mapFile φ) route =
      (o.nestingFindings m route).map (Finding.mapFile φ) := by
  rw [nestingFindings, nestingFindings, route?_mapFile]
  cases o.route? with
  | none => rfl
  | some pageRoute =>
    dsimp only
    split <;> rfl

private theorem routeFindings_mapFile (method : HttpMethod) :
    (o.mapFile φ).routeFindings (m.mapFile φ) method =
      (o.routeFindings m method).map (Finding.mapFile φ) := by
  have hdoc : (m.mapFile φ).decl.decl.doc = m.decl.decl.doc.map (CommentGroup.mapFile φ) := rfl
  have hname : (m.mapFile φ).name = m.name := rfl
  rw [routeFindings, routeFindings, hdoc, hname, Route.ofComment_mapFile]
  split
  · rfl
  · cases Route.ofComment m.name m.decl.decl.doc with
    | notAttempted => rfl
    | malformed => rfl
    | wellFormed route => exact o.nestingFindings_mapFile φ m route

private theorem eventHandler?_mapFile :
    eventHandler? (s.mapFile φ digest) (m.mapFile φ) =
      (eventHandler? s m).map (EventHandler.mapFile φ) := by
  have hsuffix : (s.mapFile φ digest).eventSuffix? (m.mapFile φ).name = s.eventSuffix? m.name := rfl
  rw [eventHandler?, eventHandler?, hsuffix, Option.map_bind]
  exact congrArg (s.eventSuffix? m.name).bind
    (funext (EventHandler.read?_mapFile φ digest s m))

/-- One method. -/
theorem attach_mapFile (hs : OwnHandlers) :
    (o.mapFile φ).attach (s.mapFile φ digest) [] (hs.mapFile φ) (m.mapFile φ) =
      (o.attach s [] hs m).mapFile φ := by
  have hrequest : (s.mapFile φ digest).request? (m.mapFile φ).name = s.request? m.name := rfl
  rw [attach, attach, hrequest, eventHandler?_mapFile]
  cases s.request? m.name with
  | some r =>
    simp only [attachHandler, HandlerContext.extended_nil, handlerRoute_mapFile,
      Handler.read_mapFile, OwnHandlers.add_mapFile]
  | none =>
    cases eventHandler? s m with
    | none => rfl
    | some h =>
      have htype : (h.mapFile φ).eventType = h.eventType := rfl
      simp only [Option.map_some, attachEventHandler, EventHandlerContext.extended_nil, htype,
        OwnHandlers.eventHandler?_mapFile, Option.isSome_map]
      split
      · rfl
      · exact (hs.addEvent_mapFile φ h).symm

/-- Methods in their order. -/
theorem foldl_attach_mapFile (hs : OwnHandlers) (ms : List Method) :
    (ms.map (Method.mapFile φ)).foldl ((o.mapFile φ).attach (s.mapFile φ digest) [])
      (hs.mapFile φ) = (ms.foldl (o.attach s []) hs).mapFile φ := by
  rw [List.foldl_map]
  exact List.foldl_hom (OwnHandlers.mapFile φ) fun hs m => o.attach_mapFile φ digest s m hs

/-- The handlers that an owner declares in files under other names. -/
theorem handlers_mapFile :
    (o.mapFile φ).handlers (s.mapFile φ digest) [] = (o.handlers s []).mapFile φ := by
  rw [handlers, handlers, typeName_mapFile, Setting.methodsOf_mapFile]
  exact o.foldl_attach_mapFile φ digest s .empty (s.methodsOf o.typeName)

variable {φ}

private theorem duplicateFindings_mapFile (hφ : Location.KeepsBaseNames φ) (hs : OwnHandlers) :
    duplicateFindings (s.mapFile φ digest) (hs.mapFile φ) (m.mapFile φ) =
      (duplicateFindings s hs m).map (Finding.mapFile φ) := by
  rw [duplicateFindings, duplicateFindings, eventHandler?_mapFile]
  cases eventHandler? s m with
  | none => rfl
  | some h =>
    have htype : (h.mapFile φ).eventType = h.eventType := rfl
    simp only [Option.map_some, htype, OwnHandlers.eventHandler?_mapFile]
    cases hs.eventHandler? h.eventType with
    | none => rfl
    | some previous =>
      -- The finding holds the place of the first handler, but without a directory.
      have hprevious : (previous.mapFile φ).location.normalized = previous.location.normalized :=
        previous.location.normalized_mapFile hφ
      simp only [Option.map_some, hprevious]
      rfl

/-- The findings about a method at its turn move with the method and the handlers before it. -/
theorem methodFindings_mapFile (hφ : Location.KeepsBaseNames φ) (hs : OwnHandlers) :
    (o.mapFile φ).methodFindings (s.mapFile φ digest) (hs.mapFile φ) (m.mapFile φ) =
      (o.methodFindings s hs m).map (Finding.mapFile φ) := by
  have hrequest : (s.mapFile φ digest).request? (m.mapFile φ).name = s.request? m.name := rfl
  have hsuffix : (s.mapFile φ digest).eventSuffix? (m.mapFile φ).name = s.eventSuffix? m.name := rfl
  rw [methodFindings, methodFindings, hrequest, hsuffix, Setting.nameFindings_mapFile,
    List.map_append]
  congr 1
  cases s.request? m.name with
  | some r =>
    simp only [Handler.findings_mapFile, routeFindings_mapFile, List.map_append]
  | none =>
    dsimp only
    split
    · rw [EventHandler.findings_mapFile, duplicateFindings_mapFile digest s m hφ, List.map_append]
    · rfl

/-- So do the findings about all methods, turn by turn. -/
private theorem findingsAfter_mapFile (hφ : Location.KeepsBaseNames φ) (ms : List Method) :
    ∀ hs : OwnHandlers,
      (o.mapFile φ).findingsAfter (s.mapFile φ digest) [] (hs.mapFile φ)
        (ms.map (Method.mapFile φ)) = (o.findingsAfter s [] hs ms).map (Finding.mapFile φ) := by
  induction ms with
  | nil => intro hs; rfl
  | cons m ms ih =>
    intro hs
    -- The handlers after the method are those after it in the other file, so `ih` applies to them.
    rw [List.map_cons, findingsAfter, findingsAfter, o.methodFindings_mapFile digest s m hφ,
      attach_mapFile, ih, List.map_append]

/-- The findings about the methods of an owner in files under other names. -/
theorem findings_mapFile (hφ : Location.KeepsBaseNames φ) :
    (o.mapFile φ).findings (s.mapFile φ digest) [] =
      (o.findings s []).map (Finding.mapFile φ) := by
  rw [findings, findings, typeName_mapFile, Setting.methodsOf_mapFile]
  exact o.findingsAfter_mapFile digest s hφ (s.methodsOf o.typeName) .empty

end Owner

end GoPages

import GoPages.HostType.Codec
import GoPages.Json.Printer
import GoPages.Model

/-!
# The model in JSON

Every part of the model is a record with the names of its fields for keys, in their order. An absent
value is null; a field that may be absent may also be missing when a record is read. HTTP methods
and kinds of pages are written by name.

`App.render` is the text of an application over several lines, and `App.ofText?` reads such a text.
-/

namespace GoPages

/-! ### Alternatives -/

/-- A method of HTTP by its name. -/
def HttpMethod.toJson (m : HttpMethod) : Json := .str m.text

/-- Reads a method of HTTP. -/
def HttpMethod.ofJson? : Json → Option HttpMethod :=
  Json.alternative HttpMethod.text [.get, .post, .put, .delete]

/-- The name of a kind of pages. -/
def PageKind.text : PageKind → String
  | ordinary => "ordinary"
  | index => "index"
  | error404 => "error404"
  | error500 => "error500"

/-- A kind of pages by its name. -/
def PageKind.toJson (k : PageKind) : Json := .str k.text

/-- Reads a kind of pages. -/
def PageKind.ofJson? : Json → Option PageKind :=
  Json.alternative PageKind.text [.ordinary, .index, .error404, .error500]

/-! ### Records -/

/-- A field of a struct type as a record. -/
def StructFieldOf.toJson (x : StructFieldOf HostType) : Json :=
  structFieldJson x.name x.embedded x.type.toJson x.tag x.location

/-- Reads a field of a struct type. -/
def StructFieldOf.ofJson? : Json → Option (StructFieldOf HostType) :=
  structFieldOfJson? HostType.ofJson?

/-- A type reference as a record. -/
def TypeRef.toJson (x : TypeRef) : Json :=
  .obj [("resolved", x.resolved.toJson), ("expr", .str x.expr)]

/-- Reads a type reference. -/
def TypeRef.ofJson? (value : Json) : Option TypeRef := do
  let r ← Json.record? ["resolved", "expr"] 2 value
  let resolved ← r.required "resolved" HostType.ofJson?
  let expr ← r.required "expr" Json.string
  return { resolved, expr }

/-- A parameter or result as a record. -/
def Slot.toJson (x : Slot) : Json :=
  .obj [("name", .str x.name), ("type", x.type.toJson), ("location", x.location.toJson)]

/-- Reads a parameter or result. -/
def Slot.ofJson? (value : Json) : Option Slot := do
  let r ← Json.record? ["name", "type", "location"] 3 value
  let name ← r.required "name" Json.string
  let type ← r.required "type" TypeRef.ofJson?
  let location ← r.required "location" Location.ofJson?
  return { name, type, location }

/-- The parameters of a handler as a record. -/
def HandlerInputs.toJson (x : HandlerInputs) : Json :=
  .obj [("request", Json.ofOption Slot.toJson x.request),
    ("sse", Json.ofOption Slot.toJson x.sse),
    ("sessionToken", Json.ofOption Slot.toJson x.sessionToken),
    ("session", Json.ofOption Slot.toJson x.session), ("path", Json.ofOption Slot.toJson x.path),
    ("query", Json.ofOption Slot.toJson x.query),
    ("signals", Json.ofOption Slot.toJson x.signals),
    ("dispatch", Json.ofOption Slot.toJson x.dispatch)]

/-- Reads the parameters of a handler. -/
def HandlerInputs.ofJson? (value : Json) : Option HandlerInputs := do
  let r ← Json.record? ["request", "sse", "sessionToken", "session", "path", "query", "signals",
    "dispatch"] 8 value
  let request ← r.optional "request" Slot.ofJson?
  let sse ← r.optional "sse" Slot.ofJson?
  let sessionToken ← r.optional "sessionToken" Slot.ofJson?
  let session ← r.optional "session" Slot.ofJson?
  let path ← r.optional "path" Slot.ofJson?
  let query ← r.optional "query" Slot.ofJson?
  let signals ← r.optional "signals" Slot.ofJson?
  let dispatch ← r.optional "dispatch" Slot.ofJson?
  return { request, sse, sessionToken, session, path, query, signals, dispatch }

/-- The results of a handler as a record. -/
def HandlerOutputs.toJson (x : HandlerOutputs) : Json :=
  .obj [("err", Json.ofOption Slot.toJson x.err), ("body", Json.ofOption Slot.toJson x.body),
    ("head", Json.ofOption Slot.toJson x.head),
    ("redirect", Json.ofOption Slot.toJson x.redirect),
    ("redirectStatus", Json.ofOption Slot.toJson x.redirectStatus),
    ("newSession", Json.ofOption Slot.toJson x.newSession),
    ("closeSession", Json.ofOption Slot.toJson x.closeSession),
    ("enableBackgroundStreaming", Json.ofOption Slot.toJson x.enableBackgroundStreaming),
    ("disableRefreshAfterHidden", Json.ofOption Slot.toJson x.disableRefreshAfterHidden)]

/-- Reads the results of a handler. -/
def HandlerOutputs.ofJson? (value : Json) : Option HandlerOutputs := do
  let r ← Json.record? ["err", "body", "head", "redirect", "redirectStatus", "newSession",
    "closeSession", "enableBackgroundStreaming", "disableRefreshAfterHidden"] 9 value
  let err ← r.optional "err" Slot.ofJson?
  let body ← r.optional "body" Slot.ofJson?
  let head ← r.optional "head" Slot.ofJson?
  let redirect ← r.optional "redirect" Slot.ofJson?
  let redirectStatus ← r.optional "redirectStatus" Slot.ofJson?
  let newSession ← r.optional "newSession" Slot.ofJson?
  let closeSession ← r.optional "closeSession" Slot.ofJson?
  let enableBackgroundStreaming ← r.optional "enableBackgroundStreaming" Slot.ofJson?
  let disableRefreshAfterHidden ← r.optional "disableRefreshAfterHidden" Slot.ofJson?
  return { err, body, head, redirect, redirectStatus, newSession, closeSession,
           enableBackgroundStreaming, disableRefreshAfterHidden }

/-- A handler as a record. -/
def Handler.toJson (x : Handler) : Json :=
  .obj [("method", x.method.toJson), ("methodName", .str x.methodName), ("name", .str x.name),
    ("route", .str x.route), ("location", x.location.toJson),
    ("inheritedFrom", Json.ofOption Json.str x.inheritedFrom), ("inputs", x.inputs.toJson),
    ("outputs", x.outputs.toJson), ("dispatchedEvents", Json.ofList Json.str x.dispatchedEvents),
    ("pluginInputs", Json.ofList Slot.toJson x.pluginInputs),
    ("pluginOutputs", Json.ofList Slot.toJson x.pluginOutputs)]

/-- Reads a handler. -/
def Handler.ofJson? (value : Json) : Option Handler := do
  let r ← Json.record? ["method", "methodName", "name", "route", "location", "inheritedFrom",
    "inputs", "outputs", "dispatchedEvents", "pluginInputs", "pluginOutputs"] 11 value
  let method ← r.required "method" HttpMethod.ofJson?
  let methodName ← r.required "methodName" Json.string
  let name ← r.required "name" Json.string
  let route ← r.required "route" Json.string
  let location ← r.required "location" Location.ofJson?
  let inheritedFrom ← r.optional "inheritedFrom" Json.string
  let inputs ← r.required "inputs" HandlerInputs.ofJson?
  let outputs ← r.required "outputs" HandlerOutputs.ofJson?
  let dispatchedEvents ← r.required "dispatchedEvents" (Json.list Json.string)
  let pluginInputs ← r.required "pluginInputs" (Json.list Slot.ofJson?)
  let pluginOutputs ← r.required "pluginOutputs" (Json.list Slot.ofJson?)
  return { method, methodName, name, route, location, inheritedFrom, inputs, outputs,
           dispatchedEvents, pluginInputs, pluginOutputs }

/-- An event handler as a record. -/
def EventHandler.toJson (x : EventHandler) : Json :=
  .obj [("methodName", .str x.methodName), ("name", .str x.name), ("eventType", .str x.eventType),
    ("location", x.location.toJson), ("inheritedFrom", Json.ofOption Json.str x.inheritedFrom),
    ("event", Json.ofOption Slot.toJson x.event), ("sse", Json.ofOption Slot.toJson x.sse),
    ("sessionToken", Json.ofOption Slot.toJson x.sessionToken),
    ("session", Json.ofOption Slot.toJson x.session), ("err", Json.ofOption Slot.toJson x.err),
    ("pluginInputs", Json.ofList Slot.toJson x.pluginInputs)]

/-- Reads an event handler. -/
def EventHandler.ofJson? (value : Json) : Option EventHandler := do
  let r ← Json.record? ["methodName", "name", "eventType", "location", "inheritedFrom", "event",
    "sse", "sessionToken", "session", "err", "pluginInputs"] 11 value
  let methodName ← r.required "methodName" Json.string
  let name ← r.required "name" Json.string
  let eventType ← r.required "eventType" Json.string
  let location ← r.required "location" Location.ofJson?
  let inheritedFrom ← r.optional "inheritedFrom" Json.string
  let event ← r.optional "event" Slot.ofJson?
  let sse ← r.optional "sse" Slot.ofJson?
  let sessionToken ← r.optional "sessionToken" Slot.ofJson?
  let session ← r.optional "session" Slot.ofJson?
  let err ← r.optional "err" Slot.ofJson?
  let pluginInputs ← r.required "pluginInputs" (Json.list Slot.ofJson?)
  return { methodName, name, eventType, location, inheritedFrom, event, sse, sessionToken,
           session, err, pluginInputs }

/-- An embedding as a record. -/
def EmbedRef.toJson (x : EmbedRef) : Json :=
  .obj [("typeName", .str x.typeName), ("location", x.location.toJson)]

/-- Reads an embedding. -/
def EmbedRef.ofJson? (value : Json) : Option EmbedRef := do
  let r ← Json.record? ["typeName", "location"] 2 value
  let typeName ← r.required "typeName" Json.string
  let location ← r.required "location" Location.ofJson?
  return { typeName, location }

/-- A page as a record. -/
def Page.toJson (x : Page) : Json :=
  .obj [("typeName", .str x.typeName), ("route", .str x.route), ("kind", x.kind.toJson),
    ("location", x.location.toJson), ("get", Json.ofOption Handler.toJson x.get),
    ("actions", Json.ofList Handler.toJson x.actions),
    ("eventHandlers", Json.ofList EventHandler.toJson x.eventHandlers),
    ("embeds", Json.ofList EmbedRef.toJson x.embeds)]

/-- Reads a page. -/
def Page.ofJson? (value : Json) : Option Page := do
  let r ← Json.record? ["typeName", "route", "kind", "location", "get", "actions",
    "eventHandlers", "embeds"] 8 value
  let typeName ← r.required "typeName" Json.string
  let route ← r.required "route" Json.string
  let kind ← r.required "kind" PageKind.ofJson?
  let location ← r.required "location" Location.ofJson?
  let get ← r.optional "get" Handler.ofJson?
  let actions ← r.required "actions" (Json.list Handler.ofJson?)
  let eventHandlers ← r.required "eventHandlers" (Json.list EventHandler.ofJson?)
  let embeds ← r.required "embeds" (Json.list EmbedRef.ofJson?)
  return { typeName, route, kind, location, get, actions, eventHandlers, embeds }

/-- An abstract page as a record. -/
def AbstractPage.toJson (x : AbstractPage) : Json :=
  .obj [("typeName", .str x.typeName), ("location", x.location.toJson),
    ("get", Json.ofOption Handler.toJson x.get),
    ("actions", Json.ofList Handler.toJson x.actions),
    ("eventHandlers", Json.ofList EventHandler.toJson x.eventHandlers),
    ("embeds", Json.ofList EmbedRef.toJson x.embeds)]

/-- Reads an abstract page. -/
def AbstractPage.ofJson? (value : Json) : Option AbstractPage := do
  let r ← Json.record? ["typeName", "location", "get", "actions", "eventHandlers",
    "embeds"] 6 value
  let typeName ← r.required "typeName" Json.string
  let location ← r.required "location" Location.ofJson?
  let get ← r.optional "get" Handler.ofJson?
  let actions ← r.required "actions" (Json.list Handler.ofJson?)
  let eventHandlers ← r.required "eventHandlers" (Json.list EventHandler.ofJson?)
  let embeds ← r.required "embeds" (Json.list EmbedRef.ofJson?)
  return { typeName, location, get, actions, eventHandlers, embeds }

/-- An event as a record. -/
def Event.toJson (x : Event) : Json :=
  .obj [("typeName", .str x.typeName), ("subject", .str x.subject),
    ("hasTargetUserIds", .bool x.hasTargetUserIds), ("location", x.location.toJson)]

/-- Reads an event. -/
def Event.ofJson? (value : Json) : Option Event := do
  let r ← Json.record? ["typeName", "subject", "hasTargetUserIds", "location"] 4 value
  let typeName ← r.required "typeName" Json.string
  let subject ← r.required "subject" Json.string
  let hasTargetUserIds ← r.required "hasTargetUserIds" Json.boolean
  let location ← r.required "location" Location.ofJson?
  return { typeName, subject, hasTargetUserIds, location }

/-- A hook as a record. -/
def Hook.toJson (x : Hook) : Json :=
  .obj [("name", .str x.name), ("location", x.location.toJson),
    ("inputs", Json.ofList Slot.toJson x.inputs), ("outputs", Json.ofList Slot.toJson x.outputs)]

/-- Reads a hook. -/
def Hook.ofJson? (value : Json) : Option Hook := do
  let r ← Json.record? ["name", "location", "inputs", "outputs"] 4 value
  let name ← r.required "name" Json.string
  let location ← r.required "location" Location.ofJson?
  let inputs ← r.required "inputs" (Json.list Slot.ofJson?)
  let outputs ← r.required "outputs" (Json.list Slot.ofJson?)
  return { name, location, inputs, outputs }

/-- A session type as a record. -/
def SessionShape.toJson (x : SessionShape) : Json :=
  .obj [("typeName", .str x.typeName), ("location", x.location.toJson),
    ("fields", Json.ofList StructFieldOf.toJson x.fields)]

/-- Reads a session type. -/
def SessionShape.ofJson? (value : Json) : Option SessionShape := do
  let r ← Json.record? ["typeName", "location", "fields"] 3 value
  let typeName ← r.required "typeName" Json.string
  let location ← r.required "location" Location.ofJson?
  let fields ← r.required "fields" (Json.list StructFieldOf.ofJson?)
  return { typeName, location, fields }

/-- An application as a record. -/
def App.toJson (x : App) : Json :=
  .obj [("package", .str x.package), ("sourceDigest", .str x.sourceDigest),
    ("location", x.location.toJson), ("session", Json.ofOption SessionShape.toJson x.session),
    ("head", Json.ofOption Hook.toJson x.head),
    ("recover500", Json.ofOption Hook.toJson x.recover500),
    ("pages", Json.ofList Page.toJson x.pages),
    ("abstractPages", Json.ofList AbstractPage.toJson x.abstractPages),
    ("events", Json.ofList Event.toJson x.events)]

/-- Reads an application. -/
def App.ofJson? (value : Json) : Option App := do
  let r ← Json.record? ["package", "sourceDigest", "location", "session", "head", "recover500",
    "pages", "abstractPages", "events"] 9 value
  let package ← r.required "package" Json.string
  let sourceDigest ← r.required "sourceDigest" Json.string
  let location ← r.required "location" Location.ofJson?
  let session ← r.optional "session" SessionShape.ofJson?
  let head ← r.optional "head" Hook.ofJson?
  let recover500 ← r.optional "recover500" Hook.ofJson?
  let pages ← r.required "pages" (Json.list Page.ofJson?)
  let abstractPages ← r.required "abstractPages" (Json.list AbstractPage.ofJson?)
  let events ← r.required "events" (Json.list Event.ofJson?)
  return { package, sourceDigest, location, session, head, recover500, pages, abstractPages,
           events }

namespace App

/-- The text of an application. -/
def render (app : App) : String := app.toJson.pretty

/-- Reads an application from a JSON text. -/
def ofText? (text : String) : Option App := (Json.parseCropped? text).bind ofJson?

end App

end GoPages

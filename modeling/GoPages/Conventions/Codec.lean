import GoPages.Conventions
import GoPages.Json.Parser
import GoPages.Json.Record

/-!
# Conventions in JSON

Conventions are a record, of which every field may be missing and then has its default. A qualified
type is a record of package and name and whether it is a pointer, which it is not by default.
`Conventions.toJson` writes conventions, `Conventions.ofJson?` reads them.
-/

namespace GoPages

/-- A qualified type as a record. -/
def QualifiedType.toJson (q : QualifiedType) : Json :=
  .obj [("package", .str q.package), ("name", .str q.name), ("pointer", .bool q.pointer)]

/-- Reads a qualified type. -/
def QualifiedType.ofJson? (value : Json) : Option QualifiedType := do
  let r ← Json.record? ["package", "name", "pointer"] 2 value
  let package ← r.required "package" Json.string
  let name ← r.required "name" Json.string
  let pointer ← r.withDefault "pointer" false Json.boolean
  return ⟨package, name, pointer⟩

namespace Conventions

/-- The keys of the fields, in order. -/
def keys : List String :=
  ["appType", "sessionType", "sessionUserField", "pagePrefix", "eventPrefix", "eventHandlerPrefix",
   "getMethod", "actionVerbs", "indexPage", "error404Page", "error500Page", "headHook",
   "recover500Hook", "targetUserIdsField", "requestType", "sseType", "componentType"]

/-- Conventions as a record. -/
def toJson (c : Conventions) : Json :=
  .obj [("appType", .str c.appType), ("sessionType", .str c.sessionType),
    ("sessionUserField", .str c.sessionUserField), ("pagePrefix", .str c.pagePrefix),
    ("eventPrefix", .str c.eventPrefix), ("eventHandlerPrefix", .str c.eventHandlerPrefix),
    ("getMethod", .str c.getMethod), ("actionVerbs", Json.ofList Json.str c.actionVerbs),
    ("indexPage", .str c.indexPage), ("error404Page", .str c.error404Page),
    ("error500Page", .str c.error500Page), ("headHook", .str c.headHook),
    ("recover500Hook", .str c.recover500Hook), ("targetUserIdsField", .str c.targetUserIdsField),
    ("requestType", c.requestType.toJson), ("sseType", c.sseType.toJson),
    ("componentType", c.componentType.toJson)]

/-- Reads conventions. -/
def ofJson? (value : Json) : Option Conventions := do
  let r ← Json.record? keys 0 value
  let d := standard
  let appType ← r.withDefault "appType" d.appType Json.string
  let sessionType ← r.withDefault "sessionType" d.sessionType Json.string
  let sessionUserField ← r.withDefault "sessionUserField" d.sessionUserField Json.string
  let pagePrefix ← r.withDefault "pagePrefix" d.pagePrefix Json.string
  let eventPrefix ← r.withDefault "eventPrefix" d.eventPrefix Json.string
  let eventHandlerPrefix ← r.withDefault "eventHandlerPrefix" d.eventHandlerPrefix Json.string
  let getMethod ← r.withDefault "getMethod" d.getMethod Json.string
  let actionVerbs ← r.withDefault "actionVerbs" d.actionVerbs (Json.list Json.string)
  let indexPage ← r.withDefault "indexPage" d.indexPage Json.string
  let error404Page ← r.withDefault "error404Page" d.error404Page Json.string
  let error500Page ← r.withDefault "error500Page" d.error500Page Json.string
  let headHook ← r.withDefault "headHook" d.headHook Json.string
  let recover500Hook ← r.withDefault "recover500Hook" d.recover500Hook Json.string
  let targetUserIdsField ← r.withDefault "targetUserIdsField" d.targetUserIdsField Json.string
  let requestType ← r.withDefault "requestType" d.requestType QualifiedType.ofJson?
  let sseType ← r.withDefault "sseType" d.sseType QualifiedType.ofJson?
  let componentType ← r.withDefault "componentType" d.componentType QualifiedType.ofJson?
  return { appType, sessionType, sessionUserField, pagePrefix, eventPrefix, eventHandlerPrefix,
           getMethod, actionVerbs, indexPage, error404Page, error500Page, headHook, recover500Hook,
           targetUserIdsField, requestType, sseType, componentType }

/-- Reads conventions from a JSON text. -/
def ofText? (text : String) : Option Conventions := (Json.parse? text).bind ofJson?

end Conventions

end GoPages

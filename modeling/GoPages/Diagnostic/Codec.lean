import GoPages.Diagnostic
import GoPages.HostType.Codec

/-!
# Diagnostics in JSON

A finding is an object: its kind, and then what it is about. A diagnostic has its place, its code
and its finding.
-/

namespace GoPages

namespace AnalysisError

/-- The kind of a finding. -/
def kind : AnalysisError → String
  | load .. => "load"
  | typeCheck .. => "typeCheck"
  | pageNameInvalid .. => "pageNameInvalid"
  | actionNameInvalid .. => "actionNameInvalid"
  | eventHandlerNameInvalid .. => "eventHandlerNameInvalid"
  | pageMissingRouteComment .. => "pageMissingRouteComment"
  | pageInvalidRouteComment .. => "pageInvalidRouteComment"
  | actionMissingRouteComment .. => "actionMissingRouteComment"
  | actionInvalidRouteComment .. => "actionInvalidRouteComment"
  | actionRouteNotUnderPage .. => "actionRouteNotUnderPage"
  | eventCommentMissing .. => "eventCommentMissing"
  | eventCommentInvalid .. => "eventCommentInvalid"
  | eventSubjectInvalid .. => "eventSubjectInvalid"
  | pageMissingAppField .. => "pageMissingAppField"
  | pageHasExtraFields .. => "pageHasExtraFields"
  | embedNotAbstract .. => "embedNotAbstract"
  | eventFieldUnexported .. => "eventFieldUnexported"
  | eventFieldMissingTag .. => "eventFieldMissingTag"
  | sessionNotStruct .. => "sessionNotStruct"
  | sessionMissingUserId .. => "sessionMissingUserId"
  | inputNotStruct .. => "inputNotStruct"
  | inputFieldUnexported .. => "inputFieldUnexported"
  | inputFieldMissingTag .. => "inputFieldMissingTag"
  | pathFieldNotString .. => "pathFieldNotString"
  | dispatchNotFunc .. => "dispatchNotFunc"
  | dispatchResultCount .. => "dispatchResultCount"
  | dispatchMustReturnError .. => "dispatchMustReturnError"
  | dispatchNoParams .. => "dispatchNoParams"
  | missingRequest .. => "missingRequest"
  | unknownInput .. => "unknownInput"
  | inputWrongType .. => "inputWrongType"
  | unknownOutput .. => "unknownOutput"
  | outputWrongType .. => "outputWrongType"
  | multipleErrorResults .. => "multipleErrorResults"
  | getMissingBody .. => "getMissingBody"
  | getBodyWrongName .. => "getBodyWrongName"
  | getHeadWrongName .. => "getHeadWrongName"
  | redirectStatusWithoutRedirect .. => "redirectStatusWithoutRedirect"
  | sessionOutputWithSse .. => "sessionOutputWithSse"
  | getOnlyOutput .. => "getOnlyOutput"
  | eventHandlerFirstArgNotEvent .. => "eventHandlerFirstArgNotEvent"
  | eventHandlerFirstArgTypeNotEvent .. => "eventHandlerFirstArgTypeNotEvent"
  | eventHandlerSecondArgNotSse .. => "eventHandlerSecondArgNotSse"
  | eventHandlerReturnMustBeError .. => "eventHandlerReturnMustBeError"
  | pathFieldNotInRoute .. => "pathFieldNotInRoute"
  | pathMissingRouteVar .. => "pathMissingRouteVar"
  | dispatchParamNotEvent .. => "dispatchParamNotEvent"
  | reflectSignalNotInSignals .. => "reflectSignalNotInSignals"
  | conflictingGetEmbed .. => "conflictingGetEmbed"
  | conflictingEventHandlerEmbed .. => "conflictingEventHandlerEmbed"
  | duplicateEventHandler .. => "duplicateEventHandler"
  | missingApp .. => "missingApp"
  | missingPageIndex .. => "missingPageIndex"
  | pageMissingGet .. => "pageMissingGet"

/-- A method of a type as members of an object. -/
def methodMembers (receiver method : String) : List (String × Json) :=
  [("receiver", .str receiver), ("method", .str method)]

/-- What a finding is about, as members of an object. -/
def members : AnalysisError → List (String × Json)
  | load message => [("message", .str message)]
  | typeCheck message => [("message", .str message)]
  | pageNameInvalid page => [("page", .str page)]
  | actionNameInvalid receiver method => methodMembers receiver method
  | eventHandlerNameInvalid receiver method => methodMembers receiver method
  | pageMissingRouteComment page => [("page", .str page)]
  | pageInvalidRouteComment page => [("page", .str page)]
  | actionMissingRouteComment receiver method => methodMembers receiver method
  | actionInvalidRouteComment receiver method => methodMembers receiver method
  | actionRouteNotUnderPage receiver method route pageRoute =>
    methodMembers receiver method ++ [("route", .str route), ("page_route", .str pageRoute)]
  | eventCommentMissing event => [("event", .str event)]
  | eventCommentInvalid event => [("event", .str event)]
  | eventSubjectInvalid event => [("event", .str event)]
  | pageMissingAppField page => [("page", .str page)]
  | pageHasExtraFields page field => [("page", .str page), ("field", .str field)]
  | embedNotAbstract owner embedded => [("owner", .str owner), ("embedded", .str embedded)]
  | eventFieldUnexported event field => [("event", .str event), ("field", .str field)]
  | eventFieldMissingTag event field => [("event", .str event), ("field", .str field)]
  | sessionNotStruct session => [("session", .str session)]
  | sessionMissingUserId session field => [("session", .str session), ("field", .str field)]
  | inputNotStruct receiver method input =>
    methodMembers receiver method ++ [("input", .str input)]
  | inputFieldUnexported receiver method input field =>
    methodMembers receiver method ++ [("input", .str input), ("field", .str field)]
  | inputFieldMissingTag receiver method input field tag =>
    methodMembers receiver method ++ [("input", .str input), ("field", .str field),
      ("tag", .str tag)]
  | pathFieldNotString receiver method field =>
    methodMembers receiver method ++ [("field", .str field)]
  | dispatchNotFunc receiver method => methodMembers receiver method
  | dispatchResultCount receiver method => methodMembers receiver method
  | dispatchMustReturnError receiver method => methodMembers receiver method
  | dispatchNoParams receiver method => methodMembers receiver method
  | missingRequest receiver method => methodMembers receiver method
  | unknownInput receiver method input => methodMembers receiver method ++ [("input", .str input)]
  | inputWrongType receiver method input expected =>
    methodMembers receiver method ++ [("input", .str input), ("expected", .str expected)]
  | unknownOutput receiver method output =>
    methodMembers receiver method ++ [("output", .str output)]
  | outputWrongType receiver method output expected =>
    methodMembers receiver method ++ [("output", .str output), ("expected", .str expected)]
  | multipleErrorResults receiver method => methodMembers receiver method
  | getMissingBody receiver method => methodMembers receiver method
  | getBodyWrongName receiver method found =>
    methodMembers receiver method ++ [("found", .str found)]
  | getHeadWrongName receiver method found =>
    methodMembers receiver method ++ [("found", .str found)]
  | redirectStatusWithoutRedirect receiver method => methodMembers receiver method
  | sessionOutputWithSse receiver method output =>
    methodMembers receiver method ++ [("output", .str output)]
  | getOnlyOutput receiver method output =>
    methodMembers receiver method ++ [("output", .str output)]
  | eventHandlerFirstArgNotEvent receiver method => methodMembers receiver method
  | eventHandlerFirstArgTypeNotEvent receiver method found =>
    methodMembers receiver method ++ [("found", .str found)]
  | eventHandlerSecondArgNotSse receiver method => methodMembers receiver method
  | eventHandlerReturnMustBeError receiver method => methodMembers receiver method
  | pathFieldNotInRoute receiver method name =>
    methodMembers receiver method ++ [("name", .str name)]
  | pathMissingRouteVar receiver method name =>
    methodMembers receiver method ++ [("name", .str name)]
  | dispatchParamNotEvent receiver method found =>
    methodMembers receiver method ++ [("found", .str found)]
  | reflectSignalNotInSignals receiver method signal =>
    methodMembers receiver method ++ [("signal", .str signal)]
  | conflictingGetEmbed page owner previousOwner previous =>
    [("page", .str page), ("owner", .str owner), ("previous_owner", .str previousOwner),
      ("previous", previous.toJson)]
  | conflictingEventHandlerEmbed page event owner previousOwner previous =>
    [("page", .str page), ("event", .str event), ("owner", .str owner),
      ("previous_owner", .str previousOwner), ("previous", previous.toJson)]
  | duplicateEventHandler receiver method event previous =>
    methodMembers receiver method ++ [("event", .str event), ("previous", previous.toJson)]
  | missingApp name => [("name", .str name)]
  | missingPageIndex name => [("name", .str name)]
  | pageMissingGet page => [("page", .str page)]

/-- A finding as an object. -/
def toJson (e : AnalysisError) : Json := .obj (("kind", .str e.kind) :: e.members)

end AnalysisError

/-- A diagnostic as an object. -/
def Diagnostic.toJson (d : Diagnostic) : Json :=
  .obj [("location", d.location.toJson), ("code", .str d.error.code), ("error", d.error.toJson)]

end GoPages

import GoPages.Location
import GoPages.Text.Quoted

/-!
# What can be wrong with a package of pages

An `AnalysisError` is a finding of the analysis, without its place. `AnalysisError.number` is the
one table of the numbers of findings; the code is written from the number, and the hundreds of the
number are the `Family`.
-/

namespace GoPages

/-- The families of findings. -/
inductive Family where
  | frontend
  | naming
  | shape
  | signature
  | crossReference
  | composition
  | structural
deriving DecidableEq, Inhabited

/-- The family of a hundred. -/
def Family.ofHundreds : Nat → Family
  | 1 => naming
  | 2 => shape
  | 3 => signature
  | 4 => crossReference
  | 5 => composition
  | 6 => structural
  | _ => frontend

/-- The name of a family. -/
def Family.text : Family → String
  | frontend => "frontend"
  | naming => "naming"
  | shape => "shape"
  | signature => "signature"
  | crossReference => "crossReference"
  | composition => "composition"
  | structural => "structural"

/-- A finding. Most are about a `method` of a `receiver` type. -/
inductive AnalysisError where
  | load (message : String)
  | typeCheck (message : String)
  | pageNameInvalid (page : String)
  | actionNameInvalid (receiver method : String)
  | eventHandlerNameInvalid (receiver method : String)
  | pageMissingRouteComment (page : String)
  | pageInvalidRouteComment (page : String)
  | actionMissingRouteComment (receiver method : String)
  | actionInvalidRouteComment (receiver method : String)
  | actionRouteNotUnderPage (receiver method route pageRoute : String)
  | eventCommentMissing (event : String)
  | eventCommentInvalid (event : String)
  | eventSubjectInvalid (event : String)
  | pageMissingAppField (page : String)
  | pageHasExtraFields (page field : String)
  | embedNotAbstract (owner embedded : String)
  | eventFieldUnexported (event field : String)
  | eventFieldMissingTag (event field : String)
  | sessionNotStruct (session : String)
  | sessionMissingUserId (session field : String)
  | inputNotStruct (receiver method input : String)
  | inputFieldUnexported (receiver method input field : String)
  | inputFieldMissingTag (receiver method input field tag : String)
  | pathFieldNotString (receiver method field : String)
  | dispatchNotFunc (receiver method : String)
  | dispatchResultCount (receiver method : String)
  | dispatchMustReturnError (receiver method : String)
  | dispatchNoParams (receiver method : String)
  | missingRequest (receiver method : String)
  | unknownInput (receiver method input : String)
  | inputWrongType (receiver method input expected : String)
  | unknownOutput (receiver method output : String)
  | outputWrongType (receiver method output expected : String)
  | multipleErrorResults (receiver method : String)
  | getMissingBody (receiver method : String)
  | getBodyWrongName (receiver method found : String)
  | getHeadWrongName (receiver method found : String)
  | redirectStatusWithoutRedirect (receiver method : String)
  | sessionOutputWithSse (receiver method output : String)
  | getOnlyOutput (receiver method output : String)
  | eventHandlerFirstArgNotEvent (receiver method : String)
  | eventHandlerFirstArgTypeNotEvent (receiver method found : String)
  | eventHandlerSecondArgNotSse (receiver method : String)
  | eventHandlerReturnMustBeError (receiver method : String)
  | pathFieldNotInRoute (receiver method name : String)
  | pathMissingRouteVar (receiver method name : String)
  | dispatchParamNotEvent (receiver method found : String)
  | reflectSignalNotInSignals (receiver method signal : String)
  | conflictingGetEmbed (page owner previousOwner : String) (previous : Location)
  | conflictingEventHandlerEmbed (page event owner previousOwner : String) (previous : Location)
  | duplicateEventHandler (receiver method event : String) (previous : Location)
  | missingApp (name : String)
  | missingPageIndex (name : String)
  | pageMissingGet (page : String)
deriving DecidableEq, Inhabited

namespace AnalysisError

/-- The number of a finding. -/
def number : AnalysisError → Nat
  | load .. => 1
  | typeCheck .. => 2
  | pageNameInvalid .. => 101
  | actionNameInvalid .. => 102
  | eventHandlerNameInvalid .. => 103
  | pageMissingRouteComment .. => 104
  | pageInvalidRouteComment .. => 105
  | actionMissingRouteComment .. => 106
  | actionInvalidRouteComment .. => 107
  | actionRouteNotUnderPage .. => 108
  | eventCommentMissing .. => 109
  | eventCommentInvalid .. => 110
  | eventSubjectInvalid .. => 111
  | pageMissingAppField .. => 201
  | pageHasExtraFields .. => 202
  | embedNotAbstract .. => 203
  | eventFieldUnexported .. => 204
  | eventFieldMissingTag .. => 205
  | sessionNotStruct .. => 206
  | sessionMissingUserId .. => 207
  | inputNotStruct .. => 208
  | inputFieldUnexported .. => 209
  | inputFieldMissingTag .. => 210
  | pathFieldNotString .. => 211
  | dispatchNotFunc .. => 212
  | dispatchResultCount .. => 213
  | dispatchMustReturnError .. => 214
  | dispatchNoParams .. => 215
  | missingRequest .. => 301
  | unknownInput .. => 302
  | inputWrongType .. => 303
  | unknownOutput .. => 304
  | outputWrongType .. => 305
  | multipleErrorResults .. => 306
  | getMissingBody .. => 307
  | getBodyWrongName .. => 308
  | getHeadWrongName .. => 309
  | redirectStatusWithoutRedirect .. => 310
  | sessionOutputWithSse .. => 311
  | getOnlyOutput .. => 312
  | eventHandlerFirstArgNotEvent .. => 313
  | eventHandlerFirstArgTypeNotEvent .. => 314
  | eventHandlerSecondArgNotSse .. => 315
  | eventHandlerReturnMustBeError .. => 316
  | pathFieldNotInRoute .. => 401
  | pathMissingRouteVar .. => 402
  | dispatchParamNotEvent .. => 403
  | reflectSignalNotInSignals .. => 404
  | conflictingGetEmbed .. => 501
  | conflictingEventHandlerEmbed .. => 502
  | duplicateEventHandler .. => 503
  | missingApp .. => 601
  | missingPageIndex .. => 602
  | pageMissingGet .. => 603

/-- A number below a thousand with three digits. -/
def threeDigits (n : Nat) : String :=
  String.ofList [Nat.digitChar (n / 100), Nat.digitChar (n / 10 % 10), Nat.digitChar (n % 10)]

/-- The code of a finding. -/
def code (e : AnalysisError) : String := "PA-E" ++ threeDigits e.number

/-- The family of a finding. -/
def family (e : AnalysisError) : Family := Family.ofHundreds (e.number / 100)

/-- A method of a type as messages name it. -/
def methodText (receiver method : String) : String := receiver ++ "." ++ method

/-- A message about a method of a type. -/
def about (receiver method message : String) : String :=
  methodText receiver method ++ ": " ++ message

/-- The wording of a finding. -/
def message : AnalysisError → String
  | load message => message
  | typeCheck message => message
  | pageNameInvalid page => "page type " ++ Text.quote page ++ " has invalid name"
  | actionNameInvalid r m => "action " ++ methodText r m ++ " has invalid name"
  | eventHandlerNameInvalid r m => "event handler " ++ methodText r m ++ " has invalid name"
  | pageMissingRouteComment page => "page " ++ page ++ " is missing path comment"
  | pageInvalidRouteComment page => "page " ++ page ++ " has invalid path comment"
  | actionMissingRouteComment r m =>
    "action handler " ++ methodText r m ++ " is missing path comment"
  | actionInvalidRouteComment r m =>
    "action handler " ++ methodText r m ++ " has invalid path comment"
  | actionRouteNotUnderPage r m route pageRoute =>
    "action handler " ++ methodText r m ++ " path " ++ Text.quote route
      ++ " is not under page path " ++ Text.quote pageRoute
  | eventCommentMissing event => "event type " ++ event ++ " is missing subject comment"
  | eventCommentInvalid event => "event type " ++ event ++ " has invalid subject comment"
  | eventSubjectInvalid event => "event " ++ event ++ " subject is invalid"
  | pageMissingAppField page => "page " ++ page ++ " is missing the \"App *App\" field"
  | pageHasExtraFields page field =>
    "page " ++ page ++ " has unsupported field " ++ Text.quote field
  | embedNotAbstract owner embedded =>
    owner ++ " embeds " ++ embedded ++ ", which is not an abstract page"
  | eventFieldUnexported event field =>
    "event " ++ event ++ " field " ++ field ++ " must be exported"
  | eventFieldMissingTag event field =>
    "event " ++ event ++ " field " ++ field ++ " must have json tag"
  | sessionNotStruct session => "type " ++ session ++ " must be a struct"
  | sessionMissingUserId session field => "type " ++ session ++ " is missing field " ++ field
  | inputNotStruct r m input => about r m (input ++ " parameter must be an anonymous struct")
  | inputFieldUnexported r m input field =>
    about r m (input ++ " field " ++ field ++ " must be exported")
  | inputFieldMissingTag r m input field tag =>
    about r m (input ++ " field " ++ field ++ " must have a " ++ tag ++ " tag")
  | pathFieldNotString r m field => about r m ("path field " ++ field ++ " must be of type string")
  | dispatchNotFunc r m => about r m "dispatch parameter must be a function"
  | dispatchResultCount r m => about r m "dispatch function must return exactly one value"
  | dispatchMustReturnError r m => about r m "dispatch function must return error"
  | dispatchNoParams r m => about r m "dispatch function must have at least one parameter"
  | missingRequest r m => about r m "missing the *http.Request parameter"
  | unknownInput r m input =>
    about r m ("handler has unknown input parameter " ++ Text.quote input)
  | inputWrongType r m input expected =>
    about r m ("input " ++ input ++ " must be of type " ++ expected)
  | unknownOutput r m output => about r m ("unknown output " ++ Text.quote output)
  | outputWrongType r m output expected =>
    about r m ("output " ++ output ++ " must be of type " ++ expected)
  | multipleErrorResults r m => about r m "multiple error return values"
  | getMissingBody r m => about r m "GET handler must return body"
  | getBodyWrongName r m found =>
    about r m ("first component result must be named body, found " ++ Text.quote found)
  | getHeadWrongName r m found =>
    about r m ("second component result must be named head, found " ++ Text.quote found)
  | redirectStatusWithoutRedirect r m => about r m "redirectStatus requires redirect"
  | sessionOutputWithSse r m output =>
    about r m ("output " ++ output ++ " is incompatible with an SSE input")
  | getOnlyOutput r m output =>
    about r m ("output " ++ output ++ " is only allowed on GET handlers")
  | eventHandlerFirstArgNotEvent r m => about r m "first parameter must be named \"event\""
  | eventHandlerFirstArgTypeNotEvent r m found =>
    about r m ("first parameter type " ++ found ++ " is not an event type")
  | eventHandlerSecondArgNotSse r m => about r m "second parameter must be the SSE stream"
  | eventHandlerReturnMustBeError r m => about r m "event handler must return exactly one error"
  | pathFieldNotInRoute r m name =>
    about r m ("path field tag " ++ Text.quote name ++ " is not a route variable")
  | pathMissingRouteVar r m name =>
    about r m ("route variable " ++ Text.quote name ++ " has no path field")
  | dispatchParamNotEvent r m found =>
    about r m ("dispatch parameter type " ++ found ++ " is not an event type")
  | reflectSignalNotInSignals r m signal =>
    about r m ("reflectsignal " ++ Text.quote signal ++ " is not a field of signals")
  | conflictingGetEmbed _ owner previousOwner previous =>
    "conflicting GET handlers in embedded " ++ owner ++ " and " ++ previousOwner
      ++ " (previous at " ++ previous.text ++ ")"
  | conflictingEventHandlerEmbed _ event owner previousOwner previous =>
    "conflicting handlers for event " ++ event ++ " in embedded " ++ owner ++ " and "
      ++ previousOwner ++ " (previous at " ++ previous.text ++ ")"
  | duplicateEventHandler r m event previous =>
    about r m ("duplicate event handler for event " ++ event ++ " (previous at "
      ++ previous.text ++ ")")
  | missingApp name => "missing required type " ++ Text.quote name
  | missingPageIndex name => "missing required page type " ++ Text.quote name
  | pageMissingGet page => "page " ++ page ++ " is missing the GET handler"

end AnalysisError

end GoPages

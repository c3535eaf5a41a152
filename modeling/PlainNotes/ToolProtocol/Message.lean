import PlainNotes.Json.Basic

/-!
# Messages of the tool protocol

A client of the tool server sends JSON objects, each of which is a request, a notice, or an answer
to the server. `Message.ofJson` reads them; an object that breaks the protocol is refused, but a
notice that the protocol does not know is only ignored.
-/

namespace PlainNotes.ToolProtocol

open Json

/-- What a client tells its requests apart with. -/
inductive RequestId
  | number (value : Nat)
  | text (value : String)
  deriving DecidableEq, Repr

namespace RequestId

/-- The number of different numbers of requests. -/
def range : Nat := 4294967296

/-- The identifier in a message. Numbers wrap around at 32 bits. -/
def ofJson? : Json → Option RequestId
  | .num (.int (.ofNat n)) => some (number (n % range))
  | .str value => some (text value)
  | _ => none

def toJson : RequestId → Json
  | number value => .int value
  | text value => .str value

end RequestId

/-- What a client can ask for. -/
inductive Query
  | ping
  /-- The first request of a session, with the version of the protocol that the client speaks. -/
  | introduce (version : String)
  | listTools
  | listPrompts
  | listResources
  | listResourceTemplates
  | callTool (name : String) (arguments : Json)
  /-- A request that the protocol knows, but not this server. -/
  | unsupported (method : String)

/-- What a client says without asking. -/
inductive Notice
  | initialized
  | other
  deriving DecidableEq, Repr

/-- A message of a client. -/
inductive Message
  | request (id : RequestId) (query : Query)
  | notice (notice : Notice)
  /-- An answer to a request of the server, which never asks. -/
  | answer
  /-- A notice that is not part of the protocol. -/
  | ignored

/-! ## Shapes of fields -/

/-- A field that may be missing or null passes a test otherwise. -/
def optionalIs (test : Json → Bool) (value : Json) (name : String) : Bool :=
  match value.field? name with
  | none | some .null => true
  | some field => test field

def isObject : Json → Bool
  | .object _ => true
  | _ => false

def isBool : Json → Bool
  | .bool _ => true
  | _ => false

def isNumber : Json → Bool
  | .num _ => true
  | _ => false

def isText (value : Json) : Bool :=
  value.text?.isSome

/-- Whether a value is an object whose fields are all objects. -/
def isObjectOfObjects : Json → Bool
  | .object fields => fields.all fun f => isObject f.2
  | _ => false

def textField? (value : Json) (name : String) : Option String :=
  (value.field? name).bind Json.text?

def hasField (test : Json → Bool) (value : Json) (name : String) : Bool :=
  (value.field? name).any test

/-! ## Requests -/

/-- The parameters of a message: an object, with an object or nothing about the message itself. -/
def params? (message : Json) : Option Json :=
  (message.field? "params").bind fun params =>
    if isObject params && optionalIs isObject params "_meta" then some params else none

/-- Whether a value says what a client is able to do. -/
def isAbilities (value : Json) : Bool :=
  isObject value && optionalIs isObjectOfObjects value "experimental" &&
    optionalIs (fun r => isObject r && optionalIs isBool r "listChanged") value "roots" &&
    optionalIs isObject value "sampling" &&
    optionalIs (fun r => isObject r && optionalIs isBool r "schemaValidation") value "elicitation"

def isProgram (value : Json) : Bool :=
  isObject value && hasField isText value "name" && hasField isText value "version"

def introduce? (params : Json) : Option Query :=
  if hasField isAbilities params "capabilities" && hasField isProgram params "clientInfo" then
    (textField? params "protocolVersion").map .introduce
  else none

/-- The call of a tool. Without arguments there are none in the call. -/
def callTool? (params : Json) : Option Query :=
  match textField? params "name", params.field? "arguments" with
  | none, _ => none
  | some name, none | some name, some .null => some (.callTool name (.object []))
  | some name, some (.object fields) => some (.callTool name (.object fields))
  | some _, some _ => none

/-- A request for a list. Its parameters may be missing; in them can be a place in the list. -/
def list? (message : Json) (query : Query) : Option Query :=
  match message.field? "params" with
  | none | some .null => some query
  | some _ => (params? message).bind fun params =>
    if optionalIs isText params "cursor" then some query else none

def isCompleted (value : Json) : Bool :=
  match textField? value "type" with
  | some "ref/resource" => hasField isText value "uri"
  | some "ref/prompt" => hasField isText value "name"
  | _ => false

/-- Whether a value is the beginning of what is to be completed. -/
def isBeginning (value : Json) : Bool :=
  hasField isText value "name" && hasField isText value "value"

def levelNames : List String :=
  ["debug", "info", "notice", "warning", "error", "critical", "alert", "emergency"]

def isLevel (value : Json) : Bool :=
  value.text?.any levelNames.contains

/-- The requests that this server does not support, each with a test of its parameters. -/
def unsupportedMethods : List (String × (Json → Bool)) :=
  [ ("completion/complete",
      fun p => hasField isCompleted p "ref" && hasField isBeginning p "argument"),
    ("logging/setLevel", fun p => hasField isLevel p "level"),
    ("prompts/get", fun p => hasField isText p "name" && optionalIs isObject p "arguments"),
    ("resources/read", fun p => hasField isText p "uri"),
    ("resources/subscribe", fun p => hasField isText p "uri"),
    ("resources/unsubscribe", fun p => hasField isText p "uri") ]

def unsupported? (method : String) (message : Json) : Option Query :=
  match unsupportedMethods.lookup method, params? message with
  | some test, some params => if test params then some (.unsupported method) else none
  | _, _ => none

def query? (method : String) (message : Json) : Option Query :=
  match method with
  | "ping" => some .ping
  | "initialize" => (params? message).bind introduce?
  | "tools/list" => list? message .listTools
  | "prompts/list" => list? message .listPrompts
  | "resources/list" => list? message .listResources
  | "resources/templates/list" => list? message .listResourceTemplates
  | "tools/call" => (params? message).bind callTool?
  | _ => unsupported? method message

/-! ## Notices -/

def isIdentifier (value : Json) : Bool :=
  (RequestId.ofJson? value).isSome

def notice? (method : String) (message : Json) : Option Notice :=
  match method with
  | "notifications/initialized" => some .initialized
  | "notifications/roots/list_changed" => some .other
  | "notifications/cancelled" => (params? message).bind fun p =>
    if hasField isIdentifier p "requestId" && optionalIs isText p "reason" then some .other
    else none
  | "notifications/progress" => (params? message).bind fun p =>
    if hasField isIdentifier p "progressToken" && hasField isNumber p "progress" &&
      optionalIs isNumber p "total" && optionalIs isText p "message" then some .other
    else none
  | _ => none

/-- The notices that the protocol knows, of both sides. -/
def noticeMethods : List String :=
  [ "notifications/cancelled", "notifications/initialized", "notifications/message",
    "notifications/progress", "notifications/prompts/list_changed",
    "notifications/resources/list_changed", "notifications/resources/updated",
    "notifications/roots/list_changed", "notifications/tools/list_changed" ]

/-- The requests that the protocol knows, of both sides. -/
def requestMethods : List String :=
  [ "initialize", "ping", "prompts/get", "prompts/list", "resources/list", "resources/read",
    "resources/subscribe", "resources/unsubscribe", "resources/templates/list", "tools/call",
    "tools/list", "completion/complete", "logging/setLevel", "roots/list",
    "sampling/createMessage" ]

/-- Whether a method is that of a notice by its name. -/
def soundsLikeNotice (method : String) : Bool :=
  "notifications/".toList.isPrefixOf method.toList

/-- Whether a message that breaks the protocol can be ignored: it is a notice of a method that the
protocol does not know. -/
def isIgnorable (message : Json) : Bool :=
  match textField? message "method" with
  | none => false
  | some method =>
    if noticeMethods.contains method then false
    else soundsLikeNotice method ||
      ((message.field? "id").isNone && !requestMethods.contains method)

/-! ## Messages -/

def frameVersion : String := "2.0"

def isErrorReport (value : Json) : Bool :=
  hasField (fun c => match c with | .num (.int _) => true | _ => false) value "code" &&
    hasField isText value "message"

namespace Message

/-- A message that keeps to the protocol. -/
def strict? (message : Json) : Option Message :=
  if textField? message "jsonrpc" ≠ some frameVersion then none
  else
    let id := (message.field? "id").bind RequestId.ofJson?
    let method := textField? message "method"
    match id, method.bind (query? · message) with
    | some id, some query => some (request id query)
    | _, _ =>
      if id.isSome && (hasField isObject message "result" || hasField isErrorReport message "error")
      then some answer
      else (method.bind (notice? · message)).map notice

/-- The message that an object is, if it is one. -/
def ofJson? (message : Json) : Option Message :=
  (strict? message).or (if isIgnorable message then some ignored else none)

end Message

end PlainNotes.ToolProtocol

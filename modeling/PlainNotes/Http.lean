import PlainNotes.Payload
import PlainNotes.Reply
import PlainNotes.Request

/-!
# Requests over HTTP

There is one route: `POST /process-note-request` with a wrapped request as its body. The status of
the response says how the request went: 200 if it was carried out, 500 if its run failed, and 400 if
it was no request or not understood.
-/

namespace PlainNotes.Http

/-- Where the server listens. -/
structure Address where
  host : String
  port : Nat
  deriving DecidableEq, Repr

def Address.default : Address := ⟨"127.0.0.1", 3000⟩

/-- The body of a response. -/
inductive Body
  | empty
  | text (text : String)
  | json (value : Json)

/-- The type of a body, as headers say it. -/
def Body.contentType : Body → Option String
  | empty => none
  | text _ => some "text/plain; charset=utf-8"
  | json _ => some "application/json"

/-- A response. -/
structure Response where
  status : Nat
  body : Body := .empty
  /-- The methods that a route has, if the request used another one. -/
  allow : Option String := none

/-- The response to a request, and the events on the way. -/
structure Result where
  response : Response
  events : List Event := []

def routePath : String := "/process-note-request"

def routeMethod : String := "POST"

/-- The largest body that is read, in bytes. -/
def bodyLimit : Nat := 2097152

/-- The path in the target of a request, without query and fragment. Targets are in origin form: they
begin with their path and not with the host. -/
def pathOf (target : String) : String :=
  String.ofList (target.toList.takeWhile fun c => c != '?' && c != '#')

/-- The description of a fault in a body. -/
def issue (fault : Payload.Fault) : Json :=
  .object [("code", .str fault.code), ("path", .strings fault.path),
    ("message", .str fault.message)]

def invalidBody (fault : Payload.Fault) : Response where
  status := 400
  body := .json (.object [("error", .str "Validation error"), ("details", .list [issue fault])])

def unrecognized : Response where
  status := 400
  body := .json (.object [("error", .str "Could not understand the request"),
    ("supportedFormats", .strings Reply.supportedFormats)])

def runFailed (fault : RunFault) : Response where
  status := 500
  body := .json (.object [("error", .str fault.message)])

def done (outcome : Request.Outcome) : Response where
  status := 200
  body := .json (.object [("success", .bool true), ("action", .str outcome.command.action.name),
    ("title", .str outcome.command.title), ("result", .str outcome.output)])

def responseOf : Except Request.Fault Request.Outcome → Response
  | .ok outcome => done outcome
  | .error .unrecognized => unrecognized
  | .error (.run fault) => runFailed fault

def tooLarge : Response where
  status := 413
  body := .text "Failed to buffer the request body: length limit exceeded"

variable {m : Type → Type} [Monad m]

/-- Answers a request to the route whose body is at hand. The body is checked before anything
runs. -/
def handle (runner : Runner m) (id : String) (body : List UInt8) : m Result :=
  match Payload.requestText body with
  | .error fault =>
    pure { response := invalidBody fault, events := [.bodyInvalid body.length] }
  | .ok text => do
    let result ← Request.process runner id text
    return { response := responseOf result.answer, events := result.events }

/-- Answers a request to the route, unless its body is too large to be read. -/
def answerBody (runner : Runner m) (id : String) (body : List UInt8) : m Result :=
  if bodyLimit < body.length then pure { response := tooLarge } else handle runner id body

def answer (runner : Runner m) (id method target : String) (body : List UInt8) : m Result :=
  if pathOf target ≠ routePath then pure { response := { status := 404 } }
  else if method ≠ routeMethod then
    pure { response := { status := 405, allow := some routeMethod } }
  else answerBody runner id body

end PlainNotes.Http

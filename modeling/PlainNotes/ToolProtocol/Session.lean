import PlainNotes.Command.Data
import PlainNotes.ToolCall
import PlainNotes.ToolProtocol.Message

/-!
# Sessions of the tool server

A session has three phases: the client introduces itself, it confirms, and from then on it is
served. A message that breaks the order or the protocol closes the session, and the session has
failed if it was not yet serving.

- `answerOf` is the answer to a request while serving;
- `Phase.receive` is what a message does to a session;
- `run` is a whole session, with the answers in order.
-/

namespace PlainNotes.ToolProtocol

open Json

/-! ## Texts -/

def serverVersion : String := "2025-03-26"

def serverName : String := "notesy"

def instructions : String :=
  "Manage Apple Notes with plain sentences through the 'process_note_request' tool, " ++
  "e.g. \"Add milk to my 'groceries' note\" or \"Find notes about 'recipes'\"."

def toolName : String := "process_note_request"

def tool : Json :=
  .object [
    ("name", .str toolName),
    ("description",
      .str "Create, update, delete or search Apple Notes from a natural language request."),
    ("inputSchema", .object [
      ("$schema", .str "http://json-schema.org/draft-07/schema#"),
      ("title", .str "ProcessNoteRequest"),
      ("description", .str ("Arguments of the `" ++ toolName ++ "` tool.")),
      ("type", .str "object"),
      ("properties", .object [
        ("text", .object [
          ("description", .str ("Natural language request, e.g. " ++
            "\"Create a note titled 'shopping list' with items: milk, eggs\"")),
          ("type", .str "string")])]),
      ("required", .strings ["text"])])]

/-- What the server says about itself, with the version of the protocol that is spoken. -/
def introduction (version : String) : Json :=
  .object [
    ("protocolVersion", .str version),
    ("capabilities", .object [("tools", .object [])]),
    ("serverInfo", .object [("name", .str serverName), ("version", .str PlainNotes.version)]),
    ("instructions", .str instructions)]

/-- The version that both sides speak: the smaller one of the two, as texts. -/
def commonVersion (version : String) : String :=
  if version < serverVersion then version else serverVersion

/-! ## Answers -/

/-- Why a request is refused. -/
inductive Refusal
  | unsupported (method : String)
  | unknownTool
  | badArguments (fault : ShapeFault)

def Refusal.code : Refusal → Int
  | unsupported _ => -32601
  | unknownTool | badArguments _ => -32602

def Refusal.message : Refusal → String
  | unsupported method => method
  | unknownTool => "tool not found"
  | badArguments fault => "failed to deserialize parameters: " ++ fault.message

def answerMessage (id : RequestId) : Except Refusal Json → Json
  | .ok result =>
    .object [("jsonrpc", .str frameVersion), ("id", id.toJson), ("result", result)]
  | .error refusal =>
    .object [("jsonrpc", .str frameVersion), ("id", id.toJson),
      ("error", .object [("code", .int refusal.code), ("message", .str refusal.message)])]

/-- The request for the tool in the arguments of a call. -/
def requestText (arguments : Json) : Except ShapeFault String :=
  match arguments.field? "text" with
  | none => .error (.missingField "text")
  | some value => stringOf value

/-- The result of a call, which also says whether it went wrong. -/
def toolResult (answer : Except String String) : Json :=
  let (text, wrong) := match answer with
    | .ok text => (text, false)
    | .error text => (text, true)
  .object [
    ("content", .list [.object [("type", .str "text"), ("text", .str text)]]),
    ("isError", .bool wrong)]

def emptyListing (name : String) : Json :=
  .object [(name, .list [])]

variable {m : Type → Type} [Monad m]

/-- Calls a tool. The name is checked before the arguments. -/
def callTool (runner : Runner m) (id name : String) (arguments : Json) :
    m (Except Refusal Json) :=
  if name ≠ toolName then pure (.error .unknownTool)
  else
    match requestText arguments with
    | .error fault => pure (.error (.badArguments fault))
    | .ok text => do return .ok (toolResult (← ToolCall.call runner id text).answer)

/-- The answer to a request while serving. `id` stands for the identifier in events. -/
def answerOf (runner : Runner m) (id : String) : Query → m (Except Refusal Json)
  | .ping => pure (.ok (.object []))
  | .introduce _ => pure (.ok (introduction serverVersion))
  | .listTools => pure (.ok (.object [("tools", .list [tool])]))
  | .listPrompts => pure (.ok (emptyListing "prompts"))
  | .listResources => pure (.ok (emptyListing "resources"))
  | .listResourceTemplates => pure (.ok (emptyListing "resourceTemplates"))
  | .callTool name arguments => callTool runner id name arguments
  | .unsupported method => pure (.error (.unsupported method))

/-! ## Phases -/

/-- How far a session is. -/
inductive Phase
  /-- Nothing was received yet. -/
  | opening
  /-- The client introduced itself and has to confirm. -/
  | introduced
  | serving
  /-- The session is over. -/
  | closed (failed : Bool)
  deriving DecidableEq, Repr

namespace Phase

/-- The phase after a message that closes the session. -/
def close : Phase → Phase
  | closed failed => closed failed
  | serving => closed false
  | opening | introduced => closed true

/-- Whether a session that ends in this phase has failed. -/
def failed (phase : Phase) : Bool :=
  phase.close == closed true

/-- What a message of the protocol does: the phase after it, and the answer to it. -/
def receiveMessage (runner : Runner m) (id : String) :
    Phase → Message → m (Phase × Option Json)
  | .closed failed, _ => pure (.closed failed, none)
  | phase, .ignored => pure (phase, none)
  | .opening, .request requestId (.introduce version) =>
    pure (.introduced, some (answerMessage requestId (.ok (introduction (commonVersion version)))))
  | .introduced, .notice .initialized => pure (.serving, none)
  | .serving, .request requestId query => do
    return (.serving, some (answerMessage requestId (← answerOf runner id query)))
  | .serving, _ => pure (.serving, none)
  | phase, _ => pure (phase.close, none)

/-- What a message does: the phase after it, and the answer to it. -/
def receive (runner : Runner m) (id : String) (phase : Phase) (message : Json) :
    m (Phase × Option Json) :=
  match Message.ofJson? message with
  | some message => receiveMessage runner id phase message
  | none => pure (phase.close, none)

end Phase

/-- Receives messages in order. The answers stand beside their messages, and the phase at the end
follows them. -/
def receiveAll (runner : Runner m) (id : String) (phase : Phase) :
    List Json → m (List (Option Json) × Phase)
  | [] => pure ([], phase)
  | message :: rest => do
    let (phase, answer) ← phase.receive runner id message
    let (answers, phase) ← receiveAll runner id phase rest
    return (answer :: answers, phase)

/-- A session from its beginning to the end of the messages. -/
def run (runner : Runner m) (id : String) (messages : List Json) :
    m (List (Option Json) × Phase) :=
  receiveAll runner id .opening messages

end PlainNotes.ToolProtocol

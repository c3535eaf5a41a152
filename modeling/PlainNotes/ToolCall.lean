import PlainNotes.Payload
import PlainNotes.Reply
import PlainNotes.Request

/-!
# Calls of the tool

A program calls the tool with a text, which can be a wrapped request. The reply is a sentence, and
so is the report of an error.
-/

namespace PlainNotes.ToolCall

/-- How a call went: its reply or the text of an error, and the events on the way. -/
structure Result where
  answer : Except String String
  events : List Event := []

def errorText (message : String) : String :=
  "Error: " ++ message

/-- The answer to a request that went through. A request that was not understood gets guidance. -/
def answerOf : Except Request.Fault Request.Outcome → Except String String
  | .ok outcome => .ok (Reply.summary outcome.command outcome.output)
  | .error .unrecognized => .ok Reply.guidance
  | .error (.run fault) => .error (errorText fault.message)

/-- Answers a call. The empty text is refused before anything is unwrapped. -/
def call {m : Type → Type} [Monad m] (runner : Runner m) (id raw : String) : m Result :=
  if raw = "" then pure { answer := .error (errorText "text must contain at least 1 character") }
  else do
    let result ← Request.process runner id (Payload.unwrap raw)
    return { answer := answerOf result.answer, events := result.events }

end PlainNotes.ToolCall

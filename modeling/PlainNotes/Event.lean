import PlainNotes.Phrase.Family
import PlainNotes.Text.Digits

/-!
# Events

What is noted in the log. An event holds counts and names of the library's own, never the words of a
request: no constructor takes a text of the user, a script or an output. Only what a host says about
itself is text: the identifier of a request, the name of a component, a directory, the place and the
message of a crash.
-/

namespace PlainNotes

open Text

/-- How much an event matters. -/
inductive Level
  | trace
  | debug
  | info
  | warn
  | error
  deriving DecidableEq, Repr

namespace Level

/-- The levels, from the least to the greatest. -/
def all : List Level := [trace, debug, info, warn, error]

def name : Level → String
  | trace => "trace"
  | debug => "debug"
  | info => "info"
  | warn => "warn"
  | error => "error"

/-- The name of a level in front of an event. -/
def label : Level → String
  | trace => "TRACE"
  | debug => "DEBUG"
  | info => "INFO"
  | warn => "WARN"
  | error => "ERROR"

def rank : Level → Nat
  | trace => 0
  | debug => 1
  | info => 2
  | warn => 3
  | error => 4

/-- The level of a build without debugging. -/
def default : Level := info

end Level

def version : String := "0.1.0"

/-- Something worth noting. -/
inductive Event
  | intentParsed (family : Family) (action : Action) (items : Nat)
  | intentRejected (family : Family) (fault : DraftFault)
  | intentUnmatched (characters : Nat)
  | requestDone (id : String) (action : Action) (titleCharacters outputBytes : Nat)
  | requestUnrecognized (id : String) (characters : Nat)
  | requestFailed (id : String) (action : Action) (faultKind : String)
  | scriptDone (scriptBytes stdoutBytes : Nat)
  | scriptFailed (status : Option Int) (stderrBytes : Nat)
  | bodyInvalid (bytes : Nat)
  | appStarted (component : String)
  | loggingStarted (level : Level) (directory : String)
  | crashCaught (location payload : String)
  deriving DecidableEq, Repr

namespace Event

def level : Event → Level
  | intentParsed .. | intentRejected .. | intentUnmatched .. => .debug
  | requestDone .. | requestUnrecognized .. | scriptDone .. | appStarted .. | loggingStarted .. =>
    .info
  | requestFailed .. | scriptFailed .. | bodyInvalid .. => .warn
  | crashCaught .. => .error

/-- The part of the program that an event comes from. -/
def target : Event → String
  | intentParsed .. | intentRejected .. | intentUnmatched .. => "notesy_core::parser"
  | requestDone .. | requestUnrecognized .. | requestFailed .. =>
    "notesy_core::service::request_service"
  | scriptDone .. | scriptFailed .. => "notesy_core::gateway::osascript"
  | bodyInvalid .. => "notesy_server::routes"
  | appStarted .. | loggingStarted .. | crashCaught .. => "notesy_core::logging"

/-- The exit status of a program, as events show it. -/
def statusText : Option Int → String
  | some status => "Some(" ++ intText status ++ ")"
  | none => "None"

/-- The fields of an event: its name, its part, how it went, and what is counted. -/
def fields : Event → List (String × String)
  | intentParsed family action items =>
    [("event", "intent_parsed"), ("module", "parser"), ("status", "ok"), ("family", family.name),
      ("action", action.name), ("content_items", natText items)]
  | intentRejected family fault =>
    [("event", "intent_rejected"), ("module", "parser"), ("status", "invalid"),
      ("family", family.name), ("reason", fault.message)]
  | intentUnmatched characters =>
    [("event", "intent_unmatched"), ("module", "parser"), ("status", "none"),
      ("text_chars", natText characters)]
  | requestDone id action titleCharacters outputBytes =>
    [("event", "note_request"), ("module", "service"), ("status", "ok"), ("request_id", id),
      ("action", action.name), ("title_chars", natText titleCharacters),
      ("output_len", natText outputBytes)]
  | requestUnrecognized id characters =>
    [("event", "note_request"), ("module", "service"), ("status", "unrecognized"),
      ("request_id", id), ("text_chars", natText characters)]
  | requestFailed id action faultKind =>
    [("event", "note_request"), ("module", "service"), ("status", "error"), ("request_id", id),
      ("action", action.name), ("error_kind", faultKind)]
  | scriptDone scriptBytes stdoutBytes =>
    [("event", "script_run"), ("module", "gateway"), ("status", "ok"),
      ("script_len", natText scriptBytes), ("stdout_len", natText stdoutBytes)]
  | scriptFailed status stderrBytes =>
    [("event", "script_run"), ("module", "gateway"), ("status", "error"),
      ("exit_code", statusText status), ("stderr_len", natText stderrBytes)]
  | bodyInvalid bytes =>
    [("event", "http_request"), ("module", "routes"), ("status", "invalid_body"),
      ("body_len", natText bytes)]
  | appStarted component =>
    [("event", "app_start"), ("module", "logging"), ("status", "ok"), ("component", component),
      ("platform", "linux"), ("version", version)]
  | loggingStarted level directory =>
    [("event", "logging_init"), ("module", "logging"), ("status", "ok"), ("level", level.name),
      ("log_dir", directory)]
  | crashCaught location payload =>
    [("event", "panic_captured"), ("module", "logging"), ("status", "error"),
      ("location", location), ("payload", payload)]

def message (e : Event) : String :=
  " ".intercalate (e.fields.map fun f => f.1 ++ "=" ++ f.2)

def line (e : Event) : String :=
  e.level.label ++ " " ++ e.target ++ " " ++ e.message

end Event

/-- The event of a finding about a request of so many characters. -/
def Finding.event (characters : Nat) : Finding → Event
  | .parsed family command => .intentParsed family command.action command.content.length
  | .rejected family fault => .intentRejected family fault
  | .unmatched => .intentUnmatched characters

def parseEvents (text : String) : List Event :=
  (findings text).map (·.event text.length)

end PlainNotes

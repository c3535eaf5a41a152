import PlainNotes.Logging

/-!
# Processes and their logs

What happens to the log of a process, one incident after the other: calls to start logging, crashes,
events of other parts of the process, and changes of the world around it.
-/

namespace PlainNotes.Logging

/-- Something that happens to a process. -/
inductive Incident (σ : Type)
  /-- A call to start logging. -/
  | call (settings : Config.Log) (component : String)
  /-- A crash is caught; its message is known only if it is a text. -/
  | crash (location : String) (payload : Option String)
  /-- Another part of the process notes events. -/
  | note (events : List Event)
  /-- The world changes. -/
  | change (f : σ → σ)

/-- A process as far as its log goes, and the world in which directories are made and logs are
opened. -/
structure Process (σ : Type) where
  cells : Cells := {}
  world : σ

namespace Process

variable {σ : Type} (system : System (StateM σ)) (p : Process σ)

def start (settings : Config.Log) (component : String) : Except Fault Unit × Process σ :=
  let ((answer, cells), world) := ((Logging.start system settings component).run p.cells).run p.world
  (answer, ⟨cells, world⟩)

def crash (location : String) (payload : Option String) : Process σ :=
  { p with cells := p.cells.crash location payload }

def note (events : List Event) : Process σ :=
  { p with cells := p.cells.note events }

def change (f : σ → σ) : Process σ :=
  { p with world := f p.world }

/-- What an incident comes to: the answer, if it is a call, and the process behind it. -/
def step : Incident σ → Option (Except Fault Unit) × Process σ
  | .call settings component =>
    let (answer, p) := p.start system settings component
    (some answer, p)
  | .crash location payload => (none, p.crash location payload)
  | .note events => (none, p.note events)
  | .change f => (none, p.change f)

/-- The answers of incidents, one after the other, and the process behind them. -/
def run (p : Process σ) : List (Incident σ) → List (Option (Except Fault Unit)) × Process σ
  | [] => ([], p)
  | i :: is =>
    let (answer?, p) := p.step system i
    let (answers, p) := run p is
    (answer? :: answers, p)

end Process

end PlainNotes.Logging

import PlainNotes.Logging
import PlainNotes.Proofs.Host.Course
import PlainNotes.Proofs.Logging.Line
import PlainNotes.Proofs.Phrase.Cascade
import PlainNotes.Request

/-!
# What a request notes

The events of a request come from counts and names only: of the text the log learns its family, its
action and how long its parts are, and of the run how it ended and how much was written.

* `findings_eq`: a reading is refused at most at the family of long texts, and ends at one finding.
* `Reading`, `RequestNotes`, `RunNotes`: what the log learns of a text and of a run.
* `eventsOf_eq`: the events of a request in terms of these.
* `process_notes_counts`: their order and levels, two requests side by side, and their lines.
-/

namespace PlainNotes

open Family

/-! ## Findings -/

/-- Whether a text is a long text whose draft is no command. -/
def longTextRefused (text : String) : Bool :=
  longText.applies text.toList && !(longTextDraft text.toList).validate.isOk

/-- The finding at which a reading ends. -/
def Finding.ofIntent? : Option Intent → Finding
  | some intent => .parsed intent.family intent.command
  | none => .unmatched

/-- Where long texts are not looked for, a reading is its last finding, by induction over the
families. -/
theorem findingsAmong_of_notMem {s : List Char} {fs : List Family} (h : longText ∉ fs) :
    findingsAmong s fs = [.ofIntent? ((findingsAmong s fs).findSome? Finding.intent?)] := by
  induction fs with
  | nil => rfl
  | cons f fs ih =>
    have hfs := ih fun hmem => h (List.mem_cons_of_mem f hmem)
    rw [findingsAmong]
    split
    case isFalse => exact hfs
    case isTrue =>
      split
      case h_1 => exact hfs
      case h_2 d hd =>
        split
        case h_1 => rfl
        case h_2 fault hv =>
          obtain ⟨rfl, -⟩ := eq_longText_of_error hd hv
          exact absurd (List.mem_cons_self) h

/-- At most a long text is refused, and whatever is then found is the only other finding. -/
theorem findings_eq (text : String) :
    findings text = (if longTextRefused text then [.rejected .longText .emptyTitle] else []) ++
      [.ofIntent? (classify text)] := by
  have hlate : longText ∉ Family.all.tail := by decide
  have hrest := findingsAmong_of_notMem (s := text.toList) hlate
  have hall : findings text = findingsAmong text.toList (longText :: Family.all.tail) := rfl
  have hdraft : longText.draft? text.toList = some (longTextDraft text.toList) := rfl
  rw [classify, hall, findingsAmong, longTextRefused, hdraft]
  cases happ : longText.applies text.toList with
  | false =>
    simp only [Bool.false_eq_true, if_false, Bool.false_and, List.nil_append]
    exact hrest
  | true =>
    cases hv : (longTextDraft text.toList).validate with
    | ok c => simp [hv, Finding.intent?, Finding.ofIntent?, Except.isOk, Except.toBool]
    | error fault =>
      obtain rfl := eq_emptyTitle_of_longTextDraft hv
      simpa [hv, List.findSome?_cons, Finding.intent?, Family.onInvalid, Except.isOk,
        Except.toBool] using hrest

/-! ## What the log learns -/

/-- What the log learns of how a text is read, and of the run of its script if it is understood. -/
inductive Reading (ρ : Type)
  | understood (family : Family) (action : Action) (items titleCharacters : Nat) (run : ρ)
  | notUnderstood (characters : Nat)
  deriving DecidableEq

/-- What the log learns of a request. -/
structure RequestNotes (ρ : Type) where
  /-- Whether the text is a long one whose draft is no command. -/
  refused : Bool
  reading : Reading ρ
  deriving DecidableEq

/-- What the log learns of a run: how many bytes came out or what kind of fault, and the events of
the runner. -/
structure RunNotes where
  answer : Except String Nat
  events : List Event

def RunReport.notes (report : RunReport) : RunNotes where
  answer := (report.answer.map String.utf8ByteSize).mapError RunFault.kind
  events := report.events

/-- What the log learns of the run of a program: why none ran, or how it ended. The lengths are
those of the script and of the texts that are read from what the program wrote. -/
inductive ProgramNotes
  | unwritten
  | unstarted
  | failed (status : Option Int) (stderrBytes : Nat)
  | done (scriptBytes stdoutBytes : Nat)
  deriving DecidableEq, Repr

def Course.notes (course : Course) (script : String) : ProgramNotes :=
  match course with
  | unwritten _ => .unwritten
  | unstarted _ => .unstarted
  | ended e =>
    if e.status = some 0 then
      .done script.utf8ByteSize (String.ofList (Utf8.decodeLossy e.stdout)).utf8ByteSize
    else .failed e.status (String.ofList (Utf8.decodeLossy e.stderr)).utf8ByteSize

def ProgramNotes.toRunNotes : ProgramNotes → RunNotes
  | unwritten => ⟨.error "write_script", []⟩
  | unstarted => ⟨.error "spawn", []⟩
  | failed status stderrBytes => ⟨.error "failed", [.scriptFailed status stderrBytes]⟩
  | done scriptBytes stdoutBytes => ⟨.ok stdoutBytes, [.scriptDone scriptBytes stdoutBytes]⟩

theorem notes_report (program script : String) (course : Course) :
    (course.report program script).notes = (course.notes script).toRunNotes := by
  cases course with
  | unwritten cause => rfl
  | unstarted cause => rfl
  | ended e =>
    rw [Course.report, Host.reportEnded, Course.notes]
    split <;> rfl

section

variable {ρ σ : Type}

/-- What the log learns of a request, if it learns so much of the runs of scripts. -/
def notesOf (given : String → ρ) (text : String) : RequestNotes ρ where
  refused := longTextRefused text
  reading :=
    match classify text with
    | some intent =>
      .understood intent.family intent.command.action intent.command.content.length
        intent.command.title.length (given intent.command.script)
    | none => .notUnderstood text.length

def Reading.map (f : ρ → σ) : Reading ρ → Reading σ
  | understood family action items titleCharacters run =>
    understood family action items titleCharacters (f run)
  | notUnderstood characters => notUnderstood characters

def RequestNotes.map (f : ρ → σ) (notes : RequestNotes ρ) : RequestNotes σ where
  refused := notes.refused
  reading := notes.reading.map f

theorem map_notesOf (f : ρ → σ) (given : String → ρ) (text : String) :
    (notesOf given text).map f = notesOf (fun script => f (given script)) text := by
  rw [notesOf, RequestNotes.map, notesOf]
  cases classify text <;> rfl

end

/-- The last event of a request that is understood. -/
def RunNotes.requestEvent (run : RunNotes) (id : String) (action : Action) (titleCharacters : Nat) :
    Event :=
  match run.answer with
  | .ok outputBytes => .requestDone id action titleCharacters outputBytes
  | .error faultKind => .requestFailed id action faultKind

def Reading.events (id : String) : Reading RunNotes → List Event
  | understood family action items titleCharacters run =>
    .intentParsed family action items ::
      (run.events ++ [run.requestEvent id action titleCharacters])
  | notUnderstood characters => [.intentUnmatched characters, .requestUnrecognized id characters]

/-- The events of a request of which the log learns so much. -/
def RequestNotes.events (id : String) (notes : RequestNotes RunNotes) : List Event :=
  (if notes.refused then [.intentRejected .longText .emptyTitle] else []) ++
    notes.reading.events id

/-! ## Events of requests -/

/-- What an event is called in the log, and its level. -/
def Event.mark (e : Event) : String × Level :=
  ((e.fields.lookup "event").getD "", e.level)

/-- The runner whose runs are all reported on in the same way. -/
def Runner.giving (report : RunReport) : Runner Id where
  run _ := pure report

namespace Request

/-- The events of a request. -/
def eventsOf (runner : Runner Id) (id text : String) : List Event :=
  (process runner id text).run.events

theorem parseEvents_eq (text : String) :
    parseEvents text =
      (if longTextRefused text then [.intentRejected .longText .emptyTitle] else []) ++
        [(Finding.ofIntent? (classify text)).event text.length] := by
  rw [parseEvents, findings_eq]
  cases longTextRefused text <;> rfl

theorem events_conclude (id text : String) (command : Command) (report : RunReport) :
    (conclude id text command report).events = parseEvents text ++ (report.events ++
      [report.notes.requestEvent id command.action command.title.length]) := by
  obtain ⟨answer, events⟩ := report
  cases answer <;> exact List.append_assoc ..

/-- What is noted behind the reading of a text. -/
def eventsBehind (runner : Runner Id) (id text : String) : List Event :=
  match parse text with
  | none => [.requestUnrecognized id text.length]
  | some c =>
    (runner.run c.script).run.events ++
      [(runner.run c.script).run.notes.requestEvent id c.action c.title.length]

theorem eventsOf_eq_append (runner : Runner Id) (id text : String) :
    eventsOf runner id text = parseEvents text ++ eventsBehind runner id text := by
  rw [eventsOf, process, eventsBehind]
  cases parse text with
  | none => rfl
  | some c => exact events_conclude id text c (runner.run c.script).run

/-- The events of a request come from what the log learns of it. -/
theorem eventsOf_eq (runner : Runner Id) (id text : String) :
    eventsOf runner id text =
      (notesOf (fun script => (runner.run script).run.notes) text).events id := by
  rw [eventsOf_eq_append, parseEvents_eq, eventsBehind, RequestNotes.events, notesOf, parse,
    List.append_assoc]
  cases classify text <;> rfl

theorem eventsOf_course (program : String) (course : Course) (id text : String) :
    eventsOf (course.runner program) id text =
      ((notesOf course.notes text).map ProgramNotes.toRunNotes).events id := by
  rw [eventsOf_eq, map_notesOf]
  exact congrArg (fun given => (notesOf given text).events id)
    (funext fun script => notes_report program script course)

/-! ### Names and levels -/

/-- The level at which the end of a run is noted. -/
def answerLevel : Except RunFault String → Level
  | .ok _ => .info
  | .error _ => .warn

theorem mark_requestEvent (report : RunReport) (id : String) (action : Action)
    (titleCharacters : Nat) :
    (report.notes.requestEvent id action titleCharacters).mark =
      ("note_request", answerLevel report.answer) := by
  obtain ⟨answer, events⟩ := report
  cases answer <;> rfl

/-- What a request notes in order: a long text that is refused, how the text is read, what the
runner notes, and how it all went. -/
theorem marks_eventsOf (runner : Runner Id) (id text : String) :
    ∃ rest, eventsOf runner id text =
      (if longTextRefused text then [.intentRejected .longText .emptyTitle] else []) ++ rest ∧
      rest.map Event.mark =
        match parse text with
        | none => [("intent_unmatched", .debug), ("note_request", .info)]
        | some c =>
          ("intent_parsed", .debug) :: ((runner.run c.script).run.events.map Event.mark ++
            [("note_request", answerLevel (runner.run c.script).run.answer)]) := by
  refine ⟨_, eventsOf_eq runner id text, ?_⟩
  rw [notesOf, parse]
  cases classify text with
  | none => rfl
  | some intent =>
    simp only [Reading.events, List.map_cons, List.map_append, mark_requestEvent]
    rfl

/-- A run of a program is noted exactly if the program ended. -/
theorem marks_course (program script : String) (course : Course) :
    (course.report program script).events.map Event.mark =
      match course with
      | .ended _ => [("script_run", answerLevel (course.report program script).answer)]
      | .unwritten _ | .unstarted _ => [] := by
  cases course with
  | unwritten cause => rfl
  | unstarted cause => rfl
  | ended e =>
    simp only [Course.report, Host.reportEnded]
    split <;> rfl

/-! ### What a level lets through -/

/-- The level of what is noted behind the reading of a text. -/
def endLevel (runner : Runner Id) (text : String) : Level :=
  match parse text with
  | none => .info
  | some c => answerLevel (runner.run c.script).run.answer

theorem level_parseEvents (text : String) : ∀ e ∈ parseEvents text, e.level = .debug := by
  intro e he
  obtain ⟨finding, -, rfl⟩ := List.mem_map.1 he
  cases finding <;> rfl

theorem level_eventsBehind (program : String) (course : Course) (id text : String) :
    ∀ e ∈ eventsBehind (course.runner program) id text,
      e.level = endLevel (course.runner program) text := by
  intro e he
  rw [eventsBehind] at he
  rw [endLevel]
  cases hparse : parse text with
  | none =>
    rw [hparse] at he
    obtain rfl := List.mem_singleton.1 he
    rfl
  | some c =>
    rw [hparse] at he
    rcases List.mem_append.1 he with he | he
    · have hmark : e.mark ∈ (course.report program c.script).events.map Event.mark :=
        List.mem_map_of_mem he
      rw [marks_course] at hmark
      cases course with
      | unwritten cause => cases hmark
      | unstarted cause => cases hmark
      | ended ended => exact congrArg Prod.snd (List.mem_singleton.1 hmark)
    · obtain rfl := List.mem_singleton.1 he
      exact congrArg Prod.snd (mark_requestEvent _ id c.action c.title.length)

theorem kept_of_level {active : Logging.Active} {events : List Event} {level : Level}
    (h : ∀ e ∈ events, e.level = level) :
    active.kept events = if active.level.rank ≤ level.rank then events else [] := by
  rw [Logging.Active.kept]
  split
  case isTrue hlevel =>
    refine List.filter_eq_self.2 fun e he => ?_
    rw [h e he]
    exact decide_eq_true hlevel
  case isFalse hlevel =>
    refine List.filter_eq_nil_iff.2 fun e he => ?_
    rw [h e he]
    simpa using hlevel

/-- A level lets through the reading of a text or drops it, and so with all that comes behind. -/
theorem kept_eventsOf (active : Logging.Active) (program : String) (course : Course)
    (id text : String) :
    active.kept (eventsOf (course.runner program) id text) =
      (if active.level.rank ≤ Level.debug.rank then parseEvents text else []) ++
        if active.level.rank ≤ (endLevel (course.runner program) text).rank then
          eventsBehind (course.runner program) id text
        else [] := by
  have happend : ∀ events events', active.kept (events ++ events') =
      active.kept events ++ active.kept events' := fun _ _ => List.filter_append ..
  rw [eventsOf_eq_append, happend, kept_of_level (level_parseEvents text),
    kept_of_level (level_eventsBehind program course id text)]

/-! ### Lines -/

theorem shown_kind (fault : RunFault) : Shown fault.kind := by
  cases fault <;> simp +decide only [RunFault.kind]

theorem shown_parseEvents (text : String) : ∀ e ∈ parseEvents text, Shown e.line := by
  intro e he
  rw [parseEvents_eq, List.mem_append] at he
  rcases he with he | he
  · have hrejected : e = .intentRejected .longText .emptyTitle := by
      split at he
      · exact List.mem_singleton.1 he
      · cases he
    subst hrejected
    exact Event.shown_line (by decide)
  · obtain rfl := List.mem_singleton.1 he
    refine Event.shown_line ?_
    cases classify text <;> simp [Finding.ofIntent?, Finding.event, Event.texts]

theorem shown_requestEvent {id : String} (hid : Shown id) (report : RunReport) (action : Action)
    (titleCharacters : Nat) :
    Shown (report.notes.requestEvent id action titleCharacters).line := by
  obtain ⟨answer, events⟩ := report
  cases answer with
  | ok output =>
    have htexts : ∀ t ∈ [id], Shown t := by simpa using hid
    exact Event.shown_line htexts
  | error fault =>
    have htexts : ∀ t ∈ [id, fault.kind], Shown t := by simpa using ⟨hid, shown_kind fault⟩
    exact Event.shown_line htexts

/-- What a request notes is written in lines of ASCII characters that show, if this holds of its
identifier and of what its runner notes. -/
theorem shown_eventsOf {runner : Runner Id} {id : String} (hid : Shown id)
    (hrunner : ∀ script, ∀ e ∈ (runner.run script).run.events, Shown e.line) (text : String) :
    ∀ e ∈ eventsOf runner id text, Shown e.line := by
  intro e he
  rw [eventsOf_eq_append, List.mem_append] at he
  rcases he with he | he
  · exact shown_parseEvents text e he
  · rw [eventsBehind] at he
    cases hparse : parse text with
    | none =>
      rw [hparse] at he
      obtain rfl := List.mem_singleton.1 he
      have htexts : ∀ t ∈ [id], Shown t := by simpa using hid
      exact Event.shown_line htexts
    | some c =>
      rw [hparse] at he
      rcases List.mem_append.1 he with he | he
      · exact hrunner c.script e he
      · obtain rfl := List.mem_singleton.1 he
        exact shown_requestEvent hid _ _ _

theorem shown_course (program script : String) (course : Course) :
    ∀ e ∈ (course.report program script).events, Shown e.line := by
  intro e he
  cases course with
  | unwritten cause => cases he
  | unstarted cause => cases he
  | ended ended =>
    simp only [Course.report, Host.reportEnded] at he
    split at he
    · obtain rfl := List.mem_singleton.1 he
      exact Event.shown_line (by simp [Event.texts])
    · obtain rfl := List.mem_singleton.1 he
      exact Event.shown_line (by simp [Event.texts])

/-! ### Requests in any monad -/

variable {m : Type → Type} [Monad m] [LawfulMonad m]

/-- A request comes to what it comes to in a runner that is given beforehand what is found out in
the run of its script. -/
theorem process_eq_map {α : Type} {runner : Runner m} {find : String → m α}
    {given : α → Runner Id}
    (h : ∀ script, runner.run script = (fun a => ((given a).run script).run) <$> find script)
    (id text : String) :
    process runner id text =
      match parse text with
      | none => pure (notUnderstood id text)
      | some c => (fun a => (process (given a) id text).run) <$> find c.script := by
  rw [process]
  cases hparse : parse text with
  | none => rfl
  | some c =>
    have hgiven : ∀ a, (process (given a) id text).run =
        conclude id text c ((given a).run c.script).run := by
      intro a
      rw [process, hparse]
      rfl
    simp only [hgiven, h, bind_pure_comp, Functor.map_map]

/-- **What a request notes are counts and names.**  The log first learns whether a long text is
refused, then how the text is read, then of the program if it ended, and last how the request went;
a level lets through what comes behind the reading, or nothing, or all. Requests of which the log
learns the same note the same events, whatever their words, and nothing that they note breaks a
line.

A request depends on its runner only through the report on the run of its script, and on a host only
through the course of that run; so the runners here give a report or a course beforehand. -/
theorem process_notes_counts (program directory : String) {id : String} (hid : Shown id) :
    (∀ (runner : Runner m) text, process runner id text =
      match parse text with
      | none => pure (notUnderstood id text)
      | some c => (fun report => (process (.giving report) id text).run) <$> runner.run c.script) ∧
    (∀ (host : Host m) text, process (host.runner program directory) id text =
      match parse text with
      | none => pure (notUnderstood id text)
      | some c => (fun course => (process (Course.runner program course) id text).run) <$>
          host.course program directory c.script) ∧
    (∀ runner text, ∃ rest, eventsOf runner id text =
      (if longTextRefused text then [.intentRejected .longText .emptyTitle] else []) ++ rest ∧
      rest.map Event.mark =
        match parse text with
        | none => [("intent_unmatched", .debug), ("note_request", .info)]
        | some c =>
          ("intent_parsed", .debug) :: ((runner.run c.script).run.events.map Event.mark ++
            [("note_request", answerLevel (runner.run c.script).run.answer)])) ∧
    (∀ script course, (Course.report program script course).events.map Event.mark =
      match course with
      | .ended _ => [("script_run", answerLevel (course.report program script).answer)]
      | .unwritten _ | .unstarted _ => []) ∧
    (∀ (active : Logging.Active) course text,
      active.kept (eventsOf (Course.runner program course) id text) =
        (if active.level.rank ≤ Level.debug.rank then parseEvents text else []) ++
          if active.level.rank ≤ (endLevel (course.runner program) text).rank then
            eventsBehind (course.runner program) id text
          else []) ∧
    (∀ runner₁ runner₂ text₁ text₂,
      notesOf (fun script => (runner₁.run script).run.notes) text₁ =
        notesOf (fun script => (runner₂.run script).run.notes) text₂ →
      eventsOf runner₁ id text₁ = eventsOf runner₂ id text₂) ∧
    (∀ (course₁ course₂ : Course) program₂ text₁ text₂,
      notesOf course₁.notes text₁ = notesOf course₂.notes text₂ →
      eventsOf (course₁.runner program) id text₁ = eventsOf (course₂.runner program₂) id text₂) ∧
    ∀ course text, ∀ e ∈ eventsOf (Course.runner program course) id text,
      Shown e.line ∧ '\n' ∉ e.line.toList ∧ '\r' ∉ e.line.toList := by
  refine ⟨?any_runner, ?host, fun runner text => marks_eventsOf runner id text,
    fun script course => marks_course program script course,
    fun active course text => kept_eventsOf active program course id text, ?reports, ?courses,
    ?lines⟩
  case any_runner =>
    exact fun runner text =>
      process_eq_map (fun script => (id_map' (runner.run script)).symm) id text
  case host =>
    exact fun host text =>
      process_eq_map (fun script => host.run_runner program directory script) id text
  case reports =>
    intro runner₁ runner₂ text₁ text₂ h
    rw [eventsOf_eq, eventsOf_eq, h]
  case courses =>
    intro course₁ course₂ program₂ text₁ text₂ h
    rw [eventsOf_course, eventsOf_course, h]
  case lines =>
    intro course text e he
    have hcourse : ∀ script, ∀ e ∈ ((course.runner program).run script).run.events, Shown e.line :=
      fun script => shown_course program script course
    have hshown := shown_eventsOf hid hcourse text e he
    exact ⟨hshown, not_mem_of_shown hshown⟩

/-- The program writes one letter. -/
def letter (byte : UInt8) : Course :=
  .ended ⟨some 0, [byte], []⟩

/-- Two notes of equally long titles are deleted, and the program writes one letter each time. -/
theorem process_notes_counts_twoDeletions :
    eventsOf ((letter 120).runner "osascript") "1" "Delete my 'a' note" =
      [.intentParsed .delete .delete 0, .scriptDone 248 1, .requestDone "1" .delete 1 1] ∧
    eventsOf ((letter 120).runner "osascript") "1" "Delete my 'a' note" =
      eventsOf ((letter 121).runner "osascript") "1" "Delete my 'b' note" ∧
    ∀ e ∈ eventsOf ((letter 120).runner "osascript") "1" "Delete my 'a' note",
      '\n' ∉ e.line.toList := by
  obtain ⟨-, -, -, -, -, -, hcourses, hlines⟩ :=
    process_notes_counts (m := Id) "osascript" "/tmp" (show Shown "1" by decide)
  refine ⟨by decide +kernel, hcourses _ _ _ _ _ (by decide +kernel), fun e he => ?_⟩
  exact (hlines _ _ e he).2.1

end Request

end PlainNotes

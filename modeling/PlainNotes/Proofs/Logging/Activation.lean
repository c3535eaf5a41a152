import PlainNotes.Logging.Session
import PlainNotes.Proofs.Logging.Cells
import PlainNotes.Proofs.Logging.Settings

/-!
# The one start of logging

Calls to start logging, crashes, events of other parts and changes of the world come in any order,
and the system may let any start fail. Still there is at most one start, and one hook for crashes:
the first call that succeeds settles what is active for ever.

* `begin_of_unmade`, `begin_of_unopened`, `begin_of_opened`: how a start goes.
* `Yields`: what an incident comes to, one case after the other; `step_eq_iff` says that these are
  all, and `Yields.coherent` that the cells keep agreeing with one another.
* `run_of_quiet`, `run_of_active`: by induction over the incidents, a history without a successful
  call, and one in which logging is active from the beginning.
* `logging_starts_once`: whole histories.
-/

namespace PlainNotes.Logging

open Text Files

/-! ## Calls -/

variable {σ α β : Type} {system : System (StateM σ)} {settings : Config.Log} {component : String}
variable {wanted : Active} {fault : Fault} {world world' world'' : σ} {cells cells' : Cells}

theorem run_bind_of_system {x : StateM σ α} {a : α} (h : x.run world = (a, world'))
    (f : α → StateT Cells (StateM σ) β) :
    (((monadLift x : StateT Cells (StateM σ) α) >>= f).run cells).run world =
      ((f a).run cells).run world' := by
  show ((f (x.run world).1).run cells).run (x.run world).2 = _
  rw [h]

theorem run_bind_of_cells {x : StateT Cells (StateM σ) α} {a : α}
    (h : (x.run cells).run world = ((a, cells'), world')) (f : α → StateT Cells (StateM σ) β) :
    ((x >>= f).run cells).run world = ((f a).run cells').run world' := by
  show ((f ((x.run cells).run world).1.1).run ((x.run cells).run world).1.2).run
    ((x.run cells).run world).2 = _
  rw [h]

theorem begin_of_unmade {cause : String}
    (hmake : (system.makeDirectory wanted.directory).run world = (.error cause, world')) :
    ((begin system wanted component).run cells).run world =
      ((.error (.directory cause), cells), world') := by
  rw [begin, run_bind_of_system hmake]
  rfl

theorem begin_of_unopened {cause : String}
    (hmake : (system.makeDirectory wanted.directory).run world = (.ok (), world'))
    (hopen : (system.openLog wanted).run world' = (.error cause, world'')) :
    ((begin system wanted component).run cells).run world =
      ((.error (.logger cause), cells), world'') := by
  rw [begin, run_bind_of_system hmake, run_bind_of_system hopen]
  rfl

theorem begin_of_opened
    (hmake : (system.makeDirectory wanted.directory).run world = (.ok (), world'))
    (hopen : (system.openLog wanted).run world' = (.ok (), world'')) :
    ((begin system wanted component).run cells).run world =
      ((.ok (), { cells with logger := some wanted }.installHook.note
        (startEvents wanted component)), world'') := by
  rw [begin, run_bind_of_system hmake, run_bind_of_system hopen]
  rfl

theorem run_get_bind (f : Cells → StateT Cells (StateM σ) β) :
    ((get >>= f).run cells).run world = ((f cells).run cells).run world := rfl

namespace Process

variable {p : Process σ}

theorem start_of_refused (h : Refused settings fault) :
    p.start system settings component = (.error fault, p) := by
  rw [start, Logging.start, readSettings_of_refused h]
  rfl

theorem start_of_active {active : Active} (h : Asks settings wanted)
    (hactive : p.cells.active = some active) :
    p.start system settings component = (active.agree wanted, p) := by
  rw [start, Logging.start, readSettings_of_asks h]
  simp only [run_get_bind, hactive]
  rfl

theorem start_of_failed {startFault : StartFault} (h : Asks settings wanted)
    (hidle : p.cells.active = none)
    (hbegin : ((begin system wanted component).run p.cells).run p.world =
      ((.error startFault, cells), world)) :
    p.start system settings component =
      (.error (.notStarted wanted.directory startFault), ⟨cells, world⟩) := by
  rw [start, Logging.start, readSettings_of_asks h]
  simp only [run_get_bind, hidle, run_bind_of_cells hbegin]
  rfl

theorem start_of_begun (h : Asks settings wanted) (hidle : p.cells.active = none)
    (hbegin : ((begin system wanted component).run p.cells).run p.world =
      ((.ok (), cells), world)) :
    p.start system settings component =
      (.ok (), ⟨{ cells with active := some wanted }, world⟩) := by
  rw [start, Logging.start, readSettings_of_asks h, ← wanted.agree_refl]
  simp only [run_get_bind, hidle, run_bind_of_cells hbegin]
  rfl

end Process

/-! ## Incidents -/

/-- All that an incident can come to. The world is asked only by a call with sound settings while
nothing is active. -/
inductive Yields (system : System (StateM σ)) :
    Process σ → Incident σ → Option (Except Fault Unit) → Process σ → Prop
  | refused {p : Process σ} {settings : Config.Log} {component : String} {fault : Fault}
    (h : Refused settings fault) :
    Yields system p (.call settings component) (some (.error fault)) p
  | unmade {world world' : σ} {settings : Config.Log} {component : String} {wanted : Active}
    {cause : String} (h : Asks settings wanted)
    (hmake : (system.makeDirectory wanted.directory).run world = (.error cause, world')) :
    Yields system ⟨{}, world⟩ (.call settings component)
      (some (.error (.notStarted wanted.directory (.directory cause)))) ⟨{}, world'⟩
  | unopened {world world' world'' : σ} {settings : Config.Log} {component : String}
    {wanted : Active} {cause : String} (h : Asks settings wanted)
    (hmake : (system.makeDirectory wanted.directory).run world = (.ok (), world'))
    (hopen : (system.openLog wanted).run world' = (.error cause, world'')) :
    Yields system ⟨{}, world⟩ (.call settings component)
      (some (.error (.notStarted wanted.directory (.logger cause)))) ⟨{}, world''⟩
  | started {world world' world'' : σ} {settings : Config.Log} {component : String}
    {wanted : Active} (h : Asks settings wanted)
    (hmake : (system.makeDirectory wanted.directory).run world = (.ok (), world'))
    (hopen : (system.openLog wanted).run world' = (.ok (), world'')) :
    Yields system ⟨{}, world⟩ (.call settings component) (some (.ok ()))
      ⟨.started wanted (wanted.kept (startEvents wanted component)), world''⟩
  | agreed {world : σ} {settings : Config.Log} {component : String} {active wanted : Active}
    {log : List Event} (h : Asks settings wanted)
    (hdirectory : samePath active.directory wanted.directory = true)
    (hlevel : active.level = wanted.level) :
    Yields system ⟨.started active log, world⟩ (.call settings component) (some (.ok ()))
      ⟨.started active log, world⟩
  | otherDirectory {world : σ} {settings : Config.Log} {component : String}
    {active wanted : Active} {log : List Event} (h : Asks settings wanted)
    (hdirectory : samePath active.directory wanted.directory = false) :
    Yields system ⟨.started active log, world⟩ (.call settings component)
      (some (.error (.otherDirectory active.directory wanted.directory)))
      ⟨.started active log, world⟩
  | otherLevel {world : σ} {settings : Config.Log} {component : String} {active wanted : Active}
    {log : List Event} (h : Asks settings wanted)
    (hdirectory : samePath active.directory wanted.directory = true)
    (hlevel : active.level ≠ wanted.level) :
    Yields system ⟨.started active log, world⟩ (.call settings component)
      (some (.error (.otherLevel active.level wanted.level))) ⟨.started active log, world⟩
  | crashMissed {world : σ} {location : String} {payload : Option String} :
    Yields system ⟨{}, world⟩ (.crash location payload) none ⟨{}, world⟩
  | crashNoted {world : σ} {active : Active} {log : List Event} {location : String}
    {payload : Option String} :
    Yields system ⟨.started active log, world⟩ (.crash location payload) none
      ⟨.started active (log ++ [.crashCaught location (crashText payload)]), world⟩
  | dropped {world : σ} {events : List Event} :
    Yields system ⟨{}, world⟩ (.note events) none ⟨{}, world⟩
  | noted {world : σ} {active : Active} {log events : List Event} :
    Yields system ⟨.started active log, world⟩ (.note events) none
      ⟨.started active (log ++ active.kept events), world⟩
  | changed {p : Process σ} {f : σ → σ} :
    Yields system p (.change f) none ⟨p.cells, f p.world⟩

variable {p p' : Process σ} {i : Incident σ} {answer? : Option (Except Fault Unit)}

theorem Yields.step_eq (h : Yields system p i answer? p') : p.step system i = (answer?, p') := by
  cases h with
  | refused h => rw [Process.step, Process.start_of_refused h]
  | unmade h hmake => rw [Process.step, Process.start_of_failed h rfl (begin_of_unmade hmake)]
  | unopened h hmake hopen =>
    rw [Process.step, Process.start_of_failed h rfl (begin_of_unopened hmake hopen)]
  | started h hmake hopen =>
    rw [Process.step, Process.start_of_begun h rfl (begin_of_opened hmake hopen)]
    rfl
  | agreed h hdirectory hlevel =>
    rw [Process.step, Process.start_of_active h rfl, Active.agree, hdirectory, hlevel]
    simp
  | otherDirectory h hdirectory =>
    rw [Process.step, Process.start_of_active h rfl, Active.agree, hdirectory]
    simp
  | otherLevel h hdirectory hlevel =>
    rw [Process.step, Process.start_of_active h rfl, Active.agree, hdirectory]
    simp [hlevel]
  | crashMissed => rw [Process.step, Process.crash, Cells.crash_idle]
  | crashNoted => rw [Process.step, Process.crash, Cells.crash_started]
  | dropped => rw [Process.step, Process.note, Cells.note_idle]
  | noted => rw [Process.step, Process.note, Cells.note_started]
  | changed => rfl

/-- What a call with sound settings comes to while nothing is active is up to the system. -/
theorem exists_yields_of_idle (h : Asks settings wanted) (system : System (StateM σ))
    (component : String) (world : σ) :
    ∃ answer? p', Yields system ⟨{}, world⟩ (.call settings component) answer? p' := by
  rcases hmake : (system.makeDirectory wanted.directory).run world with ⟨cause | ⟨⟩, world'⟩
  · exact ⟨_, _, .unmade h hmake⟩
  · rcases hopen : (system.openLog wanted).run world' with ⟨cause | ⟨⟩, world''⟩
    · exact ⟨_, _, .unopened h hmake hopen⟩
    · exact ⟨_, _, .started h hmake hopen⟩

/-- While logging is active, a call compares the directories and then the levels. -/
theorem exists_yields_of_started (h : Asks settings wanted) (system : System (StateM σ))
    (component : String) (active : Active) (log : List Event) (world : σ) :
    ∃ answer? p',
      Yields system ⟨.started active log, world⟩ (.call settings component) answer? p' := by
  by_cases hdirectory : samePath active.directory wanted.directory = true
  · by_cases hlevel : active.level = wanted.level
    · exact ⟨_, _, .agreed h hdirectory hlevel⟩
    · exact ⟨_, _, .otherLevel h hdirectory hlevel⟩
  · exact ⟨_, _, .otherDirectory h (Bool.eq_false_iff.2 hdirectory)⟩

theorem exists_yields (hp : p.cells.Coherent) (system : System (StateM σ)) (i : Incident σ) :
    ∃ answer? p', Yields system p i answer? p' := by
  obtain ⟨cells, world⟩ := p
  cases i with
  | change f => exact ⟨_, _, .changed⟩
  | call settings component =>
    rcases asks_or_refused settings with ⟨wanted, h⟩ | ⟨fault, h⟩
    · obtain rfl | ⟨active, log, rfl⟩ := hp.eq_idle_or_started
      · exact exists_yields_of_idle h system component world
      · exact exists_yields_of_started h system component active log world
    · exact ⟨_, _, .refused h⟩
  | crash location payload =>
    obtain rfl | ⟨active, log, rfl⟩ := hp.eq_idle_or_started
    · exact ⟨_, _, .crashMissed⟩
    · exact ⟨_, _, .crashNoted⟩
  | note events =>
    obtain rfl | ⟨active, log, rfl⟩ := hp.eq_idle_or_started
    · exact ⟨_, _, .dropped⟩
    · exact ⟨_, _, .noted⟩

/-- The cases are all there are, and no two of them meet. -/
theorem step_eq_iff (hp : p.cells.Coherent) :
    p.step system i = (answer?, p') ↔ Yields system p i answer? p' := by
  refine ⟨fun h => ?_, Yields.step_eq⟩
  obtain ⟨answer?', q, hyields⟩ := exists_yields hp system i
  obtain ⟨rfl, rfl⟩ := Prod.mk.inj (hyields.step_eq.symm.trans h)
  exact hyields

/-! ### Single incidents -/

/-- An incident leaves cells that agree with one another. In particular a hook is installed together
with the logger, and by nothing else. -/
theorem Yields.coherent (h : Yields system p i answer? p') (hp : p.cells.Coherent) :
    p'.cells.Coherent := by
  cases h with
  | refused | changed => exact hp
  | unmade | unopened | crashMissed | dropped => exact Cells.coherent_idle
  | started | agreed | otherDirectory | otherLevel | crashNoted | noted =>
    exact Cells.coherent_started _ _

/-- What is written of an incident while logging is active. -/
def Incident.notes (active : Active) : Incident σ → List Event
  | .call .. | .change _ => []
  | .crash location payload => [.crashCaught location (crashText payload)]
  | .note events => active.kept events

/-- What an incident makes of the world while logging is active. -/
def Incident.turn : Incident σ → σ → σ
  | .change f, world => f world
  | .call .., world | .crash .., world | .note _, world => world

/-- While logging is active, nothing changes but the log, and the world if the incident is a change
of it. -/
theorem Yields.of_active {active : Active} {log : List Event} (h : Yields system p i answer? p')
    (hactive : p.cells = .started active log) :
    p' = ⟨.started active (log ++ i.notes active), i.turn p.world⟩ := by
  cases h with
  | refused | changed | agreed | otherDirectory | otherLevel =>
    rw [Incident.notes, List.append_nil, ← hactive]
    rfl
  | crashNoted | noted =>
    obtain ⟨rfl, rfl⟩ : _ = active ∧ _ = log := by simpa [Cells.started] using hactive
    rfl
  | unmade | unopened | started | crashMissed | dropped => cases hactive

/-- While nothing is active, only a call that succeeds changes a cell. -/
theorem Yields.of_idle (h : Yields system p i answer? p') (hidle : p.cells = {})
    (hfails : answer? ≠ some (.ok ())) : p'.cells = {} := by
  cases h with
  | refused | changed => exact hidle
  | unmade | unopened | crashMissed | dropped => rfl
  | started => exact absurd rfl hfails
  | agreed | otherDirectory | otherLevel | crashNoted | noted => cases hidle

/-- The call that succeeds while nothing is active settles what is active. -/
theorem Yields.of_success (h : Yields system p i (some (.ok ())) p') (hidle : p.cells = {}) :
    ∃ settings component wanted, i = .call settings component ∧ Asks settings wanted ∧
      p'.cells = .started wanted (wanted.kept (startEvents wanted component)) := by
  cases h with
  | started h => exact ⟨_, _, _, rfl, h, rfl⟩
  | agreed => cases hidle

/-! ## Histories -/

namespace Process

variable (system) (p)

/-- The process behind some incidents. -/
def after (incidents : List (Incident σ)) : Process σ :=
  (p.run system incidents).2

/-- No call succeeds. -/
def Quiet (incidents : List (Incident σ)) : Prop :=
  some (.ok ()) ∉ (p.run system incidents).1

variable {system} {p} {incidents : List (Incident σ)}

theorem after_cons (i : Incident σ) (is : List (Incident σ)) :
    p.after system (i :: is) = (p.step system i).2.after system is := rfl

theorem quiet_cons {i : Incident σ} {is : List (Incident σ)} :
    p.Quiet system (i :: is) ↔
      (p.step system i).1 ≠ some (.ok ()) ∧ (p.step system i).2.Quiet system is := by
  rw [Quiet, run, List.mem_cons, not_or, ne_comm]
  rfl

theorem after_append (is is' : List (Incident σ)) :
    p.after system (is ++ is') = (p.after system is).after system is' := by
  induction is generalizing p with
  | nil => rfl
  | cons i is ih => rw [List.cons_append, after_cons, after_cons, ih]

theorem yields_step (system : System (StateM σ)) (hp : p.cells.Coherent) (i : Incident σ) :
    Yields system p i (p.step system i).1 (p.step system i).2 :=
  (step_eq_iff hp).1 rfl

theorem coherent_after (system : System (StateM σ)) (hp : p.cells.Coherent)
    (incidents : List (Incident σ)) :
    (p.after system incidents).cells.Coherent := by
  induction incidents generalizing p with
  | nil => exact hp
  | cons i is ih =>
    rw [after_cons]
    exact ih ((yields_step system hp i).coherent hp)

/-- Once logging is active, calls do nothing, not even to the world, and the log grows by what the
level lets through and by every crash. -/
theorem run_of_active (system : System (StateM σ)) {active : Active} {log : List Event}
    (hactive : p.cells = .started active log) (incidents : List (Incident σ)) :
    p.after system incidents =
      ⟨.started active (log ++ incidents.flatMap (Incident.notes active)),
        incidents.foldl (fun world i => i.turn world) p.world⟩ := by
  induction incidents generalizing p log with
  | nil =>
    rw [List.flatMap_nil, List.append_nil, ← hactive]
    rfl
  | cons i is ih =>
    have hp : p.cells.Coherent := hactive ▸ Cells.coherent_started active log
    have hstep := (yields_step system hp i).of_active hactive
    rw [after_cons, hstep, ih rfl, List.flatMap_cons, List.append_assoc]
    rfl

/-- Until a call succeeds, nothing is active, no hook is installed and nothing is noted. -/
theorem run_of_quiet (hidle : p.cells = {}) (hquiet : p.Quiet system incidents) :
    (p.after system incidents).cells = {} := by
  induction incidents generalizing p with
  | nil => exact hidle
  | cons i is ih =>
    have hp : p.cells.Coherent := hidle ▸ Cells.coherent_idle
    obtain ⟨hfails, hrest⟩ := quiet_cons.1 hquiet
    rw [after_cons]
    exact ih ((yields_step system hp i).of_idle hidle hfails) hrest

/-- Where some call succeeds, there is a first one. -/
theorem exists_first (hloud : ¬ p.Quiet system incidents) :
    ∃ before i rest, incidents = before ++ i :: rest ∧ p.Quiet system before ∧
      ((p.after system before).step system i).1 = some (.ok ()) := by
  induction incidents generalizing p with
  | nil => exact absurd List.not_mem_nil hloud
  | cons i is ih =>
    by_cases hsucceeds : (p.step system i).1 = some (.ok ())
    · exact ⟨[], i, is, rfl, List.not_mem_nil, hsucceeds⟩
    · have hrest : ¬ (p.step system i).2.Quiet system is := fun h =>
        hloud (quiet_cons.2 ⟨hsucceeds, h⟩)
      obtain ⟨before, j, rest, rfl, hquiet, hfirst⟩ := ih hrest
      exact ⟨i :: before, j, rest, rfl, quiet_cons.2 ⟨hsucceeds, hquiet⟩, hfirst⟩

/-- The first call that succeeds settles what is active, and what is noted from then on. -/
theorem run_of_first {before : List (Incident σ)} (hidle : p.cells = {})
    (hquiet : p.Quiet system before)
    (hfirst : ((p.after system before).step system i).1 = some (.ok ()))
    (rest : List (Incident σ)) :
    ∃ settings component wanted, i = .call settings component ∧ Asks settings wanted ∧
      (p.after system (before ++ i :: rest)).cells =
        .started wanted (wanted.kept (startEvents wanted component) ++
          rest.flatMap (Incident.notes wanted)) := by
  have hstill := run_of_quiet hidle hquiet
  have hyields := yields_step system (hstill ▸ Cells.coherent_idle) i
  rw [hfirst] at hyields
  obtain ⟨settings, component, wanted, hcall, hasks, hstarted⟩ := hyields.of_success hstill
  refine ⟨settings, component, wanted, hcall, hasks, ?_⟩
  rw [after_append, after_cons, run_of_active system hstarted rest]

end Process

open Process

/-- **Logging is started at most once.** In every history of a process, an incident comes to what
`Yields` says, and the cells agree with one another: the noting hook is there exactly if logging is
active, and only one of them, as it is not installed twice. Until a call succeeds, nothing is active
and nothing is noted. The first call that succeeds settles what is active, whatever follows: the log
begins with its start, and behind it calls leave nothing. A crash is noted once if logging is active
and else not at all, at every level and in one short line. -/
theorem logging_starts_once (system : System (StateM σ)) (world : σ) (past : List (Incident σ)) :
    (after system ⟨{}, world⟩ past).cells.Coherent ∧
    (∀ cells : Cells, cells.installHook.installHook = cells.installHook) ∧
    (∀ i answer? p', (after system ⟨{}, world⟩ past).step system i = (answer?, p') ↔
      Yields system (after system ⟨{}, world⟩ past) i answer? p') ∧
    (Quiet system ⟨{}, world⟩ past → (after system ⟨{}, world⟩ past).cells = {}) ∧
    (¬ Quiet system ⟨{}, world⟩ past →
      ∃ before settings component rest wanted,
        past = before ++ .call settings component :: rest ∧ Quiet system ⟨{}, world⟩ before ∧
        ((after system ⟨{}, world⟩ before).step system (.call settings component)).1 =
          some (.ok ()) ∧
        Asks settings wanted ∧
        (after system ⟨{}, world⟩ past).cells = .started wanted
          (wanted.kept (startEvents wanted component) ++ rest.flatMap (Incident.notes wanted))) ∧
    (∀ active future, (after system ⟨{}, world⟩ past).cells.active = some active →
      after system ⟨{}, world⟩ (past ++ future) =
        ⟨.started active
          ((after system ⟨{}, world⟩ past).cells.log ++ future.flatMap (Incident.notes active)),
          future.foldl (fun world i => i.turn world) (after system ⟨{}, world⟩ past).world⟩) ∧
    (∀ location payload,
      Summary 160 (payload.getD "non-string panic payload").toList (crashText payload).toList ∧
      ((after system ⟨{}, world⟩ past).cells.crash location payload).log =
        (after system ⟨{}, world⟩ past).cells.log ++
          if (after system ⟨{}, world⟩ past).cells.active.isSome then
            [.crashCaught location (crashText payload)]
          else []) := by
  have hcoherent : (after system ⟨{}, world⟩ past).cells.Coherent :=
    coherent_after system Cells.coherent_idle past
  refine ⟨hcoherent, Cells.installHook_installHook, fun i answer? p' => step_eq_iff hcoherent,
    run_of_quiet rfl, ?first, ?future, ?crash⟩
  case first =>
    intro hloud
    obtain ⟨before, i, rest, rfl, hquiet, hfirst⟩ := exists_first hloud
    obtain ⟨settings, component, wanted, rfl, hasks, hcells⟩ := run_of_first rfl hquiet hfirst rest
    exact ⟨before, settings, component, rest, wanted, rfl, hquiet, hfirst, hasks, hcells⟩
  case future =>
    intro active future hactive
    rw [after_append]
    exact run_of_active system (hcoherent.eq_started hactive) future
  case crash =>
    intro location payload
    refine ⟨?_, hcoherent.crash_log location payload⟩
    rw [crashText, String.toList_ofList]
    exact summary_sanitize 160 _

/-- A level without a name, a directory that cannot be made, then a call that succeeds and two more
behind it, with a crash before and one after. -/
def troubledHistory : List (Incident Disk) :=
  [ .crash "main:1" (some "too early"), .call ⟨"verbose", "/logs"⟩ "cli",
    .call ⟨"info", "/etc/passwd/logs"⟩ "cli", .call ⟨" Info ", "/logs"⟩ "cli",
    .crash "main:2" (some "out of\nmemory"), .call ⟨"info", "/logs/"⟩ "http",
    .call ⟨"warning", "/logs"⟩ "http" ]

theorem logging_starts_once_troubled :
    (after Session.system ⟨{}, Disk.ordinary⟩ troubledHistory).cells =
      .started ⟨.info, "/logs"⟩
        [.appStarted "cli", .loggingStarted .info "/logs", .crashCaught "main:2" "out of memory"] ∧
    ∀ future, (after Session.system ⟨{}, Disk.ordinary⟩ (troubledHistory ++ future)).cells.active =
      some ⟨.info, "/logs"⟩ := by
  have hcells : (after Session.system ⟨{}, Disk.ordinary⟩ troubledHistory).cells =
      .started ⟨.info, "/logs"⟩ [.appStarted "cli", .loggingStarted .info "/logs",
        .crashCaught "main:2" "out of memory"] := by decide +kernel
  refine ⟨hcells, fun future => ?_⟩
  obtain ⟨-, -, -, -, -, hfuture, -⟩ :=
    logging_starts_once Session.system Disk.ordinary troubledHistory
  rw [hfuture ⟨.info, "/logs"⟩ future (by rw [hcells]; rfl)]
  rfl

end PlainNotes.Logging

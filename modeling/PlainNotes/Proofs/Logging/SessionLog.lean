import PlainNotes.Proofs.Logging.Activation

/-!
# The log of a session

A session is run by functions of its own, one for each kind of step. What they do to the log is what
the incidents of the process do, so that a session begins with nothing in its log, and from the first
start that succeeds the log holds this start and what was noted behind it.

* `step_eq_goOn`, `toProcess_after`: a session and its process, step by step and for a whole run.
* `cells_after`: the cells of a session that began with none of them set.
-/

namespace PlainNotes.Logging.Session

open Process

variable {p : Session}

/-- A step of a session is a step of its process. -/
theorem step_eq_goOn (p : Session) (s : Step) :
    p.step s = p.goOn (p.toProcess.step system (p.incident s)).2 := by
  cases s with
  | start settings component => rw [step, start, incident, Process.step]
  | process text responses => rw [step, process, incident, Process.step]
  | makeFile | crash | status => rfl

theorem toProcess_step (p : Session) (s : Step) :
    (p.step s).toProcess = (p.toProcess.step system (p.incident s)).2 := by
  rw [step_eq_goOn]
  rfl

theorem incident_step (p : Session) (s : Step) : (p.step s).incident = p.incident := by
  rw [step_eq_goOn]
  rfl

theorem toProcess_after (p : Session) (steps : List Step) :
    (p.after steps).toProcess = p.toProcess.after system (steps.map p.incident) := by
  induction steps generalizing p with
  | nil => rfl
  | cons s steps ih =>
    rw [List.map_cons, after_cons, ← toProcess_step, ← incident_step p s]
    exact ih (p.step s)

/-- Only a call to start logging is one for the process. -/
theorem eq_start_of_incident {s : Step} {settings : Config.Log} {component : String}
    (h : p.incident s = .call settings component) : s = .start settings component := by
  cases s with
  | start settings' component' =>
    obtain ⟨rfl, rfl⟩ := Incident.call.inj h
    rfl
  | makeFile | process | crash | status => cases h

/-- A session that begins with no logging has noted nothing, or there is the step by which logging
was started. Then its settings are active, and the log holds the start and what the level let
through of all that was noted behind it. -/
theorem cells_after (hidle : p.cells = {}) (steps : List Step) :
    (p.after steps).cells = {} ∨
      ∃ before settings component rest wanted, steps = before ++ .start settings component :: rest ∧
        (p.after before).cells = {} ∧ Asks settings wanted ∧
        (p.after steps).cells = .started wanted
          (wanted.kept (startEvents wanted component) ++
            rest.flatMap fun s => (p.incident s).notes wanted) := by
  have hcells : ∀ steps, (p.after steps).cells =
      (p.toProcess.after system (steps.map p.incident)).cells := fun steps =>
    congrArg Process.cells (toProcess_after p steps)
  simp only [hcells]
  by_cases hquiet : p.toProcess.Quiet system (steps.map p.incident)
  · exact Or.inl (run_of_quiet hidle hquiet)
  · obtain ⟨before, i, rest, hsteps, hbefore, hfirst⟩ := exists_first hquiet
    obtain ⟨before, tail, rfl, rfl, htail⟩ := List.map_eq_append_iff.1 hsteps
    obtain ⟨s, rest, rfl, rfl, rfl⟩ := List.map_eq_cons_iff.1 htail
    obtain ⟨settings, component, wanted, hcall, hasks, hstarted⟩ :=
      run_of_first hidle hbefore hfirst (rest.map p.incident)
    obtain rfl := eq_start_of_incident hcall
    refine Or.inr ⟨before, settings, component, rest, wanted, rfl, run_of_quiet hidle hbefore,
      hasks, ?_⟩
    rw [hsteps, hstarted, List.flatMap_map]

end PlainNotes.Logging.Session

import PlainNotes.Proofs.Host.Memory
import PlainNotes.Runner.Rehearsed

/-!
# Runs that clean up behind them

A system may answer each request of a run as it likes, and a program may do what it likes.  Whatever
happens, the run starts its program at most once, tells what happened, and takes the file of its
script away again.

* `run_cleans_up`: every run, on any host that keeps its directory.
-/

namespace PlainNotes.Host

open Files

variable {σ : Type} {host : Host (StateM σ)} {directory : String} {path : Name → String}
  {entry : σ → Entries}

/-- **A run tells what happened and cleans up,** on every host that keeps the directory for scripts,
for every script and whatever stands in the directory.  Of the requests that it makes, at most one
starts the program; the directory then holds one new file, with the bytes of the script, and at the
end of the run it is as the program left it, without this file.  If no program is started the
directory is as it was.  The answer says that the script could not be written if a file could not be
made or filled, and just then no program is started; that the program could not be started; that it
ended without success; or else what it wrote.  A program that copies its file gives the script back. -/
theorem run_cleans_up (hkeeps : host.Keeps directory path entry) (program script : String) (s : σ) :
    ∃ (report : RunReport) (steps : List (Step σ)) (s' : σ),
      ((host.runner program directory).run script).run s = (report, s') ∧
      (((host.recording.runner program directory).run script).run []).run s =
        ((report, steps), s') ∧
      (steps.countP fun step => step.call.isLaunch) ≤ 1 ∧
      (∀ step ∈ steps, step.call.isLaunch = true →
        ∃ name answer, step.call = .launch program (path name) answer ∧ entry s name = none ∧
          entry step.before =
            Function.update (entry s) name (some (.file (Utf8.encode script.toList))) ∧
          entry s' = (entry step.after).without name ∧ ∀ bytes, entry s' name ≠ some (.file bytes)) ∧
      ((∀ step ∈ steps, step.call.isLaunch = false) → entry s' = entry s) ∧
      ((∀ step ∈ steps, step.call.isLaunch = true → entry step.after = entry step.before) →
        entry s' = entry s) ∧
      (∀ cause, report.answer = .error (.write cause) ↔
        ∃ step ∈ steps, step.call.writeCause? = some cause) ∧
      ((∃ cause, report.answer = .error (.write cause)) ↔
        ∀ step ∈ steps, step.call.isLaunch = false) ∧
      (∀ p cause, report.answer = .error (.launch p cause) ↔ p = program ∧
        ∃ step ∈ steps, ∃ argument, step.call = .launch program argument (.error cause)) ∧
      (∀ status stderr, report.answer = .error (.failed status stderr) ↔
        ∃ e, (∃ step ∈ steps, ∃ argument, step.call = .launch program argument (.ok e)) ∧
          e.status ≠ some 0 ∧ status = e.status ∧
          stderr = String.ofList (Utf8.decodeLossy e.stderr)) ∧
      (∀ output, report.answer = .ok output ↔
        ∃ e, (∃ step ∈ steps, ∃ argument, step.call = .launch program argument (.ok e)) ∧
          e.status = some 0 ∧ output = String.ofList (Utf8.decodeLossy e.stdout)) ∧
      (host.Copies program path entry → (∀ cause, report.answer ≠ .error (.write cause)) →
        report.answer = .ok script) := by
  obtain ⟨course, steps, s', hpassage⟩ := exists_passage host program directory script s
  refine ⟨course.report program script, steps, s', ?_, ?_, hpassage.countP_isLaunch_le, ?_,
    hpassage.entry_of_no_launch hkeeps, hpassage.entry_of_idle hkeeps, ?_, ?_, ?_, ?_, ?_, ?_⟩
  · rw [run_runner, StateT.run_map, hpassage.run_course]
    rfl
  · rw [run_runner, StateT.run_map, StateT.run_map, hpassage.run_recording]
    rfl
  · intro step hstep hlaunch
    obtain ⟨name, answer, hcall, hnew, hbefore, hafter⟩ :=
      hpassage.entry_of_launch hkeeps hstep hlaunch
    refine ⟨name, answer, hcall, hnew, hbefore, hafter, fun bytes => ?_⟩
    rw [hafter]
    exact Entries.without_ne_file _ name bytes
  · intro cause
    rw [Course.answer_eq_write_iff, hpassage.unwritten_iff]
  · simp only [Course.answer_eq_write_iff]
    exact hpassage.no_launch_iff.symm
  · intro p cause
    rw [Course.answer_eq_launch_iff, hpassage.unstarted_iff]
  · intro status stderr
    simp only [Course.answer_eq_failed_iff, hpassage.ended_iff]
  · intro output
    simp only [Course.answer_eq_ok_iff, hpassage.ended_iff]
  · intro hcopies hwritten
    obtain ⟨e, hcourse, hstatus, hstdout⟩ := hpassage.ended_of_copies hkeeps hcopies
      fun cause hcourse => hwritten cause (Course.answer_eq_write_iff.2 hcourse)
    refine Course.answer_eq_ok_iff.2 ⟨e, hcourse, hstatus, ?_⟩
    rw [hstdout, Utf8.decodeLossy_encode, String.ofList_toList]

/-- The copying program of a host in memory, with a script that is not all of ASCII. -/
theorem run_cleans_up_cat :
    memory.Keeps "/tmp/scripts" (fun name => join "/tmp/scripts" name.text)
        (Memory.entries "/tmp/scripts") ∧
      ∃ report m', ((memory.runner "cat" "/tmp/scripts").run "日本\n").run Response.freshHost =
          (report, m') ∧
        report.answer = .ok "日本\n" ∧
        Memory.entries "/tmp/scripts" m' = Memory.entries "/tmp/scripts" Response.freshHost := by
  have hwritten : (((memory.runner "cat" "/tmp/scripts").run "日本\n").run
      Response.freshHost).1.answer.isOk = true := by decide
  have hidle : ((((memory.recording.runner "cat" "/tmp/scripts").run "日本\n").run []).run
      Response.freshHost).1.2.all (fun step => step.after.disk == step.before.disk ||
        !step.call.isLaunch) = true := by decide
  obtain ⟨report, steps, m', hrun, hrecorded, -, -, -, hkept, -, -, -, -, -, hcopied⟩ :=
    run_cleans_up (memory_keeps "/tmp/scripts") "cat" "日本\n" Response.freshHost
  rw [hrun] at hwritten
  rw [hrecorded, List.all_eq_true] at hidle
  refine ⟨memory_keeps "/tmp/scripts", report, m', hrun,
    hcopied (memory_copies "/tmp/scripts") fun cause h => ?_, hkept fun step hstep hlaunch => ?_⟩
  · rw [h] at hwritten
    cases hwritten
  · have hdisk := hidle step hstep
    rw [hlaunch, Bool.not_true, Bool.or_false, beq_iff_eq] at hdisk
    rw [Memory.entries, Memory.entries, hdisk]

end PlainNotes.Host

import PlainNotes.Host.Basic

/-!
# Courses of runs

How far a host gets with a script: the file cannot be written, the program cannot be started, or the
program ends. Nothing else of a run reaches its report.

* `Course.report`: the report on a course.
* `answer_eq_write_iff`, `answer_eq_launch_iff`, `answer_eq_failed_iff`, `answer_eq_ok_iff`: each
  answer tells a course.
* `run_runner`: a run reports on its course.
-/

namespace PlainNotes

/-- How far the run of a script by a program gets. Causes are messages of the system. -/
inductive Course
  /-- There is no file that holds the script. -/
  | unwritten (cause : String)
  /-- The file holds the script, but the program was not started. -/
  | unstarted (cause : String)
  /-- The program was started and waited for. -/
  | ended (ended : Ended)
  deriving DecidableEq, Repr

namespace Course

def report (program script : String) : Course → RunReport
  | unwritten cause => { answer := .error (.write cause) }
  | unstarted cause => { answer := .error (.launch program cause) }
  | ended e => Host.reportEnded script e

/-- The runner whose runs all get so far. -/
def runner (program : String) (course : Course) : Runner Id where
  run script := pure (course.report program script)

section Answers

variable {course : Course} {program script p cause stderr output : String} {status : Option Int}

theorem answer_ended (program script : String) (e : Ended) :
    ((ended e).report program script).answer =
      if e.status = some 0 then .ok (String.ofList (Utf8.decodeLossy e.stdout))
      else .error (.failed e.status (String.ofList (Utf8.decodeLossy e.stderr))) := by
  rw [report, Host.reportEnded]
  split <;> rfl

theorem answer_eq_write_iff :
    (course.report program script).answer = .error (.write cause) ↔ course = .unwritten cause := by
  cases course with
  | unwritten cause' => simp [report]
  | unstarted cause' => simp [report]
  | ended e =>
    rw [answer_ended]
    split <;> simp

theorem answer_eq_launch_iff :
    (course.report program script).answer = .error (.launch p cause) ↔
      p = program ∧ course = .unstarted cause := by
  cases course with
  | unwritten cause' => simp [report]
  | unstarted cause' => simp [report, eq_comm]
  | ended e =>
    rw [answer_ended]
    split <;> simp

theorem answer_eq_failed_iff :
    (course.report program script).answer = .error (.failed status stderr) ↔
      ∃ e, course = .ended e ∧ e.status ≠ some 0 ∧ status = e.status ∧
        stderr = String.ofList (Utf8.decodeLossy e.stderr) := by
  cases course with
  | unwritten cause' => simp [report]
  | unstarted cause' => simp [report]
  | ended e =>
    rw [answer_ended]
    split
    case isTrue h => simp [h]
    case isFalse h => simp [h, eq_comm]

theorem answer_eq_ok_iff :
    (course.report program script).answer = .ok output ↔
      ∃ e, course = .ended e ∧ e.status = some 0 ∧
        output = String.ofList (Utf8.decodeLossy e.stdout) := by
  cases course with
  | unwritten cause' => simp [report]
  | unstarted cause' => simp [report]
  | ended e =>
    rw [answer_ended]
    split
    case isTrue h => simp [h, eq_comm]
    case isFalse h => simp [h]

end Answers

end Course

namespace Host

variable {m : Type → Type} [Monad m]

/-- How far a run gets behind the making of its file. -/
def fileCourse (host : Host m) (program path script : String) : m Course := do
  match ← host.writeFile path (Utf8.encode script.toList) with
  | .error cause => return .unwritten cause
  | .ok () =>
    match ← host.launch program path with
    | .error cause => return .unstarted cause
    | .ok e => return .ended e

/-- How far a run gets. -/
def course (host : Host m) (program directory script : String) : m Course := do
  match ← host.createFile directory with
  | .error cause => return .unwritten cause
  | .ok path =>
    let course ← host.fileCourse program path script
    host.removeFile path
    return course

variable [LawfulMonad m]

theorem runFile_eq (host : Host m) (program path script : String) :
    host.runFile program path script =
      Course.report program script <$> host.fileCourse program path script := by
  rw [runFile, fileCourse, map_bind]
  refine bind_congr fun written => ?_
  cases written with
  | error cause => simp only [map_pure, Course.report]
  | ok =>
    simp only [map_bind]
    refine bind_congr fun launched => ?_
    cases launched with
    | error cause => simp only [map_pure, Course.report]
    | ok e => simp only [map_pure, Course.report]

/-- A run reports on its course and on nothing else. -/
theorem run_runner (host : Host m) (program directory script : String) :
    (host.runner program directory).run script =
      Course.report program script <$> host.course program directory script := by
  rw [course, map_bind]
  refine bind_congr fun created => ?_
  cases created with
  | error cause => simp only [map_pure, Course.report]
  | ok path =>
    simp only [runFile_eq, bind_pure_comp, bind_map_left, map_bind, Functor.map_map]

end Host

end PlainNotes

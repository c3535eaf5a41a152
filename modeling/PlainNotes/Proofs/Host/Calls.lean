import PlainNotes.Proofs.Host.Course

/-!
# What a run asks of its host

A host with a state can note what it is asked, each request with its answer and with the states of
the system before and after it.  A run then takes one of three ways, and noting it changes nothing.

* `recording`: the same host, which notes its requests.
* `Passage`: the ways of a run; `exists_passage` says that these are all.
* `Passage.run_course`, `Passage.run_recording`: the run without notes and with them.
* `Passage.countP_isLaunch_le`, `Passage.no_launch_iff`, `Passage.unwritten_iff`,
  `Passage.unstarted_iff`, `Passage.ended_iff`: what the requests tell.
-/

namespace PlainNotes

/-- How far a run gets whose program was to be started with this outcome. -/
def Course.ofLaunch : Except String Ended → Course
  | .error cause => .unstarted cause
  | .ok e => .ended e

namespace Host

variable {σ α β : Type}

/-- A request to a host, with the answer. -/
inductive Call
  | create (directory : String) (answer : Except String String)
  | write (path : String) (bytes : List UInt8) (answer : Except String Unit)
  | launch (program argument : String) (answer : Except String Ended)
  | remove (path : String)

namespace Call

def isLaunch : Call → Bool
  | launch .. => true
  | _ => false

/-- Why a file could not be made or not be filled. -/
def writeCause? : Call → Option String
  | create _ (.error cause) => some cause
  | write _ _ (.error cause) => some cause
  | _ => none

end Call

/-- A request, and the states of the system before and after it. -/
structure Step (σ : Type) where
  call : Call
  before : σ
  after : σ

/-- What is asked is done, and noted. -/
def noted (call : α → Call) (x : StateM σ α) : StateT (List (Step σ)) (StateM σ) α := do
  let before ← getThe σ
  let answer ← x
  let after ← getThe σ
  modify (· ++ [⟨call answer, before, after⟩])
  return answer

/-- The same host, which notes its requests in order. -/
def recording (host : Host (StateM σ)) : Host (StateT (List (Step σ)) (StateM σ)) where
  createFile directory := noted (.create directory) (host.createFile directory)
  writeFile path bytes := noted (.write path bytes) (host.writeFile path bytes)
  launch program argument := noted (.launch program argument) (host.launch program argument)
  removeFile path := noted (fun _ => .remove path) (host.removeFile path)

/-! ## Runs with notes -/

theorem run_bind_of_run {x : StateM σ α} {s s' : σ} {a : α} (h : x.run s = (a, s'))
    (f : α → StateM σ β) : (x >>= f).run s = (f a).run s' := by
  rw [StateT.run_bind, h]
  rfl

theorem run_get_bind (f : σ → StateM σ α) (s : σ) : (get >>= f).run s = (f s).run s := rfl

theorem run_bind_of_noting {x : StateT (List (Step σ)) (StateM σ) α} {steps steps' : List (Step σ)}
    {s s' : σ} {a : α} (h : (x.run steps).run s = ((a, steps'), s'))
    (f : α → StateT (List (Step σ)) (StateM σ) β) :
    ((x >>= f).run steps).run s = ((f a).run steps').run s' := by
  rw [StateT.run_bind, run_bind_of_run h]

theorem run_noted {x : StateM σ α} {s s' : σ} {a : α} (h : x.run s = (a, s')) (call : α → Call)
    (steps : List (Step σ)) :
    ((noted call x).run steps).run s = ((a, steps ++ [⟨call a, s, s'⟩]), s') := by
  calc ((noted call x).run steps).run s
      = (((x.run s).1, steps ++ [⟨call (x.run s).1, s, (x.run s).2⟩]), (x.run s).2) := rfl
    _ = ((a, steps ++ [⟨call a, s, s'⟩]), s') := by rw [h]

section Recording

variable {host : Host (StateM σ)} {directory program path : String} {bytes : List UInt8} {s s' : σ}
  {steps : List (Step σ)}

theorem recording_createFile {a : Except String String}
    (h : (host.createFile directory).run s = (a, s')) :
    ((host.recording.createFile directory).run steps).run s =
      ((a, steps ++ [⟨.create directory a, s, s'⟩]), s') :=
  run_noted h _ _

theorem recording_writeFile {a : Except String Unit}
    (h : (host.writeFile path bytes).run s = (a, s')) :
    ((host.recording.writeFile path bytes).run steps).run s =
      ((a, steps ++ [⟨.write path bytes a, s, s'⟩]), s') :=
  run_noted h _ _

theorem recording_launch {a : Except String Ended} (h : (host.launch program path).run s = (a, s')) :
    ((host.recording.launch program path).run steps).run s =
      ((a, steps ++ [⟨.launch program path a, s, s'⟩]), s') :=
  run_noted h _ _

theorem recording_removeFile (h : (host.removeFile path).run s = ((), s')) :
    ((host.recording.removeFile path).run steps).run s =
      (((), steps ++ [⟨.remove path, s, s'⟩]), s') :=
  run_noted h _ _

end Recording

/-! ## The ways of a run -/

/-- The ways of a run from a state of the system on: how far it gets, what it asks for in order, and
the state at its end. -/
inductive Passage (host : Host (StateM σ)) (program directory script : String) (s : σ) :
    Course → List (Step σ) → σ → Prop
  | uncreated {cause : String} {s' : σ}
    (hcreate : (host.createFile directory).run s = (.error cause, s')) :
    Passage host program directory script s (.unwritten cause)
      [⟨.create directory (.error cause), s, s'⟩] s'
  | unwritten {path cause : String} {s₁ s₂ s' : σ}
    (hcreate : (host.createFile directory).run s = (.ok path, s₁))
    (hwrite : (host.writeFile path (Utf8.encode script.toList)).run s₁ = (.error cause, s₂))
    (hremove : (host.removeFile path).run s₂ = ((), s')) :
    Passage host program directory script s (.unwritten cause)
      [⟨.create directory (.ok path), s, s₁⟩,
        ⟨.write path (Utf8.encode script.toList) (.error cause), s₁, s₂⟩,
        ⟨.remove path, s₂, s'⟩] s'
  | launched {path : String} {answer : Except String Ended} {s₁ s₂ s₃ s' : σ}
    (hcreate : (host.createFile directory).run s = (.ok path, s₁))
    (hwrite : (host.writeFile path (Utf8.encode script.toList)).run s₁ = (.ok (), s₂))
    (hlaunch : (host.launch program path).run s₂ = (answer, s₃))
    (hremove : (host.removeFile path).run s₃ = ((), s')) :
    Passage host program directory script s (.ofLaunch answer)
      [⟨.create directory (.ok path), s, s₁⟩,
        ⟨.write path (Utf8.encode script.toList) (.ok ()), s₁, s₂⟩,
        ⟨.launch program path answer, s₂, s₃⟩, ⟨.remove path, s₃, s'⟩] s'

variable {host : Host (StateM σ)} {program directory script : String} {s s' : σ} {course : Course}
  {steps : List (Step σ)}

theorem exists_passage (host : Host (StateM σ)) (program directory script : String) (s : σ) :
    ∃ course steps s', Passage host program directory script s course steps s' := by
  cases hcreate : (host.createFile directory).run s with | mk created s₁ =>
  cases created with
  | error cause => exact ⟨_, _, _, .uncreated hcreate⟩
  | ok path =>
    cases hwrite : (host.writeFile path (Utf8.encode script.toList)).run s₁ with | mk written s₂ =>
    cases written with
    | error cause =>
      cases hremove : (host.removeFile path).run s₂
      exact ⟨_, _, _, .unwritten hcreate hwrite hremove⟩
    | ok =>
      cases hlaunch : (host.launch program path).run s₂ with | mk answer s₃ =>
      cases hremove : (host.removeFile path).run s₃
      exact ⟨_, _, _, .launched hcreate hwrite hlaunch hremove⟩

theorem Passage.run_course (h : Passage host program directory script s course steps s') :
    (host.course program directory script).run s = (course, s') := by
  cases h with
  | uncreated hcreate =>
    rw [Host.course, run_bind_of_run hcreate]
    rfl
  | @unwritten path cause s₁ s₂ _ hcreate hwrite hremove =>
    have hfile : (host.fileCourse program path script).run s₁ = (.unwritten cause, s₂) := by
      rw [fileCourse, run_bind_of_run hwrite]
      rfl
    rw [Host.course, run_bind_of_run hcreate]
    dsimp only
    rw [run_bind_of_run hfile, run_bind_of_run hremove]
    rfl
  | @launched path answer s₁ s₂ s₃ _ hcreate hwrite hlaunch hremove =>
    have hfile : (host.fileCourse program path script).run s₁ = (.ofLaunch answer, s₃) := by
      rw [fileCourse, run_bind_of_run hwrite]
      dsimp only
      rw [run_bind_of_run hlaunch]
      cases answer <;> rfl
    rw [Host.course, run_bind_of_run hcreate]
    dsimp only
    rw [run_bind_of_run hfile, run_bind_of_run hremove]
    rfl

/-- The same run with notes: the requests of its way, in order. -/
theorem Passage.run_recording (h : Passage host program directory script s course steps s') :
    ((host.recording.course program directory script).run []).run s = ((course, steps), s') := by
  cases h with
  | uncreated hcreate =>
    rw [Host.course, run_bind_of_noting (recording_createFile hcreate)]
    rfl
  | @unwritten path cause s₁ s₂ _ hcreate hwrite hremove =>
    have hfile : ((host.recording.fileCourse program path script).run
        [⟨.create directory (.ok path), s, s₁⟩]).run s₁ = ((.unwritten cause,
          [⟨.create directory (.ok path), s, s₁⟩,
            ⟨.write path (Utf8.encode script.toList) (.error cause), s₁, s₂⟩]), s₂) := by
      rw [fileCourse, run_bind_of_noting (recording_writeFile hwrite)]
      rfl
    rw [Host.course, run_bind_of_noting (recording_createFile hcreate)]
    dsimp only [List.nil_append]
    rw [run_bind_of_noting hfile, run_bind_of_noting (recording_removeFile hremove)]
    rfl
  | @launched path answer s₁ s₂ s₃ _ hcreate hwrite hlaunch hremove =>
    have hfile : ((host.recording.fileCourse program path script).run
        [⟨.create directory (.ok path), s, s₁⟩]).run s₁ = ((.ofLaunch answer,
          [⟨.create directory (.ok path), s, s₁⟩,
            ⟨.write path (Utf8.encode script.toList) (.ok ()), s₁, s₂⟩,
            ⟨.launch program path answer, s₂, s₃⟩]), s₃) := by
      rw [fileCourse, run_bind_of_noting (recording_writeFile hwrite)]
      dsimp only
      rw [run_bind_of_noting (recording_launch hlaunch)]
      cases answer <;> rfl
    rw [Host.course, run_bind_of_noting (recording_createFile hcreate)]
    dsimp only [List.nil_append]
    rw [run_bind_of_noting hfile, run_bind_of_noting (recording_removeFile hremove)]
    rfl

/-! ## What the requests tell -/

theorem Passage.countP_isLaunch_le (h : Passage host program directory script s course steps s') :
    (steps.countP fun step => step.call.isLaunch) ≤ 1 := by
  cases h <;> simp [Call.isLaunch]

/-- No program is started just if there is no file for it. -/
theorem Passage.no_launch_iff (h : Passage host program directory script s course steps s') :
    (∀ step ∈ steps, step.call.isLaunch = false) ↔ ∃ cause, course = .unwritten cause := by
  cases h with
  | uncreated => simp [Call.isLaunch]
  | unwritten => simp [Call.isLaunch]
  | @launched _ answer => cases answer <;> simp [Call.isLaunch, Course.ofLaunch]

theorem Passage.unwritten_iff (h : Passage host program directory script s course steps s')
    {cause : String} :
    course = .unwritten cause ↔ ∃ step ∈ steps, step.call.writeCause? = some cause := by
  cases h with
  | uncreated => simp [Call.writeCause?]
  | unwritten => simp [Call.writeCause?]
  | @launched _ answer => cases answer <;> simp [Call.writeCause?, Course.ofLaunch]

theorem Passage.unstarted_iff (h : Passage host program directory script s course steps s')
    {cause : String} :
    course = .unstarted cause ↔
      ∃ step ∈ steps, ∃ argument, step.call = .launch program argument (.error cause) := by
  cases h with
  | uncreated => simp
  | unwritten => simp
  | @launched _ answer => cases answer <;> simp [Course.ofLaunch]

theorem Passage.ended_iff (h : Passage host program directory script s course steps s') {e : Ended} :
    course = .ended e ↔
      ∃ step ∈ steps, ∃ argument, step.call = .launch program argument (.ok e) := by
  cases h with
  | uncreated => simp
  | unwritten => simp
  | @launched _ answer => cases answer <;> simp [Course.ofLaunch]

end Host

end PlainNotes

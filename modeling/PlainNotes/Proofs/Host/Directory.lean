import PlainNotes.Proofs.Files.Entry
import PlainNotes.Proofs.Host.Calls

/-!
# The directory of scripts

What a runner relies on where it makes, fills and takes away the file of a script, and what its run
then does to the directory of the file.  Programs may do to the directory what they like.

* `Keeps`: a host that keeps a directory.
* `Passage.entry_of_launch`: the directory when the program starts, and what is left of it in the end.
* `Passage.entry_of_no_launch`: without a start, the directory is as it was.
* `Copies`, `Passage.ended_of_copies`: a program that copies its file.
-/

namespace PlainNotes.Host

open Files

variable {σ : Type}

/-- What stands in a directory, by name. -/
abbrev Entries := Name → Option Node

/-- The entries when a file is taken away.  A directory that has its name stays. -/
def Entries.without (entries : Entries) (name : Name) : Entries :=
  if entries name = some .directory then entries else Function.update entries name none

theorem Entries.without_file {entries : Entries} {name : Name} {bytes : List UInt8}
    (h : entries name = some (.file bytes)) :
    entries.without name = Function.update entries name none :=
  if_neg (by simp [h])

/-- The name of a file that was taken away belongs to no file. -/
theorem Entries.without_ne_file (entries : Entries) (name : Name) (bytes : List UInt8) :
    entries.without name name ≠ some (.file bytes) := by
  rw [without]
  split
  case isTrue h => simp [h]
  case isFalse => simp

/-- A host keeps a directory if files are made under new names there, hold what they are filled with,
and are gone when they are taken away, and if nothing else happens to it on these occasions. `path`
says what the host calls an entry, and `entry` what stands in the directory. -/
structure Keeps (host : Host (StateM σ)) (directory : String) (path : Name → String)
    (entry : σ → Entries) : Prop where
  created {s s' : σ} {p : String} (h : (host.createFile directory).run s = (.ok p, s')) :
    ∃ name, p = path name ∧ entry s name = none ∧
      entry s' = Function.update (entry s) name (some (.file []))
  uncreated {s s' : σ} {cause : String} (h : (host.createFile directory).run s = (.error cause, s')) :
    entry s' = entry s
  written {s s' : σ} {name : Name} {old bytes : List UInt8} (hold : entry s name = some (.file old))
    (h : (host.writeFile (path name) bytes).run s = (.ok (), s')) :
    entry s' = Function.update (entry s) name (some (.file bytes))
  /-- Some of the bytes may have been written. -/
  unwritten {s s' : σ} {name : Name} {old bytes : List UInt8} {cause : String}
    (hold : entry s name = some (.file old))
    (h : (host.writeFile (path name) bytes).run s = (.error cause, s')) :
    ∃ left, entry s' = Function.update (entry s) name (some (.file left))
  removed {s s' : σ} {name : Name} (h : (host.removeFile (path name)).run s = ((), s')) :
    entry s' = (entry s).without name

/-- The program copies its file to its output. -/
def Copies (host : Host (StateM σ)) (program : String) (path : Name → String) (entry : σ → Entries) :
    Prop :=
  ∀ s name bytes, entry s name = some (.file bytes) →
    ∃ e s', (host.launch program (path name)).run s = (.ok e, s') ∧ e.status = some 0 ∧ e.stdout = bytes

variable {host : Host (StateM σ)} {program directory script : String} {path : Name → String}
  {entry : σ → Entries} {s s₁ s₂ s' : σ} {course : Course} {steps : List (Step σ)}

/-- A new file that was filled is all that is new. -/
theorem Keeps.filled (hkeeps : host.Keeps directory path entry) {p : String} {bytes : List UInt8}
    (hcreate : (host.createFile directory).run s = (.ok p, s₁))
    (hwrite : (host.writeFile p bytes).run s₁ = (.ok (), s₂)) :
    ∃ name, p = path name ∧ entry s name = none ∧
      entry s₂ = Function.update (entry s) name (some (.file bytes)) := by
  obtain ⟨name, rfl, hnew, hmade⟩ := hkeeps.created hcreate
  have hempty : entry s₁ name = some (.file []) := by rw [hmade, Function.update_self]
  refine ⟨name, rfl, hnew, ?_⟩
  rw [hkeeps.written hempty hwrite, hmade, Function.update_idem]

/-- A new file that is taken away leaves the entries as they were. -/
theorem without_update_of_new {entries : Entries} {name : Name} (hnew : entries name = none)
    (bytes : List UInt8) :
    Entries.without (Function.update entries name (some (.file bytes))) name = entries := by
  rw [Entries.without_file (Function.update_self ..), Function.update_idem, ← hnew,
    Function.update_eq_self]

/-- **When the program starts,** its file holds the script and all else is as it was; in the end all
is as the program left it, without the file. -/
theorem Passage.entry_of_launch (hkeeps : host.Keeps directory path entry)
    (h : Passage host program directory script s course steps s') {step : Step σ} (hstep : step ∈ steps)
    (hlaunch : step.call.isLaunch = true) :
    ∃ name answer, step.call = .launch program (path name) answer ∧ entry s name = none ∧
      entry step.before =
        Function.update (entry s) name (some (.file (Utf8.encode script.toList))) ∧
      entry s' = (entry step.after).without name := by
  cases h with
  | uncreated =>
    obtain rfl := List.mem_singleton.1 hstep
    cases hlaunch
  | unwritten =>
    simp only [List.mem_cons, List.not_mem_nil, or_false] at hstep
    rcases hstep with rfl | rfl | rfl
    all_goals cases hlaunch
  | launched hcreate hwrite hstart hremove =>
    obtain ⟨name, rfl, hnew, hfilled⟩ := hkeeps.filled hcreate hwrite
    simp only [List.mem_cons, List.not_mem_nil, or_false] at hstep
    rcases hstep with rfl | rfl | rfl | rfl
    · cases hlaunch
    · cases hlaunch
    · exact ⟨name, _, rfl, hnew, hfilled, hkeeps.removed hremove⟩
    · cases hlaunch

/-- A run that starts no program leaves the directory as it was. -/
theorem Passage.entry_of_no_launch (hkeeps : host.Keeps directory path entry)
    (h : Passage host program directory script s course steps s')
    (hnone : ∀ step ∈ steps, step.call.isLaunch = false) : entry s' = entry s := by
  cases h with
  | uncreated hcreate => exact hkeeps.uncreated hcreate
  | @unwritten _ _ s₁ _ _ hcreate hwrite hremove =>
    obtain ⟨name, rfl, hnew, hmade⟩ := hkeeps.created hcreate
    have hempty : entry s₁ name = some (.file []) := by rw [hmade, Function.update_self]
    obtain ⟨left, hleft⟩ := hkeeps.unwritten hempty hwrite
    rw [hkeeps.removed hremove, hleft, hmade, Function.update_idem, without_update_of_new hnew]
  | launched =>
    have hlaunch := hnone _ (List.mem_cons_of_mem _ (List.mem_cons_of_mem _ List.mem_cons_self))
    cases hlaunch

/-- A program that does nothing to the directory leaves it as it was before the run. -/
theorem Passage.entry_of_idle (hkeeps : host.Keeps directory path entry)
    (h : Passage host program directory script s course steps s')
    (hidle : ∀ step ∈ steps, step.call.isLaunch = true → entry step.after = entry step.before) :
    entry s' = entry s := by
  by_cases hlaunch : ∃ step ∈ steps, step.call.isLaunch = true
  · obtain ⟨step, hstep, hcall⟩ := hlaunch
    obtain ⟨name, -, -, hnew, hbefore, hafter⟩ := h.entry_of_launch hkeeps hstep hcall
    rw [hafter, hidle step hstep hcall, hbefore, without_update_of_new hnew]
  · refine h.entry_of_no_launch hkeeps fun step hstep => ?_
    rw [Bool.eq_false_iff]
    exact fun hcall => hlaunch ⟨step, hstep, hcall⟩

/-- A program that copies its file ends well, with the script as its output. -/
theorem Passage.ended_of_copies (hkeeps : host.Keeps directory path entry)
    (hcopies : host.Copies program path entry)
    (h : Passage host program directory script s course steps s')
    (hwritten : ∀ cause, course ≠ .unwritten cause) :
    ∃ e, course = .ended e ∧ e.status = some 0 ∧ e.stdout = Utf8.encode script.toList := by
  cases h with
  | uncreated => exact absurd rfl (hwritten _)
  | unwritten => exact absurd rfl (hwritten _)
  | launched hcreate hwrite hstart =>
    obtain ⟨name, rfl, -, hfilled⟩ := hkeeps.filled hcreate hwrite
    obtain ⟨e, s₃, hcopy, hstatus, hstdout⟩ :=
      hcopies _ name (Utf8.encode script.toList) (by rw [hfilled, Function.update_self])
    obtain ⟨rfl, -⟩ := Prod.mk.inj (hstart.symm.trans hcopy)
    exact ⟨e, rfl, hstatus, hstdout⟩

end PlainNotes.Host

import PlainNotes.Logging

/-!
# Settings of the log

What the settings of a call to start logging ask for, and why they can be refused whatever is active.

* `Names`, `Asks`: the level and the directory that are asked for; `readSettings_of_asks`.
* `Refused`: the faults of settings, the level first; `readSettings_of_refused`.
* `asks_or_refused`: there is nothing else.
-/

namespace PlainNotes.Logging

open Text Files

/-- The text names the level.  Blanks around it and its case do not count, and one level has two
names. -/
def Names (text : String) (level : Level) : Prop :=
  plainLevel text = level.name ∨ plainLevel text = "warning" ∧ level = .warn

theorem find?_name_eq_some_iff {name : String} {level : Level} :
    (Level.all.find? fun l => l.name == name) = some level ↔ name = level.name := by
  constructor
  · intro h
    have hname := List.find?_some h
    exact (beq_iff_eq.1 hname).symm
  · rintro rfl
    cases level <;> rfl

theorem readLevel_eq_ok_iff {text : String} {level : Level} :
    readLevel text = .ok level ↔ Names text level := by
  rw [readLevel, Names]
  by_cases hwarning : plainLevel text = "warning"
  · have hname : plainLevel text ≠ level.name := by
      rw [hwarning]
      cases level <;> decide
    simp only [hwarning, if_true, Except.ok.injEq, true_and]
    rw [hwarning] at hname
    exact ⟨fun h => Or.inr h.symm, fun h => (h.resolve_left hname).symm⟩
  · simp only [hwarning, if_false, false_and, or_false, ← find?_name_eq_some_iff]
    cases Level.all.find? fun l => l.name == plainLevel text <;> simp

theorem readLevel_eq_error_iff {text : String} {fault : Fault} :
    readLevel text = .error fault ↔
      (∀ level, ¬ Names text level) ∧ fault = .unsupportedLevel (plainLevel text) := by
  simp only [← readLevel_eq_ok_iff]
  rw [readLevel]
  by_cases hwarning : plainLevel text = "warning"
  · simp [hwarning]
  · simp only [hwarning, if_false]
    cases Level.all.find? fun l => l.name == plainLevel text with
    | some level => simp
    | none => simp [eq_comm]

/-- The settings ask for this level, in this directory. -/
structure Asks (settings : Config.Log) (wanted : Active) : Prop where
  names : Names settings.level wanted.level
  absolute : isAbsolute settings.directory = true
  directory : settings.directory = wanted.directory

/-- Why settings are refused, whatever is active.  The level is looked at first. -/
inductive Refused (settings : Config.Log) : Fault → Prop
  | level (h : ∀ level, ¬ Names settings.level level) :
    Refused settings (.unsupportedLevel (plainLevel settings.level))
  | empty {level : Level} (h : Names settings.level level) (hempty : settings.directory = "") :
    Refused settings .emptyDirectory
  | relative {level : Level} (h : Names settings.level level) (hne : settings.directory ≠ "")
    (hrelative : isAbsolute settings.directory = false) :
    Refused settings (.relativeDirectory settings.directory)

variable {settings : Config.Log} {wanted : Active} {fault : Fault}

theorem readSettings_of_asks (h : Asks settings wanted) : readSettings settings = .ok wanted := by
  have hlevel := readLevel_eq_ok_iff.2 h.names
  have hne : settings.directory ≠ "" := by
    intro hempty
    have habsolute := h.absolute
    rw [hempty] at habsolute
    cases habsolute
  rw [readSettings, hlevel, readDirectory, if_neg hne, h.absolute, h.directory]
  rfl

theorem readSettings_of_refused (h : Refused settings fault) :
    readSettings settings = .error fault := by
  cases h with
  | level h =>
    rw [readSettings, readLevel_eq_error_iff.2 ⟨h, rfl⟩]
    rfl
  | empty h hempty =>
    rw [readSettings, readLevel_eq_ok_iff.2 h, readDirectory, if_pos hempty]
    rfl
  | relative h hne hrelative =>
    rw [readSettings, readLevel_eq_ok_iff.2 h, readDirectory, if_neg hne, hrelative]
    rfl

/-- Settings either ask for something or are refused. -/
theorem asks_or_refused (settings : Config.Log) :
    (∃ wanted, Asks settings wanted) ∨ ∃ fault, Refused settings fault := by
  cases hlevel : readLevel settings.level with
  | error fault => exact Or.inr ⟨_, .level (readLevel_eq_error_iff.1 hlevel).1⟩
  | ok level =>
    have hnames := readLevel_eq_ok_iff.1 hlevel
    by_cases hempty : settings.directory = ""
    · exact Or.inr ⟨_, .empty hnames hempty⟩
    · by_cases habsolute : isAbsolute settings.directory = true
      · exact Or.inl ⟨⟨level, settings.directory⟩, hnames, habsolute, rfl⟩
      · exact Or.inr ⟨_, .relative hnames hempty (Bool.eq_false_iff.2 habsolute)⟩

/-- What is active agrees with itself, so that a call which starts logging succeeds. -/
theorem Active.agree_refl (active : Active) : active.agree active = .ok () := by
  rw [Active.agree, samePath_refl]
  simp

end PlainNotes.Logging

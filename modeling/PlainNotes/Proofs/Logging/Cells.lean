import PlainNotes.Logging

/-!
# Crashes and the cells of a process

What a crash leaves in the log is up to the hooks that are installed, and these are up to starts of
logging. The cells of a process are in one of two states: either nothing was started, or all that a
start leaves is there.

* `summary_sanitize`: what is noted of the message of a crash.
* `Hook.call_eq_note`: a crash is noted once for each noting hook.
* `Cells.Coherent`: the logger, the mark and the hook that go with what is active;
  `Coherent.eq_idle_or_started` for the two states.
-/

namespace PlainNotes.Logging

/-! ## Crashes -/

theorem ne_break_of_mem_flat {c : Char} {s : List Char} (hc : c ∈ flat s) :
    c ≠ '\n' ∧ c ≠ '\r' := by
  obtain ⟨d, -, rfl⟩ := List.mem_map.1 hc
  by_cases hbreak : (d = '\n' || d = '\r') = true
  · rw [if_pos hbreak]
    decide
  · rw [if_neg hbreak]
    simpa using hbreak

theorem flat_eq_self {s : List Char} (hline : '\n' ∉ s) (hreturn : '\r' ∉ s) : flat s = s := by
  rw [flat]
  refine (List.map_congr_left fun c hc => if_neg ?_).trans (List.map_id s)
  simp only [Bool.or_eq_true, decide_eq_true_eq, not_or]
  exact ⟨fun h => hline (h ▸ hc), fun h => hreturn (h ▸ hc)⟩

theorem length_flat (s : List Char) : (flat s).length = s.length :=
  List.length_map _

theorem sanitize_of_le {limit : Nat} {s : List Char} (h : s.length ≤ limit) :
    sanitize limit s = flat s := by
  have hle : (flat s).length ≤ limit := length_flat s ▸ h
  rw [sanitize, if_neg (Nat.not_lt.2 hle), List.append_nil, List.take_of_length_le hle]

theorem sanitize_of_lt {limit : Nat} {s : List Char} (h : limit < s.length) :
    sanitize limit s = (flat s).take limit ++ ['.', '.', '.'] := by
  rw [sanitize, length_flat, if_pos h]

/-- What is noted of a message: it stays in one line, and what is too long is cut off. -/
structure Summary (limit : Nat) (message s : List Char) : Prop where
  lineFree : '\n' ∉ s
  returnFree : '\r' ∉ s
  length_le : s.length ≤ limit + 3
  short : message.length ≤ limit → '\n' ∉ message → '\r' ∉ message → s = message
  long : limit < message.length → ∃ front, s = front ++ ['.', '.', '.'] ∧ front.length = limit

theorem summary_sanitize (limit : Nat) (message : List Char) :
    Summary limit message (sanitize limit message) := by
  rcases Nat.lt_or_ge limit message.length with hlong | hshort
  · rw [sanitize_of_lt hlong]
    have hfront : ((flat message).take limit).length = limit := by
      rw [List.length_take, length_flat, Nat.min_eq_left (Nat.le_of_lt hlong)]
    have hmem : ∀ c ∈ (flat message).take limit ++ ['.', '.', '.'], c ≠ '\n' ∧ c ≠ '\r' := by
      intro c hc
      rcases List.mem_append.1 hc with hc | hc
      · exact ne_break_of_mem_flat (List.mem_of_mem_take hc)
      · obtain rfl : c = '.' := by simpa using hc
        decide
    refine ⟨fun h => (hmem _ h).1 rfl, fun h => (hmem _ h).2 rfl, ?_, ?_, fun _ => ⟨_, rfl, hfront⟩⟩
    · rw [List.length_append, hfront]
      exact Nat.le_refl _
    · intro hshort
      omega
  · rw [sanitize_of_le hshort]
    refine ⟨fun h => (ne_break_of_mem_flat h).1 rfl, fun h => (ne_break_of_mem_flat h).2 rfl, ?_,
      fun _ => flat_eq_self, ?_⟩
    · rw [length_flat]
      omega
    · intro hlong
      omega

/-- A crash is noted at every level. -/
theorem kept_crashCaught (active : Active) (location payload : String) :
    active.kept [.crashCaught location payload] = [.crashCaught location payload] := by
  cases active with
  | mk level directory => cases level <;> rfl

/-! ## Hooks and cells -/

/-- How many hooks note a crash. -/
def Hook.noters : Hook → Nat
  | .standard => 0
  | .noting previous => previous.noters + 1

theorem written_append (logger : Option Active) (events events' : List Event) :
    written logger (events ++ events') = written logger events ++ written logger events' := by
  cases logger with
  | none => rfl
  | some active => exact List.filter_append events events'

namespace Cells

@[simp] theorem note_nil (cells : Cells) : cells.note [] = cells := by
  cases cells with
  | mk active logger hooked hook log => cases logger <;> simp [note, written, Active.kept]

theorem note_note (cells : Cells) (events events' : List Event) :
    (cells.note events).note events' = cells.note (events ++ events') := by
  simp only [note, written_append, List.append_assoc]

/-- The mark keeps a second noting hook away. -/
theorem installHook_installHook (cells : Cells) :
    cells.installHook.installHook = cells.installHook := by
  unfold installHook
  by_cases hhooked : cells.hooked = true
  · rw [if_pos hhooked, if_pos hhooked]
  · rw [if_neg hhooked, if_pos rfl]

end Cells

/-- Every noting hook of the chain notes the crash once, and nothing else happens. -/
theorem Hook.call_eq_note (location : String) (payload : Option String) (hook : Hook)
    (cells : Cells) : hook.call location payload cells =
      cells.note (List.replicate hook.noters (.crashCaught location (crashText payload))) := by
  induction hook generalizing cells with
  | standard => rw [call, noters, List.replicate_zero, Cells.note_nil]
  | noting previous ih =>
    rw [call, ih, Cells.note_note, noters, List.replicate_succ, List.singleton_append]

namespace Cells

/-- What is left by a start that succeeded: events are taken, and one noting hook stands before the
hook that the process began with. -/
def started (active : Active) (log : List Event) : Cells :=
  ⟨some active, some active, true, .noting .standard, log⟩

/-- The cells agree with one another: everything is there if logging is active, and nothing
otherwise. -/
structure Coherent (cells : Cells) : Prop where
  logger : cells.logger = cells.active
  hooked : cells.hooked = cells.active.isSome
  hook : cells.hook = if cells.active.isSome then .noting .standard else .standard
  log : cells.active = none → cells.log = []

theorem coherent_idle : Coherent {} :=
  ⟨rfl, rfl, rfl, fun _ => rfl⟩

theorem coherent_started (active : Active) (log : List Event) : Coherent (started active log) :=
  ⟨rfl, rfl, rfl, fun h => nomatch h⟩

theorem Coherent.eq_idle_or_started {cells : Cells} (h : Coherent cells) :
    cells = {} ∨ ∃ active log, cells = started active log := by
  obtain ⟨active, logger, hooked, hook, log⟩ := cells
  obtain ⟨hlogger, hhooked, hhook, hlog⟩ := h
  cases active with
  | none =>
    obtain rfl : log = [] := hlog rfl
    simp_all
  | some active => exact Or.inr ⟨active, log, by simp_all [started]⟩

@[simp] theorem note_idle (events : List Event) : note {} events = {} := rfl

@[simp] theorem note_started (active : Active) (log events : List Event) :
    (started active log).note events = started active (log ++ active.kept events) := rfl

@[simp] theorem crash_idle (location : String) (payload : Option String) :
    crash {} location payload = {} := rfl

@[simp] theorem crash_started (active : Active) (log : List Event) (location : String)
    (payload : Option String) : (started active log).crash location payload =
      started active (log ++ [.crashCaught location (crashText payload)]) := by
  rw [crash, Hook.call_eq_note]
  exact congrArg (fun events => started active (log ++ events)) (kept_crashCaught active _ _)

theorem Coherent.eq_started {cells : Cells} (h : Coherent cells) {active : Active}
    (hactive : cells.active = some active) : cells = started active cells.log := by
  obtain rfl | ⟨active', log, rfl⟩ := h.eq_idle_or_started
  · cases hactive
  · obtain rfl : active' = active := Option.some.inj hactive
    rfl

/-- A crash is noted once if logging is active, and else not at all. -/
theorem Coherent.crash_log {cells : Cells} (h : Coherent cells) (location : String)
    (payload : Option String) : (cells.crash location payload).log =
      cells.log ++
        if cells.active.isSome then [.crashCaught location (crashText payload)] else [] := by
  obtain rfl | ⟨active, log, rfl⟩ := h.eq_idle_or_started
  · rfl
  · rw [crash_started]
    rfl

end Cells

end PlainNotes.Logging

import PlainNotes.Event

/-!
# Lines of the log

What is written of an event is one line: it consists of ASCII characters that show, if the texts
that the event holds do.

* `shown_append`, `shown_intercalate`, `shown_natText`: the pieces of a line.
* `Event.texts`: the texts that an event holds.
* `Event.shown_line`: the line of an event, by one case for each kind of event.
-/

namespace PlainNotes

open Text

/-- An ASCII character that shows, or a space. -/
def isShown (c : Char) : Bool :=
  Nat.ble 0x20 c.toNat && Nat.ble c.toNat 0x7e

/-- A text of ASCII characters that show, without line breaks or other controls. -/
def Shown (s : String) : Prop :=
  s.toList.all isShown = true

instance (s : String) : Decidable (Shown s) :=
  inferInstanceAs (Decidable (s.toList.all isShown = true))

variable {s t : String}

theorem shown_append : Shown (s ++ t) ↔ Shown s ∧ Shown t := by
  simp only [Shown, String.toList_append, List.all_append, Bool.and_eq_true]

theorem not_mem_of_shown (h : Shown s) : '\n' ∉ s.toList ∧ '\r' ∉ s.toList :=
  ⟨fun hc => absurd (List.all_eq_true.1 h _ hc) (by decide),
    fun hc => absurd (List.all_eq_true.1 h _ hc) (by decide)⟩

theorem shown_intercalate {texts : List String} (hs : Shown s) (h : ∀ t ∈ texts, Shown t) :
    Shown (s.intercalate texts) := by
  induction texts with
  | nil => simp [Shown]
  | cons text texts ih =>
    have htext := h text (by simp)
    cases texts with
    | nil => simpa using htext
    | cons next texts =>
      have hrest := ih fun t ht => h t (List.mem_cons_of_mem text ht)
      rw [String.intercalate_cons_cons, shown_append, shown_append]
      exact ⟨⟨htext, hs⟩, hrest⟩

theorem shown_natText (n : Nat) : Shown (natText n) := by
  refine List.all_eq_true.2 fun c hc => ?_
  rw [natText, String.toList_ofList] at hc
  have hdigit : c.isDigit = true := Nat.isDigit_of_mem_toDigits (by decide) (by decide) hc
  simp only [Char.isDigit, Bool.and_eq_true, decide_eq_true_eq] at hdigit
  have hlow : 0x20 ≤ c.toNat := Nat.le_trans (by decide) hdigit.1
  have hhigh : c.toNat ≤ 0x7e := Nat.le_trans hdigit.2 (by decide)
  simp [isShown, hlow, hhigh]

theorem shown_intText (i : Int) : Shown (intText i) := by
  rw [intText]
  split
  · exact shown_append.2 ⟨by decide, shown_natText _⟩
  · exact shown_natText _

namespace Event

theorem shown_statusText (status : Option Int) : Shown (statusText status) := by
  cases status with
  | none => decide
  | some i => exact shown_append.2 ⟨shown_append.2 ⟨by decide, shown_intText i⟩, by decide⟩

theorem shown_familyName (f : Family) : Shown f.name := by
  cases f <;> decide

theorem shown_actionName (a : Action) : Shown a.name := by
  cases a <;> decide

theorem shown_levelName (l : Level) : Shown l.name := by
  cases l <;> decide

theorem shown_target (e : Event) : Shown e.target := by
  cases e <;> simp +decide only [target]

/-- The texts that an event holds beside counts and names of the library's own. -/
def texts : Event → List String
  | intentRejected _ fault => [fault.message]
  | requestDone id .. | requestUnrecognized id _ => [id]
  | requestFailed id _ faultKind => [id, faultKind]
  | appStarted component => [component]
  | loggingStarted _ directory => [directory]
  | crashCaught location payload => [location, payload]
  | intentParsed .. | intentUnmatched _ | scriptDone .. | scriptFailed .. | bodyInvalid _ => []

theorem shown_fields {e : Event} (h : ∀ t ∈ e.texts, Shown t) :
    ∀ f ∈ e.fields, Shown f.1 ∧ Shown f.2 := by
  -- What a field holds is fixed, a number, a name of the library's own, or one of the texts.
  cases e <;>
    simp_all +decide [texts, fields, shown_natText, shown_statusText, shown_familyName,
      shown_actionName, shown_levelName]

theorem shown_line {e : Event} (h : ∀ t ∈ e.texts, Shown t) : Shown e.line := by
  have hmessage : Shown e.message := by
    refine shown_intercalate (by decide) ?_
    intro t ht
    obtain ⟨f, hf, rfl⟩ := List.mem_map.1 ht
    obtain ⟨hname, hvalue⟩ := shown_fields h f hf
    exact shown_append.2 ⟨shown_append.2 ⟨hname, by decide⟩, hvalue⟩
  have hlabel : Shown e.level.label := by cases e.level <;> decide
  rw [line]
  simp only [shown_append]
  exact ⟨⟨⟨⟨hlabel, by decide⟩, shown_target e⟩, by decide⟩, hmessage⟩

end Event

end PlainNotes

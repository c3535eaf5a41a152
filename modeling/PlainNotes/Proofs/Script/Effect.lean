import PlainNotes.Proofs.Script.Meaning

/-!
# What the scripts of commands do

* `exec_eachNote_first`, `exec_eachNote_none`: a loop that looks for a name stops at the first note
  of that name, or passes over all notes.
* `perform_script`: the script of each action does to the notes what the action means.
-/

namespace PlainNotes.Script

open Statement Outcome

variable {app : Application} {σ τ : State} {before after : List Note} {n : Note}

attribute [local simp] exec

@[simp] theorem execAll_nil : execAll app [] σ = finished σ := by
  rw [execAll]

theorem execAll_cons (s : Statement) (ss : List Statement) :
    execAll app (s :: ss) σ = (exec app s σ).andThen (execAll app ss) := by
  rw [execAll]

@[simp] theorem execAll_singleton (s : Statement) : execAll app [s] σ = exec app s σ := by
  rw [execAll_cons]
  cases exec app s σ <;> simp [andThen]

/-! ## Filling a note -/

theorem modify_at (f : Note → Note) :
    (before ++ n :: after).modify before.length f = before ++ f n :: after := by
  rw [List.modify_eq_take_cons_drop (by simp)]
  simp

theorem addParagraph_at (hnotes : σ.notes = before ++ n :: after) (text : String) :
    σ.addParagraph before.length text = finished { σ with
      notes := before ++ { n with paragraphs := n.paragraphs ++ [text] } :: after } := by
  simp [State.addParagraph, hnotes, modify_at]

/-- Lines that append one paragraph each to the same note append all their texts. -/
theorem execAll_items {line : String → Statement}
    (hline : ∀ t notes, exec app (line t) { σ with notes } =
      { σ with notes }.addParagraph before.length t)
    (items : List String) (hnotes : σ.notes = before ++ n :: after) :
    execAll app (items.map line) σ = finished { σ with
      notes := before ++ { n with paragraphs := n.paragraphs ++ items } :: after } := by
  induction items generalizing σ n with
  | nil => simp [← hnotes]
  | cons t items ih =>
    have hfirst := (hline t σ.notes).trans (addParagraph_at hnotes t)
    have hrest := ih (σ := { σ with
      notes := before ++ { n with paragraphs := n.paragraphs ++ [t] } :: after }) hline rfl
    simp only [List.append_assoc, List.singleton_append] at hrest
    rw [List.map_cons, execAll_cons, hfirst, andThen_finished]
    exact hrest

theorem execAll_fillNote (hnew : σ.newNote = some before.length)
    (hnotes : σ.notes = before ++ n :: after) (items : List String) :
    execAll app (items.map fillNote) σ = finished { σ with
      notes := before ++ { n with paragraphs := n.paragraphs ++ items } :: after } :=
  execAll_items (fun t notes => by rw [exec]; simp only [hnew]) items hnotes

theorem execAll_append (app : Application) (htarget : σ.target = .note before.length)
    (hnotes : σ.notes = before ++ n :: after) (items : List String) :
    execAll app (items.map append) σ = finished { σ with
      notes := before ++ { n with paragraphs := n.paragraphs ++ items } :: after } :=
  execAll_items (fun t notes => by rw [exec]; simp only [htarget]) items hnotes

/-- Making a note and filling it adds one note, wherever the application puts new notes. -/
theorem execAll_createNote (htarget : σ.target = .application) (title : String)
    (items : List String) :
    execAll app (createNote title items) σ = finished { σ with
      notes := app.added ⟨title, items⟩ σ.notes
      newNote := some (σ.notes.take (app.place σ.notes)).length } := by
  obtain ⟨τ, hτ⟩ : ∃ τ : State, τ = { σ with
      notes := app.added ⟨title, []⟩ σ.notes
      newNote := some (σ.notes.take (app.place σ.notes)).length } := ⟨_, rfl⟩
  have hmake : exec app (makeNote title) σ = finished τ := by
    rw [exec, hτ]
    simp only [htarget]
  have hnew : τ.newNote = some (σ.notes.take (app.place σ.notes)).length := by rw [hτ]
  have hnotes : τ.notes = app.added ⟨title, []⟩ σ.notes := by rw [hτ]
  rw [createNote, execAll_cons, hmake, andThen_finished, execAll_fillNote hnew hnotes, hτ]
  rfl

/-! ## Going through the notes -/

theorem each_append (f : State → Outcome) (is js : List Nat) (σ : State) :
    each f (is ++ js) σ = (each f is σ).andThen (each f js) := by
  induction is generalizing σ with
  | nil => rfl
  | cons i is ih =>
    rw [List.cons_append, each, each, andThen_assoc]
    exact congrArg _ (funext ih)

theorem exec_eachNote (htarget : σ.target = .application) (body : List Statement) :
    exec app (eachNote body) σ =
      (each (execAll app body) (List.range σ.notes.length) σ).endLoop := by
  rw [exec]
  simp only [htarget]

/-- A loop whose body does nothing at any position does nothing but go through them. -/
theorem each_pass {f : State → Outcome} {is : List Nat}
    (h : ∀ i ∈ is, f { σ with theNote := some i } = finished { σ with theNote := some i }) :
    ∃ j, each f is σ = finished { σ with theNote := j } := by
  induction is generalizing σ with
  | nil => exact ⟨σ.theNote, rfl⟩
  | cons i is ih =>
    rw [each, h i (by simp), andThen_finished]
    exact ih (σ := { σ with theNote := some i }) fun k hk => h k (List.mem_cons_of_mem i hk)

theorem exec_ifNamed {i : Nat} (hi : σ.notes[i]? = some n) (name : String)
    (body : List Statement) :
    exec app (ifNamed name body) { σ with theNote := some i } =
      if app.named n.name name then execAll app body { σ with theNote := some i }
      else finished { σ with theNote := some i } := by
  rw [exec]
  simp [State.current?, hi]

/-- Notes of other names are passed over. -/
theorem each_ifNamed_pass {name : String} {k : Nat} (hk : k ≤ σ.notes.length)
    (h : ∀ m ∈ σ.notes.take k, app.named m.name name = false) (body : List Statement) :
    ∃ j, each (execAll app [ifNamed name body]) (List.range k) σ =
      finished { σ with theNote := j } := by
  refine each_pass fun i hi => ?_
  have hik : i < k := List.mem_range.1 hi
  have hget : σ.notes[i]? = some σ.notes[i] := List.getElem?_eq_getElem (by omega)
  have hmem : σ.notes[i] ∈ σ.notes.take k := List.mem_take_iff_getElem.2 ⟨i, by omega, rfl⟩
  rw [execAll_singleton, exec_ifNamed hget, h _ hmem]
  rfl

/-- A loop that looks for a name does its work at the first note of that name, if this leaves the
loop. -/
theorem exec_eachNote_first {name : String} {body : List Statement}
    (htarget : σ.target = .application) (hnotes : σ.notes = before ++ n :: after)
    (hbefore : ∀ m ∈ before, app.named m.name name = false) (hn : app.named n.name name = true)
    (hbody : execAll app body { σ with theNote := some before.length } = left τ) :
    exec app (eachNote [ifNamed name body]) σ = finished τ := by
  have hget : σ.notes[before.length]? = some n := by simp [hnotes]
  have hrange : List.range σ.notes.length =
      List.range before.length ++
        before.length :: List.range' (before.length + 1) after.length := by
    simp [hnotes, List.range_eq_range', ← List.range'_append, List.range'_succ]
  obtain ⟨j, hpass⟩ := each_ifNamed_pass (σ := σ) (k := before.length) (by simp [hnotes])
    (by simpa [hnotes] using hbefore) body
  have hat : execAll app [ifNamed name body] { σ with theNote := some before.length } = left τ := by
    rw [execAll_singleton, exec_ifNamed hget, if_pos hn, hbody]
  rw [exec_eachNote htarget, hrange, each_append, hpass, andThen_finished, each]
  simp only [hat, andThen_left, endLoop]

/-- A loop that looks for a name does nothing if no note is of that name. -/
theorem exec_eachNote_none {name : String} (body : List Statement)
    (htarget : σ.target = .application) (h : ∀ m ∈ σ.notes, app.named m.name name = false) :
    ∃ j, exec app (eachNote [ifNamed name body]) σ = finished { σ with theNote := j } := by
  obtain ⟨j, hpass⟩ := each_ifNamed_pass (Nat.le_refl σ.notes.length)
    (by rwa [List.take_length]) body
  refine ⟨j, ?_⟩
  rw [exec_eachNote htarget, hpass, endLoop]
  simp

/-- A loop that keeps names keeps those that contain a text, in order. -/
theorem each_keepName (app : Application) (part : String) (after : List Note)
    {before : List Note} {names : List String}
    (hnotes : σ.notes = before ++ after) (hnames : σ.matchingNotes = some names) :
    ∃ j, each (execAll app [ifNameContains part [keepName]])
        (List.range' before.length after.length) σ =
      finished { σ with
        theNote := j
        matchingNotes :=
          some (names ++ (after.filter fun n => app.contains n.name part).map Note.name) } := by
  induction after generalizing σ before names with
  | nil => exact ⟨σ.theNote, by simp [each, ← hnames]⟩
  | cons n after ih =>
    have hget : σ.notes[before.length]? = some n := by simp [hnotes]
    obtain ⟨kept, hkept⟩ : ∃ kept, kept = if app.contains n.name part then [n.name] else [] :=
      ⟨_, rfl⟩
    have hstep : execAll app [ifNameContains part [keepName]]
        { σ with theNote := some before.length } = finished { σ with
          theNote := some before.length
          matchingNotes := some (names ++ kept) } := by
      rw [execAll_singleton, exec]
      by_cases hpart : app.contains n.name part = true
      · simp [State.current?, hget, hpart, hnames, hkept]
      · simp [State.current?, hget, hpart, ← hnames, hkept]
    have hrest : σ.notes = (before ++ [n]) ++ after := by simp [hnotes]
    obtain ⟨j, hj⟩ := ih (σ := { σ with
        theNote := some before.length
        matchingNotes := some (names ++ kept) }) hrest rfl
    refine ⟨j, ?_⟩
    rw [List.length_cons, List.range'_succ, each, hstep, andThen_finished]
    rw [List.length_append, List.length_singleton] at hj
    rw [hj, hkept]
    by_cases hpart : app.contains n.name part = true <;> simp [hpart]

/-! ## Commands -/

theorem mem_of_mem_embedded {action : Action} {title t : String} {items : List String}
    (h : t ∈ embedded action title items) : t ∈ title :: items := by
  cases action with
  | create => exact h
  | update =>
    rcases List.mem_append.1 h with h | h
    · exact h
    · exact h
  | delete | search => exact List.mem_cons.2 (Or.inl (List.mem_singleton.1 h))

/-- What the application is told decides what a script does. -/
theorem perform_command (app : Application) {c : Command}
    (h : ∀ t ∈ c.title :: c.content, '\\' ∉ t.toList) (notes : List Note) :
    perform app c.script notes =
      (execAll app (body c.action c.title c.content) { notes, target := .application }).answer := by
  rw [Command.script, perform_text app fun t ht => h t (mem_of_mem_embedded ht), statements,
    execAll_singleton, exec]
  cases execAll app (body c.action c.title c.content) { notes, target := .application } <;> rfl

section

variable {title : String} {items : List String}

theorem exec_setFound (value : Bool) :
    exec app (setFound value) σ = finished { σ with noteFound := some value } := by
  rw [exec]

theorem exec_tellNote {i : Nat} (hat : σ.theNote = some i) (body : List Statement) :
    exec app (tellNote body) σ =
      (execAll app body { σ with target := .note i }).after
        fun τ => { τ with target := σ.target } := by
  rw [exec]
  simp only [hat]

/-- What is done to the first note of the name, before the loop is left. -/
theorem execAll_appendItems (app : Application) (items : List String)
    (hnotes : σ.notes = before ++ n :: after) (hat : σ.theNote = some before.length) :
    execAll app [setFound true, tellNote (items.map append), exitLoop] σ = left { σ with
      notes := before ++ { n with paragraphs := n.paragraphs ++ items } :: after
      noteFound := some true } := by
  have htell : exec app (tellNote (items.map append)) { σ with noteFound := some true } =
      finished { σ with
        notes := before ++ { n with paragraphs := n.paragraphs ++ items } :: after
        noteFound := some true } := by
    have hitems := execAll_append app
      (σ := { σ with noteFound := some true, target := .note before.length }) rfl hnotes items
    rw [exec_tellNote (σ := { σ with noteFound := some true }) hat, hitems]
    rfl
  rw [execAll_cons, exec_setFound, andThen_finished, execAll_cons, htell, andThen_finished,
    execAll_singleton, exec]

theorem execAll_deleteTheNote (app : Application) (hnotes : σ.notes = before ++ n :: after)
    (hat : σ.theNote = some before.length) :
    execAll app [setFound true, Statement.deleteNote, exitLoop] σ = left { σ with
      notes := before ++ after
      noteFound := some true } := by
  have hdelete : exec app .deleteNote { σ with noteFound := some true } =
      finished { σ with notes := before ++ after, noteFound := some true } := by
    rw [exec]
    simp [hat, hnotes, List.eraseIdx_append]
  rw [execAll_cons, exec_setFound, andThen_finished, execAll_cons, hdelete, andThen_finished,
    execAll_singleton, exec]

theorem answer_createNote (htarget : σ.target = .application) :
    (execAll app (createNote title items) σ).answer =
      some (app.added ⟨title, items⟩ σ.notes, none) := by
  rw [execAll_createNote htarget]
  rfl

theorem answer_updateNote_first (htarget : σ.target = .application)
    (hnotes : σ.notes = before ++ n :: after)
    (hbefore : ∀ m ∈ before, app.named m.name title = false)
    (hn : app.named n.name title = true) :
    (execAll app (updateNote title items) σ).answer =
      some (before ++ { n with paragraphs := n.paragraphs ++ items } :: after, none) := by
  have hloop := exec_eachNote_first (σ := { σ with noteFound := some false }) htarget hnotes hbefore
    hn (execAll_appendItems app items hnotes rfl)
  rw [updateNote, execAll_cons, exec_setFound, andThen_finished, execAll_cons, hloop,
    andThen_finished, execAll_singleton, exec]
  rfl

theorem answer_updateNote_none (htarget : σ.target = .application)
    (h : ∀ m ∈ σ.notes, app.named m.name title = false) :
    (execAll app (updateNote title items) σ).answer =
      some (app.added ⟨title, items⟩ σ.notes, none) := by
  obtain ⟨j, hloop⟩ := exec_eachNote_none (σ := { σ with noteFound := some false })
    [setFound true, tellNote (items.map append), exitLoop] htarget h
  rw [updateNote, execAll_cons, exec_setFound, andThen_finished, execAll_cons, hloop,
    andThen_finished, execAll_singleton, exec]
  exact answer_createNote (σ := { σ with noteFound := some false, theNote := j }) htarget

theorem answer_deleteNote_first (htarget : σ.target = .application)
    (hnotes : σ.notes = before ++ n :: after)
    (hbefore : ∀ m ∈ before, app.named m.name title = false)
    (hn : app.named n.name title = true) :
    (execAll app (deleteNote title) σ).answer = some (before ++ after, none) := by
  have hloop := exec_eachNote_first (σ := { σ with noteFound := some false }) htarget hnotes hbefore
    hn (execAll_deleteTheNote app hnotes rfl)
  rw [Script.deleteNote, execAll_cons, exec_setFound, andThen_finished, execAll_singleton, hloop]
  rfl

theorem answer_deleteNote_none (htarget : σ.target = .application)
    (h : ∀ m ∈ σ.notes, app.named m.name title = false) :
    (execAll app (deleteNote title) σ).answer = some (σ.notes, none) := by
  obtain ⟨j, hloop⟩ := exec_eachNote_none (σ := { σ with noteFound := some false })
    [setFound true, Statement.deleteNote, exitLoop] htarget h
  rw [Script.deleteNote, execAll_cons, exec_setFound, andThen_finished, execAll_singleton, hloop]
  rfl

theorem answer_searchNotes (htarget : σ.target = .application) :
    (execAll app (searchNotes title) σ).answer = some (σ.notes,
      some ((σ.notes.filter fun n => app.contains n.name title).map Note.name)) := by
  have hstart : exec app startNames σ = finished { σ with matchingNotes := some [] } := by
    rw [exec]
  obtain ⟨j, hloop⟩ := each_keepName app title
    (σ := { σ with matchingNotes := some [] }) σ.notes (List.nil_append _).symm rfl
  rw [List.length_nil, ← List.range_eq_range'] at hloop
  rw [searchNotes, execAll_cons, hstart, andThen_finished, execAll_cons,
    exec_eachNote (σ := { σ with matchingNotes := some [] }) htarget, hloop, endLoop,
    andThen_finished, execAll_singleton, exec]
  · rfl
  · simp

end

/-- **What the script of a command does.**  Let no text of the command hold a backslash.  Its script
makes one note of the title with the items as paragraphs, for `create`; appends the items to the
first note of the title, or else does what `create` does, for `update`; removes the first note of
the title, if there is one, for `delete`; and leaves the notes alone and ends with the names that
contain the title, for `search`. -/
theorem perform_script (app : Application) (c : Command)
    (h : ∀ t ∈ c.title :: c.content, '\\' ∉ t.toList) (notes : List Note) :
    match c.action with
    | .create => ∃ before after, notes = before ++ after ∧
        perform app c.script notes = some (before ++ ⟨c.title, c.content⟩ :: after, none)
    | .update =>
      (∀ before n after, notes = before ++ n :: after →
        (∀ m ∈ before, app.named m.name c.title = false) → app.named n.name c.title = true →
        perform app c.script notes =
          some (before ++ { n with paragraphs := n.paragraphs ++ c.content } :: after, none)) ∧
      ((∀ n ∈ notes, app.named n.name c.title = false) →
        perform app c.script notes = perform app { c with action := .create }.script notes)
    | .delete =>
      (∀ before n after, notes = before ++ n :: after →
        (∀ m ∈ before, app.named m.name c.title = false) → app.named n.name c.title = true →
        perform app c.script notes = some (before ++ after, none)) ∧
      ((∀ n ∈ notes, app.named n.name c.title = false) →
        perform app c.script notes = some (notes, none))
    | .search => perform app c.script notes = some (notes,
        some ((notes.filter fun n => app.contains n.name c.title).map Note.name)) := by
  have hperform := perform_command app h notes
  cases haction : c.action with
  | create =>
    rw [haction] at hperform
    refine ⟨notes.take (app.place notes), notes.drop (app.place notes), by simp, ?_⟩
    rw [hperform, body, answer_createNote rfl, Application.added]
  | update =>
    rw [haction] at hperform
    constructor
    · intro before n after hnotes hbefore hn
      rw [hperform, body, answer_updateNote_first rfl hnotes hbefore hn]
    · intro hnone
      have hcreate := perform_command app (c := { c with action := .create }) h notes
      rw [hperform, body, answer_updateNote_none rfl hnone]
      exact (hcreate.trans (answer_createNote rfl)).symm
  | delete =>
    rw [haction] at hperform
    constructor
    · intro before n after hnotes hbefore hn
      rw [hperform, body, answer_deleteNote_first rfl hnotes hbefore hn]
    · intro hnone
      rw [hperform, body, answer_deleteNote_none rfl hnone]
  | search =>
    rw [haction] at hperform
    rw [hperform, body, answer_searchNotes rfl]

/-- Of two notes with one name, which holds quotes, the first gets the items. -/
theorem perform_script_quoted_update :
    perform ⟨(· == ·), (· == ·), fun _ => 0⟩
      (Command.script ⟨.update, "The \"List\"", ["milk", "\"fresh\" eggs"], none, by decide⟩)
      [⟨"Ideas", []⟩, ⟨"The \"List\"", ["tea"]⟩, ⟨"The \"List\"", []⟩] =
    some ([⟨"Ideas", []⟩, ⟨"The \"List\"", ["tea", "milk", "\"fresh\" eggs"]⟩,
      ⟨"The \"List\"", []⟩], none) :=
  (perform_script ⟨(· == ·), (· == ·), fun _ => 0⟩
    ⟨.update, "The \"List\"", ["milk", "\"fresh\" eggs"], none, by decide⟩ (by decide)
    [⟨"Ideas", []⟩, ⟨"The \"List\"", ["tea"]⟩, ⟨"The \"List\"", []⟩]).1
      [⟨"Ideas", []⟩] ⟨"The \"List\"", ["tea"]⟩ [⟨"The \"List\"", []⟩] rfl (by decide) (by decide)

end PlainNotes.Script

import PlainNotes.Proofs.Command.Written

/-!
# Commands over the wire

Commands and drafts come back from their JSON form, from the value as well as from its text, and a
value is a command exactly if it is a draft that passes the checks.

* `validate_eq_ok_iff`: which drafts pass, and what they become.
* `draftForm_toJson`: the form of a draft has the form of one.
* `decoded_ofJson`: what becomes of a value that is read as a command.
* `command_wire`: all of it together.
-/

namespace PlainNotes

open Json

variable {value : Json} {d : Draft} {c : Command}

/-! ## Checks -/

/-- The names of actions in data. -/
def actionNames : List String :=
  ["create", "update", "delete", "search"]

theorem ofName?_eq_some_iff {name : String} {a : Action} :
    Action.ofName? name = some a ↔ a.name = name := by
  constructor
  · exact Action.name_of_ofName?
  · rintro rfl
    exact Action.ofName?_name a

theorem mem_actionNames_iff {name : String} : name ∈ actionNames ↔ ∃ a : Action, a.name = name := by
  have hall : actionNames = Action.all.map Action.name := rfl
  rw [hall, List.mem_map]
  constructor
  · rintro ⟨a, -, ha⟩
    exact ⟨a, ha⟩
  · rintro ⟨a, ha⟩
    exact ⟨a, a.mem_all, ha⟩

theorem ofName?_eq_none_iff {name : String} :
    Action.ofName? name = none ↔ name ∉ actionNames := by
  rw [mem_actionNames_iff, Option.eq_none_iff_forall_ne_some]
  simp only [ne_eq, ofName?_eq_some_iff, not_exists]

/-- A command holds what a draft says, with no items where the draft says nothing of them. -/
structure Draft.Makes (d : Draft) (c : Command) : Prop where
  action : c.action.name = d.action
  title : c.title = d.title
  content : c.content = d.content.getD []
  folder : c.folder = d.folder

theorem validate_eq_ok_iff :
    d.validate = .ok c ↔ d.action ∈ actionNames ∧ d.title ≠ "" ∧ d.Makes c := by
  rw [Draft.validate]
  constructor
  · intro h
    split at h
    case h_1 => cases h
    case h_2 a ha =>
      split at h
      case isTrue => cases h
      case isFalse htitle =>
        obtain rfl := Except.ok.inj h
        have hname := ofName?_eq_some_iff.1 ha
        exact ⟨mem_actionNames_iff.2 ⟨a, hname⟩, htitle, ⟨hname, rfl, rfl, rfl⟩⟩
  · rintro ⟨-, htitle, haction, htitle', hcontent, hfolder⟩
    rw [ofName?_eq_some_iff.2 haction]
    cases c
    subst htitle' hcontent hfolder
    simp [htitle]

theorem check_of_error {fault : DraftFault} (h : d.validate = .error fault) :
    d.check = .error (.draft fault) := by
  rw [Draft.check, h]
  rfl

theorem check_eq_ok_iff : d.check = .ok c ↔ d.validate = .ok c := by
  cases h : d.validate with
  | error fault => simp [check_of_error h]
  | ok c' =>
    have hcheck : d.check = .ok c' := by
      rw [Draft.check, h]
      rfl
    rw [hcheck, Except.ok.injEq, Except.ok.injEq]

/-! ## Reading a command -/

/-- What becomes of a value that is read as a command: its shape is looked at first, then its action
and then its title. -/
inductive Decoded (value : Json) : Except DataFault Command → Prop
  | misshapen {fault : ShapeFault} (hfault : Draft.ofJson value = .error fault) :
      Decoded value (.error (.shape fault))
  | unknownAction {d : Draft} (hd : Draft.ofJson value = .ok d) (haction : d.action ∉ actionNames) :
      Decoded value (.error (.draft (.unknownAction d.action)))
  | emptyTitle {d : Draft} (hd : Draft.ofJson value = .ok d) (haction : d.action ∈ actionNames)
      (htitle : d.title = "") : Decoded value (.error (.draft .emptyTitle))
  | valid {d : Draft} {c : Command} (hd : Draft.ofJson value = .ok d)
      (haction : d.action ∈ actionNames) (htitle : d.title ≠ "") (hc : d.Makes c) :
      Decoded value (.ok c)

theorem decoded_ofJson (value : Json) : Decoded value (Command.ofJson value) := by
  rw [Command.ofJson]
  cases hd : Draft.ofJson value with
  | error fault => exact .misshapen hd
  | ok d =>
    show Decoded value d.check
    cases ha : Action.ofName? d.action with
    | none =>
      have hvalid : d.validate = .error (.unknownAction d.action) := by
        rw [Draft.validate, ha]
      rw [check_of_error hvalid]
      exact .unknownAction hd (ofName?_eq_none_iff.1 ha)
    | some a =>
      have haction : d.action ∈ actionNames :=
        mem_actionNames_iff.2 ⟨a, ofName?_eq_some_iff.1 ha⟩
      by_cases htitle : d.title = ""
      · have hvalid : d.validate = .error .emptyTitle := by
          rw [Draft.validate, ha]
          simp [htitle]
        rw [check_of_error hvalid]
        exact .emptyTitle hd haction htitle
      · have hmakes : d.Makes ⟨a, d.title, d.content.getD [], d.folder, htitle⟩ :=
          ⟨ofName?_eq_some_iff.1 ha, rfl, rfl, rfl⟩
        rw [check_eq_ok_iff.2 (validate_eq_ok_iff.2 ⟨haction, htitle, hmakes⟩)]
        exact .valid hd haction htitle hmakes

theorem command_ofJson_eq_ok_iff :
    Command.ofJson value = .ok c ↔ ∃ d, Draft.ofJson value = .ok d ∧ d.validate = .ok c := by
  rw [Command.ofJson]
  cases hd : Draft.ofJson value with
  | error fault => simp
  | ok d => simp [check_eq_ok_iff]

/-! ## Coming back -/

theorem optionally_map {α : Type} (form : α → Json) (x : Option α) :
    Optionally form (x.map form) x := by
  cases x with
  | none => exact .missing
  | some x => exact .given x

theorem field?_toJson (d : Draft) :
    d.toJson.field? "action" = some (.str d.action) ∧
    d.toJson.field? "title" = some (.str d.title) ∧
    d.toJson.field? "content" = d.content.map Json.strings ∧
    d.toJson.field? "folder" = d.folder.map Json.str := by
  obtain ⟨action, title, content, folder⟩ := d
  cases content <;> cases folder <;> exact ⟨rfl, rfl, rfl, rfl⟩

/-- The form of a draft has the form of one, with no field for what is absent. -/
theorem draftForm_toJson (d : Draft) : DraftForm d.toJson d := by
  obtain ⟨haction, htitle, hcontent, hfolder⟩ := field?_toJson d
  have hcontent : Optionally Json.strings (d.toJson.field? "content") d.content := by
    rw [hcontent]
    exact optionally_map Json.strings d.content
  have hfolder : Optionally Json.str (d.toJson.field? "folder") d.folder := by
    rw [hfolder]
    exact optionally_map Json.str d.folder
  exact .object haction htitle hcontent hfolder

theorem draft_ofJson_toJson (d : Draft) : Draft.ofJson d.toJson = .ok d :=
  draft_ofJson_eq_ok_iff.2 (draftForm_toJson d)

theorem draft_ofText_toJson (d : Draft) : Draft.ofText d.toJson.render = .ok d := by
  refine draft_ofText_render ?_ ?_ (draft_ofJson_toJson d)
  all_goals
    obtain ⟨action, title, content, folder⟩ := d
    cases content <;> cases folder <;>
      simp [optionalField, ShapedReader.fieldNames]

/-- A command is written as the draft that says all of it. -/
theorem toJson_toDraft (c : Command) : c.toDraft.toJson = c.toJson := rfl

theorem command_ofJson_toJson (c : Command) : Command.ofJson c.toJson = .ok c := by
  rw [← toJson_toDraft]
  exact command_ofJson_eq_ok_iff.2 ⟨c.toDraft, draft_ofJson_toJson c.toDraft, c.validate_toDraft⟩

theorem command_ofText_toJson (c : Command) : Command.ofText c.toJson.render = .ok c := by
  rw [← toJson_toDraft]
  exact command_ofText_eq_ok_iff.2 ⟨c.toDraft, draft_ofText_toJson c.toDraft, c.validate_toDraft⟩

/-- A reading of commands is not changed by writing what was read and reading it again. -/
theorem read_again {ε : Type} {again : Command → Except ε Command} (h : ∀ c, again c = .ok c)
    (read : Except ε Command) : read >>= again = read := by
  cases read with
  | error e => rfl
  | ok c => exact h c

/-- Commands and drafts over the wire, as values and as texts.

Commands and drafts come back from what is written for them, drafts without fields for what is
absent. The drafts among the values are objects and lists with the right parts; the commands are the
drafts with a known action and a title, and anything else is refused for its shape, its action or
its title, in this order. So what was read once is read the same from what is written for it. -/
theorem command_wire :
    (∀ c : Command, Command.ofJson c.toJson = .ok c ∧ Command.ofText c.toJson.render = .ok c) ∧
    (∀ d : Draft, Draft.ofJson d.toJson = .ok d ∧ Draft.ofText d.toJson.render = .ok d ∧
      d.toJson.field? "content" = d.content.map Json.strings ∧
      d.toJson.field? "folder" = d.folder.map Json.str) ∧
    (∀ value d, Draft.ofJson value = .ok d ↔ DraftForm value d) ∧
    (∀ value c, Command.ofJson value = .ok c ↔
      ∃ d, Draft.ofJson value = .ok d ∧ d.action ∈ actionNames ∧ d.title ≠ "" ∧ d.Makes c) ∧
    (∀ value, Decoded value (Command.ofJson value)) ∧
    (∀ text c, Command.ofText text = .ok c ↔
      ∃ d, Draft.ofText text = .ok d ∧ d.action ∈ actionNames ∧ d.title ≠ "" ∧ d.Makes c) ∧
    (∀ value, (Command.ofJson value >>= fun c => Command.ofJson c.toJson) = Command.ofJson value) ∧
    (∀ text, (Command.ofText text >>= fun c => Command.ofText c.toJson.render) =
      Command.ofText text) := by
  refine ⟨?coming_back, ?drafts, ?forms, ?commands, decoded_ofJson, ?texts, ?again, ?again_text⟩
  case coming_back => exact fun c => ⟨command_ofJson_toJson c, command_ofText_toJson c⟩
  case drafts =>
    intro d
    obtain ⟨-, -, hcontent, hfolder⟩ := field?_toJson d
    exact ⟨draft_ofJson_toJson d, draft_ofText_toJson d, hcontent, hfolder⟩
  case forms => exact fun value d => draft_ofJson_eq_ok_iff
  case commands =>
    intro value c
    simp only [command_ofJson_eq_ok_iff, validate_eq_ok_iff]
  case texts =>
    intro text c
    simp only [command_ofText_eq_ok_iff, validate_eq_ok_iff]
  case again => exact fun value => read_again command_ofJson_toJson (Command.ofJson value)
  case again_text => exact fun text => read_again command_ofText_toJson (Command.ofText text)

end PlainNotes

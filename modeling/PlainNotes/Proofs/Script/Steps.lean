import PlainNotes.Script.Statement

/-!
# Where lines stand

A builder carries its level along, raises it in front of a body and lowers it behind.  Here the level
of a line is said by the place of the line in the tree of steps: it is the number of the blocks around
it, on top of the level at which the steps begin.

* `Builder.steps?_eq`: a builder that refuses to go below its lowest level never refuses.
* `mem_emittedAll_iff`: every line stands at the level of its step.
* `Within.exists_split`: the lines of a step stand together.
* `written_by_level`: what steps write, and what this says about blocks and about scripts.
-/

namespace PlainNotes.Script

variable {depth level : Nat} {s : Step} {ss xs ys : List Step} {l : Nat × String}

/-! ## The lowest level -/

namespace Builder

/-- One level back, if there is one. -/
def back? (b : Builder) : Option Builder :=
  if b.depth = 0 then none else some b.back

mutual

/-- Carries out a step and fails where the level would go below the lowest. -/
def step? (b : Builder) : Step → Option Builder
  | .line text => some (b.line text)
  | .lines texts => some (b.lines texts)
  | .block opening closing body => do
    let inside ← steps? (b.line opening).deeper body
    return (← inside.back?).line closing

def steps? (b : Builder) : List Step → Option Builder
  | [] => some b
  | s :: ss => do steps? (← step? b s) ss

end

theorem depth_steps (b : Builder) (ss : List Step) : (b.steps ss).depth = b.depth := by
  rw [steps_eq]

/-- Behind a body the level is that of the body, which has the level of its block below it. -/
theorem back?_steps_deeper (b : Builder) (body : List Step) :
    (b.deeper.steps body).back? = some (b.deeper.steps body).back := by
  refine if_neg ?_
  rw [depth_steps]
  exact Nat.succ_ne_zero b.depth

mutual

theorem step?_eq (b : Builder) (s : Step) : b.step? s = some (b.step s) := by
  match s with
  | .line text => rw [step?, step]
  | .lines texts => rw [step?, step]
  | .block opening closing body =>
    rw [step?, steps?_eq, Option.bind_eq_bind, Option.bind_some, back?_steps_deeper, step]
    rfl

/-- **The level never goes below the lowest**, wherever the steps begin. -/
theorem steps?_eq (b : Builder) (ss : List Step) : b.steps? ss = some (b.steps ss) := by
  match ss with
  | [] => rw [steps?, steps]
  | s :: ss =>
    rw [steps?, step?_eq, Option.bind_eq_bind, Option.bind_some, steps?_eq, steps]

end

theorem steps_append (b : Builder) (xs ys : List Step) :
    b.steps (xs ++ ys) = (b.steps xs).steps ys := by
  induction xs generalizing b with
  | nil => rfl
  | cons s xs ih => exact ih (b.step s)

end Builder

/-! ## The white space of a level -/

theorem toList_indent (depth : Nat) : (indent depth).toList = List.replicate (4 * depth) ' ' := by
  induction depth with
  | zero => rfl
  | succ depth ih =>
    rw [indent, String.toList_append, ih, Nat.mul_succ, Nat.add_comm,
      ← List.replicate_append_replicate]
    rfl

theorem lineAt_eq (depth : Nat) (text : String) :
    lineAt depth text = String.ofList (List.replicate (4 * depth) ' ') ++ text ++ "\n" := by
  rw [lineAt, ← toList_indent, String.ofList_toList]

/-! ## Places in a tree -/

/-- The step stands inside of so many blocks. -/
inductive Within : Nat → Step → List Step → Prop
  | top {s : Step} {ss : List Step} (h : s ∈ ss) : Within 0 s ss
  | inside {depth : Nat} {s : Step} {opening closing : String} {body ss : List Step}
      (h : .block opening closing body ∈ ss) (hs : Within depth s body) : Within (depth + 1) s ss

/-- The lines of a step that are not those of its body. -/
def Step.own : Step → List String
  | .line text => [text]
  | .lines texts => texts
  | .block opening closing _ => [opening, closing]

theorem Within.mono (h : Within depth s xs) (hsub : xs ⊆ ys) : Within depth s ys := by
  cases h with
  | top h => exact .top (hsub h)
  | inside h hs => exact .inside (hsub h) hs

theorem emittedAll_eq (level : Nat) (ss : List Step) :
    Step.emittedAll level ss = ss.flatMap (Step.emitted level) := by
  induction ss with
  | nil => rfl
  | cons s ss ih => rw [Step.emittedAll, ih, List.flatMap_cons]

theorem exists_split_of_mem (h : s ∈ ss) (level : Nat) :
    ∃ before after, Step.emittedAll level ss = before ++ s.emitted level ++ after := by
  obtain ⟨front, back, rfl⟩ := List.append_of_mem h
  refine ⟨Step.emittedAll level front, Step.emittedAll level back, ?_⟩
  simp only [emittedAll_eq, List.flatMap_append, List.flatMap_cons, List.append_assoc]

/-- **The lines of a step stand together**, at the level that its place says. -/
theorem Within.exists_split (h : Within depth s ss) (level : Nat) :
    ∃ before after, Step.emittedAll level ss = before ++ s.emitted (level + depth) ++ after := by
  induction h generalizing level with
  | top h => exact exists_split_of_mem h level
  | @inside depth s opening closing body ss h hs ih =>
    obtain ⟨before, after, hbody⟩ := ih (level + 1)
    obtain ⟨front, back, hss⟩ := exists_split_of_mem h level
    refine ⟨front ++ (level, opening) :: before, after ++ (level, closing) :: back, ?_⟩
    rw [hss, Step.emitted, hbody, Nat.add_assoc, Nat.add_comm 1 depth]
    simp

theorem mem_emitted_of_own {text : String} (h : text ∈ s.own) : (level, text) ∈ s.emitted level := by
  cases s with
  | line t =>
    rw [List.mem_singleton.1 h]
    exact List.mem_singleton_self _
  | lines ts => exact List.mem_map_of_mem h
  | block opening closing body =>
    simp only [Step.own, List.mem_cons, List.not_mem_nil, or_false] at h
    rcases h with rfl | rfl
    · exact List.mem_cons_self
    · exact List.mem_append_right _ (List.mem_singleton_self _)

mutual

theorem exists_within_of_mem_emitted (level : Nat) (s : Step) {l : Nat × String}
    (h : l ∈ s.emitted level) :
    ∃ depth t, Within depth t [s] ∧ l.1 = level + depth ∧ l.2 ∈ t.own := by
  match s with
  | .line text =>
    rw [List.mem_singleton.1 h]
    exact ⟨0, _, .top (List.mem_singleton_self _), rfl, List.mem_singleton_self _⟩
  | .lines texts =>
    obtain ⟨text, htext, rfl⟩ := List.mem_map.1 h
    exact ⟨0, _, .top (List.mem_singleton_self _), rfl, htext⟩
  | .block opening closing body =>
    simp only [Step.emitted, List.cons_append, List.mem_cons, List.mem_append, List.not_mem_nil,
      or_false] at h
    rcases h with rfl | h | rfl
    · exact ⟨0, _, .top (List.mem_singleton_self _), rfl, List.mem_cons_self⟩
    · obtain ⟨depth, t, ht, hlevel, hown⟩ := exists_within_of_mem_emittedAll (level + 1) body h
      exact ⟨depth + 1, t, .inside (List.mem_singleton_self _) ht, by omega, hown⟩
    · exact ⟨0, _, .top (List.mem_singleton_self _), rfl,
        List.mem_cons_of_mem _ (List.mem_singleton_self _)⟩

theorem exists_within_of_mem_emittedAll (level : Nat) (ss : List Step) {l : Nat × String}
    (h : l ∈ Step.emittedAll level ss) :
    ∃ depth t, Within depth t ss ∧ l.1 = level + depth ∧ l.2 ∈ t.own := by
  match ss with
  | [] => cases h
  | s :: ss =>
    rw [Step.emittedAll, List.mem_append] at h
    rcases h with h | h
    · obtain ⟨depth, t, ht, hl⟩ := exists_within_of_mem_emitted level s h
      exact ⟨depth, t, ht.mono (by simp), hl⟩
    · obtain ⟨depth, t, ht, hl⟩ := exists_within_of_mem_emittedAll level ss h
      exact ⟨depth, t, ht.mono (by simp), hl⟩

end

/-- **The level of a line** is the number of the blocks around its step. -/
theorem mem_emittedAll_iff :
    l ∈ Step.emittedAll level ss ↔
      ∃ depth t, Within depth t ss ∧ l.1 = level + depth ∧ l.2 ∈ t.own := by
  constructor
  · exact exists_within_of_mem_emittedAll level ss
  · rintro ⟨depth, t, ht, hlevel, hown⟩
    obtain ⟨before, after, hsplit⟩ := ht.exists_split level
    have hl : l ∈ t.emitted (level + depth) := by
      rw [← hlevel]
      exact mem_emitted_of_own hown
    rw [hsplit]
    exact List.mem_append_left after (List.mem_append_right before hl)

theorem le_of_mem_emittedAll (h : l ∈ Step.emittedAll level ss) : level ≤ l.1 := by
  obtain ⟨depth, t, -, hlevel, -⟩ := mem_emittedAll_iff.1 h
  omega

/-! ## What is written -/

/-- A block inside of a text: its opening and its closing line at one level, and between them the
lines of its body, which are all deeper. -/
def Encloses (level : Nat) (opening closing : String) (body : List Step) (text : String) : Prop :=
  ∃ before after, text = before ++ lineAt level opening ++
      textOf (Step.emittedAll (level + 1) body) ++ lineAt level closing ++ after ∧
    ∀ l ∈ Step.emittedAll (level + 1) body, level < l.1

theorem Within.encloses {opening closing : String} {body : List Step}
    (h : Within depth (.block opening closing body) ss) (level : Nat) :
    Encloses (level + depth) opening closing body (textOf (Step.emittedAll level ss)) := by
  obtain ⟨before, after, hsplit⟩ := h.exists_split level
  refine ⟨textOf before, textOf after, ?_, fun l hl => le_of_mem_emittedAll hl⟩
  rw [hsplit, Step.emitted]
  simp [String.append_assoc]

theorem textOf_eq (ls : List (Nat × String)) :
    textOf ls = String.join (ls.map fun l =>
      String.ofList (List.replicate (4 * l.1) ' ') ++ l.2 ++ "\n") := by
  simp only [textOf, lineAt_eq]

/-- **Lines are written by their level.**  Steps that are carried out on any builder leave it at the
level that it had, which on the way never goes below the lowest, and add their lines behind what is
written: in the order of the tree, each behind four spaces for each level and with a line feed.  The
level of a line is the number of the blocks around its step, counted from the level of the builder,
so that a block has its two lines at one level and its body between them, which is deeper.  What
some steps add and what others add behind them is what all of them add together, and the scripts of
all commands are written so. -/
theorem written_by_level :
    (∀ (b : Builder) (ss : List Step), b.steps? ss = some (b.steps ss) ∧
      (b.steps ss).depth = b.depth ∧
      (b.steps ss).text = b.text ++ String.join ((Step.emittedAll b.depth ss).map fun l =>
        String.ofList (List.replicate (4 * l.1) ' ') ++ l.2 ++ "\n") ∧
      (∀ l, l ∈ Step.emittedAll b.depth ss ↔
        ∃ depth s, Within depth s ss ∧ l.1 = b.depth + depth ∧ l.2 ∈ s.own) ∧
      ∀ depth opening closing body, Within depth (.block opening closing body) ss →
        Encloses (b.depth + depth) opening closing body
          (textOf (Step.emittedAll b.depth ss))) ∧
    (∀ (b : Builder) (xs ys : List Step), b.steps (xs ++ ys) = (b.steps xs).steps ys ∧
      (b.steps (xs ++ ys)).text =
        b.text ++ textOf (Step.emittedAll b.depth xs) ++ textOf (Step.emittedAll b.depth ys)) ∧
    ∀ (c : Command) (depth : Nat) (opening closing : String) (body : List Step),
      Within depth (.block opening closing body)
        (Statement.toSteps (statements c.action c.title c.content)) →
      Encloses depth opening closing body c.script := by
  refine ⟨?_, ?_, ?_⟩
  · intro b ss
    refine ⟨b.steps?_eq ss, b.depth_steps ss, ?_, fun l => mem_emittedAll_iff,
      fun depth opening closing body h => h.encloses b.depth⟩
    rw [b.steps_eq ss, textOf_eq]
  · intro b xs ys
    refine ⟨b.steps_append xs ys, ?_⟩
    rw [b.steps_append, Builder.steps_eq, Builder.steps_eq]
  · intro c depth opening closing body h
    have henc := h.encloses 0
    rw [Nat.zero_add] at henc
    rw [Command.script, text, written, Builder.steps_eq]
    simpa using henc

/-- In the script of an update the note is spoken to inside of three blocks. -/
theorem written_by_level_update :
    Encloses 3 "tell theNote" "end tell"
      [.line "make new paragraph at the end with data \"milk\""]
      (Command.script ⟨.update, "list", ["milk"], none, by decide⟩) := by
  obtain ⟨-, -, hscript⟩ := written_by_level
  refine hscript _ 3 _ _ _ ?_
  refine .inside (List.mem_singleton_self _) ?_
  refine .inside (List.mem_cons_of_mem _ List.mem_cons_self) ?_
  refine .inside (List.mem_singleton_self _) ?_
  exact .top (List.mem_cons_of_mem _ List.mem_cons_self)

end PlainNotes.Script

import Mathlib.Data.List.Forall2
import PlainNotes.Proofs.Request.Session

/-!
# Sessions of the console

The console answers the lines of its input one after the other, up to the first that asks to leave
or is no text.

* `fallsInto_inputLines`: how an input falls into lines.
* `answerLines_eq`: what is written for lines, by induction over those that are answered.
* `session_answers_lines`: the whole of a session.
-/

namespace PlainNotes.Console

/-! ## Lines -/

/-- How bytes read as a line: as the text that is written so, if there is one. -/
inductive ReadsAs : List UInt8 → Option String → Prop
  | text (line : String) : ReadsAs (Utf8.encode line.toList) (some line)
  | noText {bytes : List UInt8} (h : ∀ line : String, bytes ≠ Utf8.encode line.toList) :
      ReadsAs bytes none

/-- An input falls into lines: those that a line feed ends, with or without a carriage return before
it, and what stands behind the last line feed, if anything does. -/
def FallsInto (input : List UInt8) (lines : List (Option String)) : Prop :=
  ∃ (ended : List (List UInt8)) (rest : List UInt8),
    input = ended.flatMap (· ++ [10]) ++ rest ∧ (∀ line ∈ ended, 10 ∉ line) ∧ 10 ∉ rest ∧
    List.Forall₂ ReadsAs (ended.map dropReturn ++ if rest = [] then [] else [rest]) lines

theorem readsAs_decode (bytes : List UInt8) :
    ReadsAs bytes ((Utf8.decode? bytes).map String.ofList) := by
  cases hread : Utf8.decode? bytes with
  | none =>
    refine .noText fun line hline => ?_
    rw [hline, Utf8.decode?_encode] at hread
    cases hread
  | some s =>
    have htext := ReadsAs.text (String.ofList s)
    rwa [String.toList_ofList, ← Utf8.decode?_eq_some_iff.1 hread] at htext

theorem rawLines_eq (input : List UInt8) :
    input = (rawLines input).1.flatMap (· ++ [10]) ++ (rawLines input).2 ∧
      (∀ line ∈ (rawLines input).1, 10 ∉ line) ∧ 10 ∉ (rawLines input).2 := by
  induction input with
  | nil => simp [rawLines]
  | cons b s ih =>
    obtain ⟨hsplit, hlines, hrest⟩ := ih
    rw [rawLines]
    by_cases hb : b = 10
    · simp only [if_pos hb]
      refine ⟨?_, ?_, hrest⟩
      · rw [hb]
        exact congrArg (10 :: ·) hsplit
      · simpa using hlines
    · simp only [if_neg hb]
      cases hraw : (rawLines s).1 with
      | nil =>
        rw [hraw] at hsplit
        refine ⟨congrArg (b :: ·) hsplit, by simp, ?_⟩
        simp [hrest, Ne.symm hb]
      | cons l ls =>
        rw [hraw] at hsplit hlines
        refine ⟨congrArg (b :: ·) hsplit, ?_, hrest⟩
        simp only [List.mem_cons, forall_eq_or_imp] at hlines ⊢
        exact ⟨by simp [hlines.1, Ne.symm hb], hlines.2⟩

theorem fallsInto_inputLines (input : List UInt8) : FallsInto input (inputLines input) := by
  obtain ⟨hsplit, hlines, hrest⟩ := rawLines_eq input
  refine ⟨_, _, hsplit, hlines, hrest, ?_⟩
  simp only [inputLines, List.isEmpty_iff]
  rw [List.forall₂_map_right_iff, List.forall₂_same]
  exact fun bytes _ => readsAs_decode bytes

/-- The lines before the first that ends a session. -/
def answered : List (Option String) → List String
  | some line :: lines => if isLeaving line then [] else line :: answered lines
  | _ => []

/-- What is written at the end of a session, in front of lines that are not answered. -/
inductive Ends (colors : Bool) : List (Option String) → String → Prop
  | input : Ends colors [] "\n"
  | leaving {word : String} {lines : List (Option String)} (h : isLeaving word = true) :
      Ends colors (some word :: lines) ""
  | noText {lines : List (Option String)} : Ends colors (none :: lines) (inputError colors ++ "\n")

theorem exists_answered (colors : Bool) (lines : List (Option String)) :
    ∃ after last, lines = (answered lines).map some ++ after ∧
      (∀ line ∈ answered lines, isLeaving line = false) ∧ Ends colors after last := by
  induction lines with
  | nil => exact ⟨[], _, rfl, by simp [answered], .input⟩
  | cons line lines ih =>
    cases line with
    | none => exact ⟨_, _, rfl, by simp [answered], .noText⟩
    | some line =>
      cases hleaving : isLeaving line with
      | true =>
        rw [answered, if_pos hleaving]
        exact ⟨_, _, rfl, by simp, .leaving hleaving⟩
      | false =>
        obtain ⟨after, last, hsplit, hstays, hends⟩ := ih
        rw [answered, if_neg (by simp [hleaving])]
        refine ⟨after, last, congrArg (some line :: ·) hsplit, ?_, hends⟩
        simpa [hleaving] using hstays

/-! ## Answers -/

variable {m : Type → Type} [Monad m] {colors : Bool} {after : List (Option String)} {last : String}

/-- What a line asks of a runner. The empty line asks for nothing. -/
def demand (colors : Bool) (id line : String) : Demand String :=
  if line = "" then .settled (errorText colors "text must contain at least 1 character")
  else (Request.demand id line).map (Console.view colors)

/-- The lines that reach the pipeline. -/
def submitted (lines : List String) : List String :=
  lines.filter (· ≠ "")

/-- The replies to lines, given a report for each script of those that are understood. -/
def repliesAfter (colors : Bool) (id : String) (lines : List String) (reports : List RunReport) :
    List String :=
  Demand.results (lines.map (demand colors id)) reports

theorem scripts_demand (colors : Bool) (id : String) (lines : List String) :
    Demand.scripts (lines.map (demand colors id)) = Request.scripts (submitted lines) := by
  rw [Request.scripts, ← Request.scripts_demand id]
  induction lines with
  | nil => rfl
  | cons line lines ih =>
    rw [List.map_cons, demand, submitted, List.filter_cons]
    by_cases hline : line = ""
    · rw [if_pos hline, if_neg (by simpa using hline)]
      exact ih
    · rw [if_neg hline, if_pos (by simpa using hline), List.map_cons]
      rw [Demand.scripts, Demand.scripts, List.filterMap_cons, List.filterMap_cons,
        Demand.script?_map]
      cases (Request.demand id line).script? with
      | none => exact ih
      | some script => exact congrArg (script :: ·) ih

variable [LawfulMonad m]

theorem respond_eq_meet (runner : Runner m) (colors : Bool) (id line : String) :
    respond runner colors id line = (demand colors id line).meet runner := by
  unfold demand
  split
  case isTrue hempty =>
    rw [respond, if_pos hempty]
    rfl
  case isFalse hline =>
    rw [Demand.meet_map, ← Request.process_eq_meet]
    exact respond_eq hline runner colors id

/-- Lines that do not end the session are answered one after the other. -/
theorem answerLines_eq {lines : List String} (hstays : ∀ line ∈ lines, isLeaving line = false)
    (hends : Ends colors after last) (runner : Runner m) (id : String) :
    answerLines runner colors id (lines.map some ++ after) =
      (fun replies => replies.map (· ++ "\n") ++ [last]) <$>
        lines.mapM (respond runner colors id) := by
  induction lines with
  | nil =>
    cases hends with
    | input => simp [answerLines]
    | leaving hword => simp [answerLines, hword]
    | noText => simp [answerLines]
  | cons line lines ih =>
    have hline : ¬ isLeaving line = true := by simp [hstays line (by simp)]
    rw [List.map_cons, List.cons_append, answerLines, if_neg hline,
      ih fun l hl => hstays l (List.mem_cons_of_mem line hl)]
    simp

/-! ## Sessions -/

/-- All that is written in a session with these replies: the banner, then the prompt in front of
each reply and of the end, then the farewell. -/
def writtenFor (colors : Bool) (logging : Option (Level × String)) (last : String)
    (replies : List String) : String :=
  String.join ((banner colors logging).map (· ++ "\n")) ++
    String.join (replies.map fun reply => prompt ++ reply ++ "\n") ++ prompt ++ last ++
    farewell colors ++ "\n"

theorem session_eq {lines : List String} {input : List UInt8}
    (hinput : inputLines input = lines.map some ++ after)
    (hstays : ∀ line ∈ lines, isLeaving line = false) (hends : Ends colors after last)
    (runner : Runner m) (id : String) (logging : Option (Level × String)) :
    session runner colors id logging input =
      (fun replies => { written := writtenFor colors logging last replies, status := 0 }) <$>
        lines.mapM (respond runner colors id) := by
  have hparts : ∀ replies : List String,
      String.join ((replies.map (· ++ "\n") ++ [last]).map (prompt ++ ·)) =
        String.join (replies.map fun reply => prompt ++ reply ++ "\n") ++ prompt ++ last := by
    intro replies
    rw [List.map_append, String.join_append, List.map_map]
    simp [Function.comp_def, String.append_assoc]
  rw [session, transcript, hinput, answerLines_eq hstays hends]
  simp only [bind_pure_comp, Functor.map_map, hparts, writtenFor, String.append_assoc]

/-- **The console answers each line in front of the one that ends the session, and nothing behind
it.**  The input falls into lines, and those in front of the first that asks to leave or is no text
are answered in order, whatever became of the ones before. The runner is handed the scripts of those
among them that are not empty and are understood, each once and in order, and nothing else. -/
theorem session_answers_lines (colors : Bool) (id : String) (logging : Option (Level × String))
    (input : List UInt8) :
    FallsInto input (inputLines input) ∧
    ∃ after last,
      inputLines input = (answered (inputLines input)).map some ++ after ∧
      (∀ line ∈ answered (inputLines input), isLeaving line = false) ∧ Ends colors after last ∧
      ∀ runner : Runner m,
        session runner colors id logging input =
          (fun replies => { written := writtenFor colors logging last replies, status := 0 }) <$>
            (answered (inputLines input)).mapM (respond runner colors id) ∧
        (session runner.recording colors id logging input).run [] =
          (fun reports =>
            ({ written := writtenFor colors logging last
                (repliesAfter colors id (answered (inputLines input)) reports),
               status := 0 },
              Request.scripts (submitted (answered (inputLines input))))) <$>
            (Request.scripts (submitted (answered (inputLines input)))).mapM runner.run := by
  obtain ⟨after, last, hinput, hstays, hends⟩ := exists_answered colors (inputLines input)
  refine ⟨fallsInto_inputLines input, after, last, hinput, hstays, hends, fun runner => ⟨?_, ?_⟩⟩
  · exact session_eq hinput hstays hends runner id logging
  · have hmeet : (answered (inputLines input)).mapM (respond runner.recording colors id) =
        ((answered (inputLines input)).map (demand colors id)).mapM
          (Demand.meet runner.recording) := by
      rw [List.mapM_map]
      exact congrArg ((answered (inputLines input)).mapM ·)
        (funext fun line => respond_eq_meet runner.recording colors id line)
    rw [session_eq hinput hstays hends, StateT.run_map, hmeet, Demand.mapM_meet_recording,
      scripts_demand]
    simp [repliesAfter]

/-- A note to delete and an empty line are answered; what stands behind the word to leave is not. -/
theorem session_answers_lines_quit :
    (session (Runner.ofAnswer fun _ => .ok "").recording false "1" none
        (Utf8.encode "Delete my 'a' note\r\n\n Quit\nHello".toList)).run [] =
      ({ written := writtenFor false none ""
          ["✓ Success:\n  Action: delete\n  Title: a",
            "✗ Error: text must contain at least 1 character"],
         status := 0 },
        [(Request.deletion "a" (by decide)).script]) := by
  have hlines : inputLines (Utf8.encode "Delete my 'a' note\r\n\n Quit\nHello".toList) =
      [some "Delete my 'a' note", some "", some " Quit", some "Hello"] := by decide +kernel
  have hanswered : answered [some "Delete my 'a' note", some "", some " Quit", some "Hello"] =
      ["Delete my 'a' note", ""] := by decide +kernel
  have hclassify : classify "Delete my 'a' note" =
      some ⟨.delete, Request.deletion "a" (by decide)⟩ := by decide +kernel
  obtain ⟨-, after, last, hsplit, -, hends, hsession⟩ :=
    session_answers_lines false "1" none (m := Id)
      (Utf8.encode "Delete my 'a' note\r\n\n Quit\nHello".toList)
  obtain ⟨-, hrun⟩ := hsession (Runner.ofAnswer fun _ => .ok "")
  rw [hlines, hanswered] at hsplit hrun
  obtain rfl : [some " Quit", some "Hello"] = after := by simpa using hsplit
  have hscripts : Request.scripts (submitted ["Delete my 'a' note", ""]) =
      [(Request.deletion "a" (by decide)).script] := by
    simp [submitted, Request.scripts, Request.commands, parse, hclassify]
  have hdemand : (["Delete my 'a' note", ""].map (demand false "1")) = [
      .run (Request.deletion "a" (by decide)).script fun report => view false
        (Request.conclude "1" "Delete my 'a' note" (Request.deletion "a" (by decide)) report),
      .settled (errorText false "text must contain at least 1 character")] := by
    simp [demand, Request.demand_of_some hclassify, Demand.map]
  cases hends with
  | leaving _ =>
    rw [hrun, hscripts]
    simp only [repliesAfter, hdemand]
    rfl

end PlainNotes.Console

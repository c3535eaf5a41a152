import PlainNotes.Proofs.Request.Transports
import PlainNotes.Runner.Rehearsed

/-!
# Sessions

Requests that are carried out one after the other. A request asks for the run of one script or for
none, and its result comes from nothing but the report on that run. So a session hands the runner
the scripts of the texts that are understood, each once and in their order, however the runs go.

* `Demand`: what a request asks of a runner, told without one.
* `mapM_meet_recording`: what a list of demands does to a runner, by induction over the list.
* `getElem?_results`: which of the reports a result comes from.
* `processAll_runs_understood`: sessions.
-/

namespace PlainNotes

/-! ## Demands -/

/-- What a request asks of a runner: nothing, if its result is settled without it, or the run of one
script. -/
inductive Demand (α : Type)
  | settled (result : α)
  | run (script : String) (result : RunReport → α)

namespace Demand

variable {α β : Type}

def map (f : α → β) : Demand α → Demand β
  | settled result => settled (f result)
  | run script result => run script fun report => f (result report)

def script? : Demand α → Option String
  | settled _ => none
  | run script _ => some script

/-- The scripts that demands ask to run, in order. -/
def scripts (ds : List (Demand α)) : List String :=
  ds.filterMap script?

/-- The results of demands, given a report for each of their scripts. -/
def results : List (Demand α) → List RunReport → List α
  | [], _ => []
  | settled result :: ds, reports => result :: results ds reports
  | run _ result :: ds, report :: reports => result report :: results ds reports
  | run _ _ :: _, [] => []

@[simp] theorem scripts_nil : scripts ([] : List (Demand α)) = [] := rfl

@[simp] theorem scripts_settled (result : α) (ds : List (Demand α)) :
    scripts (settled result :: ds) = scripts ds := rfl

@[simp] theorem scripts_run (script : String) (result : RunReport → α) (ds : List (Demand α)) :
    scripts (run script result :: ds) = script :: scripts ds := rfl

@[simp] theorem script?_map (f : α → β) (d : Demand α) : (d.map f).script? = d.script? := by
  cases d <;> rfl

/-- A result comes from the report on its own script, whose place is the number of scripts in front
of it, or from no report. -/
theorem getElem?_results {ds : List (Demand α)} {reports : List RunReport}
    (h : reports.length = (scripts ds).length) (k : Nat) :
    (results ds reports)[k]? =
      match ds[k]? with
      | none => none
      | some (settled result) => some result
      | some (run _ result) => reports[(scripts (ds.take k)).length]?.map result := by
  induction ds generalizing reports k with
  | nil => rfl
  | cons d ds ih =>
    cases d with
    | settled result =>
      cases k with
      | zero => rfl
      | succ k => exact ih h k
    | run script result =>
      cases reports with
      | nil => cases h
      | cons report reports =>
        cases k with
        | zero => rfl
        | succ k => exact ih (Nat.succ.inj h) k

theorem length_results {ds : List (Demand α)} {reports : List RunReport}
    (h : reports.length = (scripts ds).length) : (results ds reports).length = ds.length := by
  induction ds generalizing reports with
  | nil => rfl
  | cons d ds ih =>
    cases d with
    | settled result => exact congrArg (· + 1) (ih h)
    | run script result =>
      cases reports with
      | nil => cases h
      | cons report reports => exact congrArg (· + 1) (ih (Nat.succ.inj h))

/-- The place of a script among all scripts. -/
theorem getElem?_scripts {ds : List (Demand α)} {k : Nat} {d : Demand α} {script : String}
    (hd : ds[k]? = some d) (hscript : d.script? = some script) :
    (scripts ds)[(scripts (ds.take k)).length]? = some script := by
  obtain ⟨hk, rfl⟩ := List.getElem?_eq_some_iff.1 hd
  have hsplit : scripts ds = scripts (ds.take k) ++ script :: scripts (ds.drop (k + 1)) :=
    calc scripts ds = scripts (ds.take k ++ ds.drop k) := by rw [List.take_append_drop]
      _ = scripts (ds.take k ++ ds[k] :: ds.drop (k + 1)) := by rw [← List.drop_eq_getElem_cons hk]
      _ = scripts (ds.take k) ++ script :: scripts (ds.drop (k + 1)) := by
        rw [scripts, List.filterMap_append, List.filterMap_cons_some hscript]
        rfl
  rw [hsplit, List.getElem?_append_right (Nat.le_refl _), Nat.sub_self]
  rfl

/-! ### Meeting demands -/

variable {m : Type → Type} [Monad m]

def meet (runner : Runner m) : Demand α → m α
  | settled result => pure result
  | run script result => result <$> runner.run script

variable [LawfulMonad m]

theorem meet_map (runner : Runner m) (f : α → β) (d : Demand α) :
    (d.map f).meet runner = f <$> d.meet runner := by
  cases d with
  | settled result => simp [map, meet]
  | run script result => simp [map, meet]

/-- Demands are met by running their scripts, and all their results come from these runs. -/
theorem mapM_meet (runner : Runner m) (ds : List (Demand α)) :
    ds.mapM (meet runner) = results ds <$> (scripts ds).mapM runner.run := by
  induction ds with
  | nil => simp [results]
  | cons d ds ih =>
    rw [List.mapM_cons, ih]
    cases d with
    | settled result => simp [meet, results]
    | run script result => simp [meet, results]

theorem mapM_recording (runner : Runner m) (scripts log : List String) :
    (scripts.mapM runner.recording.run).run log =
      (fun reports => (reports, log ++ scripts)) <$> scripts.mapM runner.run := by
  induction scripts generalizing log with
  | nil => simp
  | cons script scripts ih =>
    simp [List.mapM_cons, StateT.run_bind, Runner.recording_run, ih]

/-- What demands do to a runner: it is handed their scripts and nothing else. -/
theorem mapM_meet_recording (runner : Runner m) (ds : List (Demand α)) (log : List String) :
    (ds.mapM (meet runner.recording)).run log =
      (fun reports => (results ds reports, log ++ scripts ds)) <$>
        (scripts ds).mapM runner.run := by
  rw [mapM_meet, StateT.run_map, mapM_recording]
  simp

end Demand

/-! ## Requests -/

namespace Request

/-- What a text asks of a runner: to run the script of its command, if it is understood. -/
def demand (id text : String) : Demand Result :=
  match parse text with
  | none => .settled (notUnderstood id text)
  | some command => .run command.script (conclude id text command)

/-- The commands of the texts that are understood, in order. -/
def commands (texts : List String) : List Command :=
  texts.filterMap parse

/-- The answer to a command after the run of its script. -/
def answerAfter (command : Command) : Except RunFault String → Except Fault Outcome
  | .ok output => .ok ⟨command, command.script, output⟩
  | .error fault => .error (.run fault)

variable {m : Type → Type} [Monad m] {text : String}

theorem demand_of_none (h : classify text = none) (id : String) :
    demand id text = .settled (notUnderstood id text) := by
  rw [demand, parse, h]
  rfl

theorem demand_of_some {intent : Intent} (h : classify text = some intent) (id : String) :
    demand id text = .run intent.command.script (conclude id text intent.command) := by
  rw [demand, parse, h]
  rfl

theorem answer_conclude (id text : String) (command : Command) (report : RunReport) :
    (conclude id text command report).answer = answerAfter command report.answer := by
  unfold conclude
  split
  case h_1 output houtput => rw [houtput]; rfl
  case h_2 fault hfault => rw [hfault]; rfl

theorem scripts_demand (id : String) (texts : List String) :
    Demand.scripts (texts.map (demand id)) = (commands texts).map Command.script := by
  induction texts with
  | nil => rfl
  | cons text texts ih =>
    rw [List.map_cons, demand, commands, List.filterMap_cons]
    cases parse text with
    | none => exact ih
    | some command => exact congrArg (command.script :: ·) ih

theorem length_commands (texts : List String) :
    (commands texts).length = texts.countP fun text => (classify text).isSome := by
  induction texts with
  | nil => rfl
  | cons text texts ih =>
    rw [List.countP_cons, ← ih, commands, List.filterMap_cons, parse]
    cases classify text <;> rfl

theorem process_eq_meet [LawfulMonad m] (runner : Runner m) (id text : String) :
    process runner id text = (demand id text).meet runner := by
  unfold process demand
  cases parse text with
  | none => rfl
  | some command => exact bind_pure_comp _ _

/-! ## Sessions of requests -/

/-- The scripts of the texts that are understood, in order. -/
def scripts (texts : List String) : List String :=
  (commands texts).map Command.script

/-- The results of texts, given a report for each of their scripts. -/
def resultsAfter (id : String) (texts : List String) (reports : List RunReport) : List Result :=
  Demand.results (texts.map (demand id)) reports

theorem processAll_recording [LawfulMonad m] (runner : Runner m) (id : String)
    (texts log : List String) :
    (processAll runner.recording id texts).run log =
      (fun reports => (resultsAfter id texts reports, log ++ scripts texts)) <$>
        (scripts texts).mapM runner.run := by
  have hmeet : processAll runner.recording id texts =
      (texts.map (demand id)).mapM (Demand.meet runner.recording) := by
    rw [processAll, List.mapM_map]
    exact congrArg (texts.mapM ·) (funext fun text => process_eq_meet runner.recording id text)
  rw [hmeet, Demand.mapM_meet_recording, scripts_demand]
  rfl

/-- The result of a text in a session comes from the text and the report on its own script. -/
theorem exists_resultAfter {texts : List String} {reports : List RunReport}
    (h : reports.length = (scripts texts).length) (id : String) {k : Nat}
    (hk : texts[k]? = some text) :
    ∃ result, (resultsAfter id texts reports)[k]? = some result ∧
      (result.answer = .error .unrecognized ↔ classify text = none) ∧
      ∀ intent, classify text = some intent →
        (scripts texts)[(scripts (texts.take k)).length]? = some intent.command.script ∧
        ∃ report, reports[(scripts (texts.take k)).length]? = some report ∧
          result.answer = answerAfter intent.command report.answer := by
  have hdemand : (texts.map (demand id))[k]? = some (demand id text) := by
    rw [List.getElem?_map, hk]
    rfl
  have hplace : (Demand.scripts ((texts.map (demand id)).take k)).length =
      (scripts (texts.take k)).length := by
    rw [← List.map_take, scripts_demand]
    rfl
  have hlength : reports.length = (Demand.scripts (texts.map (demand id))).length := by
    rw [h, scripts_demand]
    rfl
  have hresult := Demand.getElem?_results hlength k
  rw [hdemand, hplace] at hresult
  cases hclassify : classify text with
  | none =>
    rw [demand_of_none hclassify] at hresult
    exact ⟨_, hresult, by simp [notUnderstood], fun _ h => by cases h⟩
  | some intent =>
    rw [demand_of_some hclassify] at hresult hdemand
    have hscript := Demand.getElem?_scripts hdemand rfl
    rw [hplace, scripts_demand] at hscript
    have hbound : (scripts (texts.take k)).length < reports.length := by
      rw [h]
      exact (List.getElem?_eq_some_iff.1 hscript).1
    have hreport := List.getElem?_eq_getElem hbound
    rw [hreport] at hresult
    refine ⟨_, hresult, ?_, ?_⟩
    · rw [answer_conclude]
      cases reports[(scripts (texts.take k)).length].answer <;> simp [answerAfter]
    · rintro _ ⟨⟩
      exact ⟨hscript, _, hreport, answer_conclude ..⟩

/-- **A session runs one script for each text that is understood.**  After any number of texts the
runner has been handed the scripts of those among them that are understood, each once and in order,
however the runs went and whatever comes behind. The answer to a text tells that it is not
understood, or else what came of its own script. -/
theorem processAll_runs_understood [LawfulMonad m] (runner : Runner m) (id : String)
    (texts : List String) :
    (∀ k,
      (processAll runner.recording id texts = do
        let first ← processAll runner.recording id (texts.take k)
        let rest ← processAll runner.recording id (texts.drop k)
        return first ++ rest) ∧
      (processAll runner.recording id (texts.take k)).run [] =
        (fun reports => (resultsAfter id (texts.take k) reports, scripts (texts.take k))) <$>
          (scripts (texts.take k)).mapM runner.run ∧
      (scripts (texts.take k)).length =
        (texts.take k).countP fun text => (classify text).isSome) ∧
    ∀ reports, reports.length = (scripts texts).length →
      (resultsAfter id texts reports).length = texts.length ∧
      ∀ k text, texts[k]? = some text →
        ∃ result, (resultsAfter id texts reports)[k]? = some result ∧
          (result.answer = .error .unrecognized ↔ classify text = none) ∧
          ∀ intent, classify text = some intent →
            (scripts texts)[(scripts (texts.take k)).length]? = some intent.command.script ∧
            ∃ report, reports[(scripts (texts.take k)).length]? = some report ∧
              result.answer = answerAfter intent.command report.answer := by
  constructor
  · intro k
    refine ⟨?_, ?_, ?_⟩
    · calc processAll runner.recording id texts
          = processAll runner.recording id (texts.take k ++ texts.drop k) := by
            rw [List.take_append_drop]
        _ = _ := List.mapM_append
    · have hrun := processAll_recording runner id (texts.take k) []
      rwa [List.nil_append] at hrun
    · rw [scripts, List.length_map, length_commands]
  · intro reports hreports
    constructor
    · rw [resultsAfter, Demand.length_results, List.length_map]
      rw [hreports, scripts_demand]
      rfl
    · intro k text hk
      exact exists_resultAfter hreports id hk

/-- Two notes to delete, and a text between them that is not understood. -/
def twoDeletions : List String :=
  ["Delete my 'a' note", "Hello", "Delete my 'b' note"]

/-- The command to delete a note. -/
def deletion (title : String) (h : title ≠ "") : Command :=
  ⟨.delete, title, [], none, h⟩

/-- The first run of two fails, and the second report is the one on the third text. -/
theorem processAll_runs_understood_twoDeletions :
    (processAll Runner.rehearsed.recording "1" twoDeletions).run [] =
      (fun reports => (resultsAfter "1" twoDeletions reports,
        [(deletion "a" (by decide)).script, (deletion "b" (by decide)).script])) <$>
          [(deletion "a" (by decide)).script, (deletion "b" (by decide)).script].mapM
            Runner.rehearsed.run ∧
    ∃ result,
      (resultsAfter "1" twoDeletions
        [{ answer := .error (.write "no space") }, { answer := .ok "done" }])[2]? = some result ∧
      result.answer =
        .ok ⟨deletion "b" (by decide), (deletion "b" (by decide)).script, "done"⟩ := by
  have ha : classify "Delete my 'a' note" = some ⟨.delete, deletion "a" (by decide)⟩ := by
    decide +kernel
  have hhello : classify "Hello" = none := by decide +kernel
  have hb : classify "Delete my 'b' note" = some ⟨.delete, deletion "b" (by decide)⟩ := by
    decide +kernel
  have hscripts : scripts twoDeletions =
      [(deletion "a" (by decide)).script, (deletion "b" (by decide)).script] := by
    simp [scripts, commands, twoDeletions, parse, ha, hhello, hb]
  have hfront : (scripts (twoDeletions.take 2)).length = 1 := by
    simp [scripts, commands, twoDeletions, parse, ha, hhello]
  obtain ⟨hsteps, hanswers⟩ := processAll_runs_understood Runner.rehearsed "1" twoDeletions
  constructor
  · have hrun := (hsteps 3).2.1
    rwa [List.take_of_length_le (by decide), hscripts] at hrun
  · obtain ⟨-, hresults⟩ := hanswers
      [{ answer := .error (.write "no space") }, { answer := .ok "done" }] (by rw [hscripts]; rfl)
    obtain ⟨result, hresult, -, hanswer⟩ := hresults 2 "Delete my 'b' note" rfl
    obtain ⟨-, report, hreport, heq⟩ := hanswer _ hb
    refine ⟨result, hresult, heq.trans ?_⟩
    rw [hfront] at hreport
    cases hreport
    rfl

end Request

end PlainNotes

import PlainNotes.Proofs.Request.Session
import PlainNotes.ToolProtocol.Session

/-!
# Sessions of the tool server

What a message does to a session is settled without the runner: the phase after it, and whether a
text goes to the tool. So a session hands the runner what a session of requests hands it, for the
texts of the calls that come in while it is serving.

* `Phase.next`, `Phase.demand`: one message; `receive_eq_meet` says that this is what is received.
* `receiveAll_eq_meet`: messages, by induction over them.
* `Opens`: how a session has to begin, with `failed_after_iff`.
* `run_recording`: whole sessions.
-/

namespace PlainNotes

variable {m : Type → Type} [Monad m]

/-! ## Calls -/

/-- What a call of the tool asks of a runner. -/
def ToolCall.demand (id raw : String) : Demand ToolCall.Result :=
  if raw = "" then
    .settled { answer := .error (errorText "text must contain at least 1 character") }
  else (Request.demand id (Payload.unwrap raw)).map ToolCall.view

theorem ToolCall.call_eq_meet [LawfulMonad m] (runner : Runner m) (id raw : String) :
    ToolCall.call runner id raw = (ToolCall.demand id raw).meet runner := by
  unfold ToolCall.demand
  by_cases hraw : raw = ""
  · rw [ToolCall.call, if_pos hraw, if_pos hraw]
    rfl
  · rw [ToolCall.call_eq hraw, if_neg hraw, Demand.meet_map, Request.process_eq_meet]

namespace ToolProtocol

open Json

/-- What the call of a tool asks of a runner. -/
def callDemand (id name : String) (arguments : Json) : Demand (Except Refusal Json) :=
  if name ≠ toolName then .settled (.error .unknownTool)
  else
    match requestText arguments with
    | .error fault => .settled (.error (.badArguments fault))
    | .ok text => (ToolCall.demand id text).map fun result => .ok (toolResult result.answer)

/-- A runner for what needs none. -/
def idle : Runner Id where
  run _ := { answer := .ok "" }

/-- What a request asks of a runner while serving. Only the call of a tool asks for anything. -/
def Query.demand (id : String) : Query → Demand (Except Refusal Json)
  | .callTool name arguments => callDemand id name arguments
  | query => .settled (answerOf idle id query).run

theorem callTool_eq_meet [LawfulMonad m] (runner : Runner m) (id name : String)
    (arguments : Json) :
    callTool runner id name arguments = (callDemand id name arguments).meet runner := by
  unfold callTool callDemand
  by_cases hname : name ≠ toolName
  · rw [if_pos hname, if_pos hname]
    rfl
  · rw [if_neg hname, if_neg hname]
    cases requestText arguments with
    | error fault => rfl
    | ok text =>
      dsimp only
      rw [Demand.meet_map, ← ToolCall.call_eq_meet]
      exact bind_pure_comp _ _

theorem answerOf_eq_meet [LawfulMonad m] (runner : Runner m) (id : String) (query : Query) :
    answerOf runner id query = (query.demand id).meet runner := by
  cases query with
  | callTool name arguments => exact callTool_eq_meet runner id name arguments
  | _ => rfl

/-! ## One message -/

namespace Phase

/-- The phase after a message, or after something that is none. -/
def next : Phase → Option Message → Phase
  | .closed failed, _ => .closed failed
  | phase, some .ignored => phase
  | .opening, some (.request _ (.introduce _)) => .introduced
  | .introduced, some (.notice .initialized) => .serving
  | .serving, some _ => .serving
  | phase, _ => phase.close

/-- What a message asks of a runner, and what is answered. -/
def demand (id : String) : Phase → Option Message → Demand (Option Json)
  | .opening, some (.request requestId (.introduce version)) =>
    .settled (some (answerMessage requestId (.ok (introduction (commonVersion version)))))
  | .serving, some (.request requestId query) =>
    (query.demand id).map fun answer => some (answerMessage requestId answer)
  | _, _ => .settled none

theorem next_ignored (phase : Phase) : phase.next (some .ignored) = phase := by
  cases phase <;> rfl

theorem receiveMessage_eq_meet [LawfulMonad m] (runner : Runner m) (id : String) (phase : Phase)
    (message : Message) :
    phase.receiveMessage runner id message =
      (fun answer => (phase.next (some message), answer)) <$>
        (phase.demand id (some message)).meet runner := by
  unfold receiveMessage next demand
  cases phase with
  | serving =>
    cases message with
    | request requestId query =>
      rw [Demand.meet_map, ← answerOf_eq_meet]
      simp
    | _ => exact (map_pure _ _).symm
  | opening =>
    cases message with
    | request requestId query => cases query <;> exact (map_pure _ _).symm
    | _ => exact (map_pure _ _).symm
  | introduced =>
    cases message with
    | notice notice => cases notice <;> exact (map_pure _ _).symm
    | _ => exact (map_pure _ _).symm
  | closed failed => exact (map_pure _ _).symm

theorem receive_eq_meet [LawfulMonad m] (runner : Runner m) (id : String) (phase : Phase)
    (message : Json) :
    phase.receive runner id message =
      (fun answer => (phase.next (Message.ofJson? message), answer)) <$>
        (phase.demand id (Message.ofJson? message)).meet runner := by
  rw [receive]
  cases Message.ofJson? message with
  | some message => exact receiveMessage_eq_meet runner id phase message
  | none => cases phase <;> exact (map_pure _ _).symm

/-! ## Messages -/

/-- The phase after messages. -/
def after (phase : Phase) (messages : List Json) : Phase :=
  messages.foldl (fun phase message => phase.next (Message.ofJson? message)) phase

/-- What messages ask of a runner, each in the phase in which it comes in. -/
def demands (id : String) (phase : Phase) : List Json → List (Demand (Option Json))
  | [] => []
  | message :: rest =>
    phase.demand id (Message.ofJson? message) ::
      (phase.next (Message.ofJson? message)).demands id rest

theorem length_demands (id : String) (phase : Phase) (messages : List Json) :
    (phase.demands id messages).length = messages.length := by
  induction messages generalizing phase with
  | nil => rfl
  | cons message messages ih => rw [demands, List.length_cons, List.length_cons, ih]

theorem receiveAll_eq_meet [LawfulMonad m] (runner : Runner m) (id : String) (phase : Phase)
    (messages : List Json) :
    receiveAll runner id phase messages =
      (fun answers => (answers, phase.after messages)) <$>
        (phase.demands id messages).mapM (Demand.meet runner) := by
  induction messages generalizing phase with
  | nil => simp [receiveAll, demands, after]
  | cons message messages ih =>
    rw [receiveAll, receive_eq_meet, demands, List.mapM_cons]
    simp [ih, after]

/-! ## How sessions begin -/

/-- A session that is serving or over does not fail any more. -/
theorem failed_next {phase : Phase} (h : phase.failed = false) (message? : Option Message) :
    (phase.next message?).failed = false := by
  cases phase with
  | opening | introduced => cases h
  | closed failed => exact h
  | serving =>
    cases message? with
    | none => rfl
    | some message => cases message <;> rfl

theorem failed_after {phase : Phase} (h : phase.failed = false) (messages : List Json) :
    (phase.after messages).failed = false := by
  induction messages generalizing phase with
  | nil => exact h
  | cons message messages ih => exact ih (failed_next h (Message.ofJson? message))

/-- What is closed stays as it is. -/
theorem after_closed (failed : Bool) (messages : List Json) :
    (closed failed).after messages = .closed failed := by
  induction messages with
  | nil => rfl
  | cons message messages ih => exact ih

end Phase

/-- The messages with which a session does not fail: the client introduces itself and then confirms,
with nothing before and between that the protocol does not ignore. What follows is free. -/
inductive Opens : Phase → List Json → Prop
  | opened {phase : Phase} {messages : List Json} (h : phase.failed = false) : Opens phase messages
  | ignored {phase : Phase} {message : Json} {rest : List Json}
    (h : Message.ofJson? message = some .ignored) (hrest : Opens phase rest) :
    Opens phase (message :: rest)
  | introduced {requestId : RequestId} {version : String} {message : Json} {rest : List Json}
    (h : Message.ofJson? message = some (.request requestId (.introduce version)))
    (hrest : Opens .introduced rest) : Opens .opening (message :: rest)
  | confirmed {message : Json} {rest : List Json}
    (h : Message.ofJson? message = some (.notice .initialized)) :
    Opens .introduced (message :: rest)

/-- Before a session is serving, a message that does not belong to its beginning closes it. -/
theorem Phase.next_of_failed {phase : Phase} (h : phase.failed = true) (message? : Option Message) :
    phase.next message? = .closed true ∨ message? = some .ignored ∨
      (phase = .opening ∧ ∃ requestId version,
        message? = some (.request requestId (.introduce version))) ∨
      (phase = .introduced ∧ message? = some (.notice .initialized)) := by
  cases message? with
  | none => cases phase <;> simp_all [next, close, failed]
  | some message =>
    cases message with
    | request requestId query => cases phase <;> cases query <;> simp_all [next, close, failed]
    | notice notice => cases phase <;> cases notice <;> simp_all [next, close, failed]
    | answer | ignored => cases phase <;> simp_all [next, close, failed]

theorem opens_of_failed_after {phase : Phase} {messages : List Json}
    (h : (phase.after messages).failed = false) : Opens phase messages := by
  induction messages generalizing phase with
  | nil => exact .opened h
  | cons message rest ih =>
    have hnext : ((phase.next (Message.ofJson? message)).after rest).failed = false := h
    by_cases hfailed : phase.failed = false
    · exact .opened hfailed
    rcases Phase.next_of_failed (eq_true_of_ne_false hfailed) (Message.ofJson? message) with
      hclosed | hmessage | ⟨rfl, requestId, version, hmessage⟩ | ⟨rfl, hmessage⟩
    · rw [hclosed, Phase.after_closed] at hnext
      cases hnext
    · rw [hmessage, Phase.next_ignored] at hnext
      exact .ignored hmessage (ih hnext)
    · rw [hmessage] at hnext
      exact .introduced hmessage (ih hnext)
    · exact .confirmed hmessage

/-- **A session fails unless it is opened.** -/
theorem failed_after_iff {phase : Phase} {messages : List Json} :
    (phase.after messages).failed = false ↔ Opens phase messages := by
  refine ⟨opens_of_failed_after, fun h => ?_⟩
  induction h with
  | opened h => exact Phase.failed_after h _
  | ignored h hrest ih =>
    rw [Phase.after, List.foldl_cons, h, Phase.next_ignored]
    exact ih
  | introduced h hrest ih =>
    rw [Phase.after, List.foldl_cons, h]
    exact ih
  | confirmed h =>
    rw [Phase.after, List.foldl_cons, h]
    exact Phase.failed_after rfl _

/-! ## Texts for the tool -/

/-- The text that a call gives to the tool, without what it is wrapped in. -/
def Query.text? : Query → Option String
  | .callTool name arguments =>
    if name = toolName then
      (requestText arguments).toOption.bind fun text =>
        if text = "" then none else some (Payload.unwrap text)
    else none
  | _ => none

namespace Phase

/-- The text that a message gives to the tool, if the session is serving. -/
def text? : Phase → Option Message → Option String
  | .serving, some (.request _ query) => query.text?
  | _, _ => none

/-- The texts that messages give to the tool. -/
def texts (phase : Phase) : List Json → List String
  | [] => []
  | message :: rest =>
    (phase.text? (Message.ofJson? message)).toList ++
      (phase.next (Message.ofJson? message)).texts rest

end Phase

theorem Query.script?_demand (id : String) (query : Query) :
    (query.demand id).script? = query.text?.bind fun text => (Request.demand id text).script? := by
  cases query with
  | callTool name arguments =>
    rw [Query.demand, callDemand, Query.text?]
    by_cases hname : name = toolName
    · rw [if_neg fun hne => hne hname, if_pos hname]
      cases requestText arguments with
      | error fault => rfl
      | ok text =>
        dsimp only [Except.toOption, Option.bind_some]
        rw [Demand.script?_map, ToolCall.demand]
        by_cases htext : text = ""
        · rw [if_pos htext, if_pos htext]
          rfl
        · rw [if_neg htext, if_neg htext, Demand.script?_map, Option.bind_some]
    · rw [if_pos hname, if_neg hname]
      rfl
  | _ => rfl

theorem Phase.script?_demand (id : String) (phase : Phase) (message? : Option Message) :
    (phase.demand id message?).script? =
      (phase.text? message?).bind fun text => (Request.demand id text).script? := by
  unfold Phase.demand Phase.text?
  split
  · rfl
  · rw [Demand.script?_map, Query.script?_demand]
  · split
    case h_1 hother => exact (hother _ _ rfl rfl).elim
    case h_2 => rfl

/-- The scripts of a session are those of the texts that it gives to the tool. -/
theorem scripts_demands (id : String) (phase : Phase) (messages : List Json) :
    Demand.scripts (phase.demands id messages) = Request.scripts (phase.texts messages) := by
  rw [Request.scripts, ← Request.scripts_demand id]
  induction messages generalizing phase with
  | nil => rfl
  | cons message messages ih =>
    have hrest := ih (phase.next (Message.ofJson? message))
    rw [Demand.scripts, Demand.scripts] at hrest
    rw [Phase.demands, Phase.texts, List.map_append, Demand.scripts, List.filterMap_cons,
      Phase.script?_demand, Demand.scripts, List.filterMap_append, hrest]
    cases phase.text? (Message.ofJson? message) with
    | none => rfl
    | some text =>
      cases hscript : (Request.demand id text).script? <;> simp [hscript]

/-- A session that fails gives nothing to the tool. -/
theorem texts_eq_nil_of_failed {phase : Phase} {messages : List Json}
    (h : (phase.after messages).failed = true) : phase.texts messages = [] := by
  induction messages generalizing phase with
  | nil => rfl
  | cons message messages ih =>
    have hnext : ((phase.next (Message.ofJson? message)).after messages).failed = true := h
    have hsilent : phase.text? (Message.ofJson? message) = none := by
      cases phase with
      | serving =>
        rw [Phase.failed_after rfl] at h
        cases h
      | _ => rfl
    rw [Phase.texts, hsilent, ih hnext]
    rfl

/-- **A session of the tool server is a session of requests**, for the texts of the calls that it
serves: the runner is handed the scripts of those that are understood, each once and in order,
however the runs go. Beside each message stands its answer, which may be none, and no report changes
the phase at the end. A session fails exactly if it is not opened, and then no script was run. -/
theorem run_recording [LawfulMonad m] (runner : Runner m) (id : String) (messages : List Json) :
    (run runner.recording id messages).run [] =
      (fun reports =>
        ((Demand.results (Phase.opening.demands id messages) reports, Phase.opening.after messages),
          Request.scripts (Phase.opening.texts messages))) <$>
        (Request.scripts (Phase.opening.texts messages)).mapM runner.run ∧
    (∀ reports : List RunReport,
      reports.length = (Request.scripts (Phase.opening.texts messages)).length →
        (Demand.results (Phase.opening.demands id messages) reports).length = messages.length) ∧
    ((Phase.opening.after messages).failed = false ↔ Opens .opening messages) ∧
    (¬ Opens .opening messages → Phase.opening.texts messages = []) := by
  refine ⟨?_, fun reports hreports => ?_, failed_after_iff, fun hclosed => ?_⟩
  · rw [run, Phase.receiveAll_eq_meet, StateT.run_map, Demand.mapM_meet_recording, scripts_demands,
      Functor.map_map]
    simp only [List.nil_append]
  · rw [Demand.length_results (hreports.trans (by rw [scripts_demands])), Phase.length_demands]
  · exact texts_eq_nil_of_failed (eq_true_of_ne_false (mt failed_after_iff.1 hclosed))

end ToolProtocol

end PlainNotes

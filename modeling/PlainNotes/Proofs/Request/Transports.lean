import PlainNotes.Console
import PlainNotes.Http
import PlainNotes.ToolCall
import PlainNotes.Proofs.Request.Wrapped

/-!
# Transports

A request has the same fate whichever way it comes in. The one thing that reaches a runner is the
script of the command that the text reads as, and the answers of HTTP, of the tool and of the
console are views of the one answer of the pipeline.

* `process_recording`: what the pipeline does to a runner.
* `handle_of_requestText`, `call_eq`, `respond_eq`: each transport, as a view of the pipeline.
* `toldAlike`: what the views make of one answer.
* `transports_tell_process`: all of them on one text.
-/

namespace PlainNotes

variable {α : Type} {m : Type → Type} [Monad m] {text : String}

/-! ## Scripts -/

/-- What comes back for a text, and the scripts that the runner was handed meanwhile: none if the
text is not understood, or else the one of its command. -/
def Request.told (runner : Runner m) (id text : String) (view : Request.Result → α) :
    m (α × List String) :=
  match parse text with
  | none => pure (view (Request.notUnderstood id text), [])
  | some command =>
    (fun report => (view (Request.conclude id text command report), [command.script])) <$>
      runner.run command.script

variable [LawfulMonad m]

theorem Runner.recording_run (runner : Runner m) (script : String) (log : List String) :
    (runner.recording.run script).run log =
      (fun report => (report, log ++ [script])) <$> runner.run script := by
  simp [Runner.recording, StateT.run_bind]

theorem Request.process_recording (runner : Runner m) (id text : String)
    (view : Request.Result → α) :
    (view <$> Request.process runner.recording id text).run [] =
      Request.told runner id text view := by
  rw [StateT.run_map]
  unfold Request.process Request.told
  cases parse text with
  | none => simp
  | some command =>
    simp only [bind_pure_comp, StateT.run_map, Runner.recording_run, Functor.map_map]
    rfl

/-! ## Views of the pipeline -/

/-- What HTTP makes of a result. -/
def Http.view (result : Request.Result) : Http.Result where
  response := Http.responseOf result.answer
  events := result.events

/-- What the tool makes of a result. -/
def ToolCall.view (result : Request.Result) : ToolCall.Result where
  answer := ToolCall.answerOf result.answer
  events := result.events

/-- What the console makes of a result. -/
def Console.view (colors : Bool) (result : Request.Result) : String :=
  Console.answerText colors result.answer

theorem Http.handle_of_requestText {body : List UInt8} (h : Payload.requestText body = .ok text)
    (runner : Runner m) (id : String) :
    Http.handle runner id body = Http.view <$> Request.process runner id text := by
  rw [Http.handle, h]
  exact bind_pure_comp _ _

omit [LawfulMonad m] in
/-- On the route the body is all that counts. -/
theorem Http.answer_of_route {target : String} {body : List UInt8}
    (hpath : Http.pathOf target = Http.routePath) (hbody : body.length ≤ Http.bodyLimit)
    (runner : Runner m) (id : String) :
    Http.answer runner id Http.routeMethod target body = Http.handle runner id body := by
  rw [Http.answer, if_neg fun hne => hne hpath, if_neg fun hne => hne rfl, Http.answerBody,
    if_neg (Nat.not_lt.2 hbody)]

theorem ToolCall.call_eq {raw : String} (h : raw ≠ "") (runner : Runner m) (id : String) :
    ToolCall.call runner id raw =
      ToolCall.view <$> Request.process runner id (Payload.unwrap raw) := by
  rw [ToolCall.call, if_neg h]
  exact bind_pure_comp _ _

theorem Console.respond_eq (h : text ≠ "") (runner : Runner m) (colors : Bool) (id : String) :
    Console.respond runner colors id text =
      Console.view colors <$> Request.process runner id text := by
  rw [Console.respond, if_neg h]
  exact bind_pure_comp _ _

/-! ## Answers -/

/-- An answer of the pipeline in the words of HTTP, of the tool and of the console. -/
inductive ToldAlike (colors : Bool) :
    Except Request.Fault Request.Outcome → Http.Response → Except String String → String → Prop
  | done (outcome : Request.Outcome) (rest : String) :
      ToldAlike colors (.ok outcome)
        { status := 200
          body := .json (.object [("success", .bool true),
            ("action", .str outcome.command.action.name), ("title", .str outcome.command.title),
            ("result", .str outcome.output)]) }
        (.ok (Reply.summary outcome.command outcome.output))
        (Console.styled colors .success "✓ Success:" ++
          "\n  Action: " ++ outcome.command.action.name ++
          "\n  Title: " ++ outcome.command.title ++ rest)
  | unrecognized :
      ToldAlike colors (.error .unrecognized)
        { status := 400
          body := .json (.object [("error", .str "Could not understand the request"),
            ("supportedFormats", .strings Reply.supportedFormats)]) }
        (.ok Reply.guidance)
        (Console.styled colors .notice "Response:" ++ "\n" ++ Reply.guidance)
  | failed (fault : RunFault) :
      ToldAlike colors (.error (.run fault))
        { status := 500, body := .json (.object [("error", .str fault.message)]) }
        (.error ("Error: " ++ fault.message))
        (Console.styled colors .error "✗ Error:" ++ " " ++ fault.message)

theorem toldAlike (colors : Bool) (answer : Except Request.Fault Request.Outcome) :
    ToldAlike colors answer (Http.responseOf answer) (ToolCall.answerOf answer)
      (Console.answerText colors answer) := by
  match answer with
  | .ok outcome => exact .done outcome _
  | .error .unrecognized => exact .unrecognized
  | .error (.run fault) => exact .failed fault

/-- On one text all transports hand the runner what the pipeline hands it, and tell its answer in
their own words. Over the network the body must not be larger than what the server reads. A text
that wraps nothing can as well be given to the tool as it is. -/
theorem transports_tell_process (h : text ≠ "") (runner : Runner m) (colors : Bool) (id : String) :
    (Request.process runner.recording id text).run [] =
      Request.told runner id text (fun result => result) ∧
    (Http.handle runner.recording id (Payload.sent text)).run [] =
      Request.told runner id text Http.view ∧
    ((Payload.sent text).length ≤ Http.bodyLimit →
      (Http.answer runner.recording id "POST" "/process-note-request" (Payload.sent text)).run [] =
        Request.told runner id text Http.view) ∧
    (ToolCall.call runner.recording id (Payload.wrap text).render).run [] =
      Request.told runner id text ToolCall.view ∧
    (Console.respond runner.recording colors id text).run [] =
      Request.told runner id text (Console.view colors) ∧
    (Payload.unwrap text = text →
      ToolCall.call runner id text = ToolCall.call runner id (Payload.wrap text).render) ∧
    ∀ result : Request.Result,
      ToldAlike colors result.answer (Http.view result).response (ToolCall.view result).answer
        (Console.view colors result) := by
  have hhttp : (Http.handle runner.recording id (Payload.sent text)).run [] =
      Request.told runner id text Http.view := by
    rw [Http.handle_of_requestText (Payload.requestText_sent h)]
    exact Request.process_recording runner id text Http.view
  have hraw := Payload.render_wrap_ne_empty text
  refine ⟨?_, hhttp, ?_, ?_, ?_, ?_, ?_⟩
  · have hprocess := Request.process_recording runner id text (fun result => result)
    rwa [id_map'] at hprocess
  · intro hlength
    exact (congrArg (StateT.run · []) (Http.answer_of_route (by decide) hlength _ id)).trans hhttp
  · rw [ToolCall.call_eq hraw, Payload.unwrap_wrap h]
    exact Request.process_recording runner id text ToolCall.view
  · rw [Console.respond_eq h]
    exact Request.process_recording runner id text (Console.view colors)
  · intro hbare
    rw [ToolCall.call_eq h, ToolCall.call_eq hraw, hbare, Payload.unwrap_wrap h]
  · intro result
    exact toldAlike colors result.answer

/-- A note to delete, whose title needs quotes, over the network. -/
theorem transports_tell_process_delete :
    "Delete my \"old\" note" ≠ "" ∧
    parse "Delete my \"old\" note" = some ⟨.delete, "old", [], none, by decide⟩ ∧
    (Http.handle (Runner.ofAnswer fun _ => .ok "").recording "1"
      (Payload.sent "Delete my \"old\" note")).run [] =
        ({ response :=
            { status := 200
              body := .json (.object [("success", .bool true), ("action", .str "delete"),
                ("title", .str "old"), ("result", .str "")]) }
           events := parseEvents "Delete my \"old\" note" ++ [.requestDone "1" .delete 3 0] },
          [Command.script ⟨.delete, "old", [], none, by decide⟩]) := by
  have hne : "Delete my \"old\" note" ≠ "" := by decide
  have hparse : parse "Delete my \"old\" note" = some ⟨.delete, "old", [], none, by decide⟩ := by
    decide +kernel
  have htold := (transports_tell_process hne (Runner.ofAnswer fun _ => .ok "") true "1").2.1
  refine ⟨hne, hparse, htold.trans ?_⟩
  rw [Request.told, hparse]
  rfl

end PlainNotes

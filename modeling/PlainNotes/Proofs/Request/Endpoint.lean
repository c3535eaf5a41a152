import PlainNotes.Proofs.Request.Transports

/-!
# The endpoint

Every request over HTTP falls into one of two kinds. It is carried out if it goes to the route, its
body wraps a text and the text is understood: then one script is run, and the status says how that
run went. Any other request is answered without a run.

* `answer_of_carries`: a request that is carried out.
* `exists_idle_of_not_carries`: any other request.
* `answer_tells_run`: the two kinds together.
-/

namespace PlainNotes.Http

open Payload

variable {m : Type → Type} [Monad m] {method target text : String} {body : List UInt8}
  {intent : Intent}

/-- A request that is carried out: it goes to the route, and its body wraps a text that is
understood. -/
structure Carries (method target : String) (body : List UInt8) (text : String) (intent : Intent) :
    Prop where
  path_eq : pathOf target = "/process-note-request"
  method_eq : method = "POST"
  accepted : Accepted body text
  understood : classify text = some intent

/-- The response after the script of a command was run. -/
inductive AfterRun (command : Command) : Except RunFault String → Response → Prop
  | done (output : String) :
      AfterRun command (.ok output)
        { status := 200
          body := .json (.object [("success", .bool true), ("action", .str command.action.name),
            ("title", .str command.title), ("result", .str output)]) }
  | failed (fault : RunFault) :
      AfterRun command (.error fault)
        { status := 500, body := .json (.object [("error", .str fault.message)]) }

/-- What comes back for a request that nothing is run for. A body that wraps no text is not even
read as a request, which its events show. -/
inductive Idle (id method target : String) (body : List UInt8) : Result → Prop
  | elsewhere (hpath : pathOf target ≠ "/process-note-request") :
      Idle id method target body { response := { status := 404 } }
  | otherMethod (hpath : pathOf target = "/process-note-request") (hmethod : method ≠ "POST") :
      Idle id method target body { response := { status := 405, allow := some "POST" } }
  | rejected {code message : String} {path : List String} (hbody : ∀ text, ¬ Accepted body text)
      (hreason : Rejected body code path message) :
      Idle id method target body
        { response :=
            { status := 400
              body := .json (.object [("error", .str "Validation error"),
                ("details", .list [.object [("code", .str code), ("path", .strings path),
                  ("message", .str message)]])]) }
          events := [.bodyInvalid body.length] }
  | unrecognized {text : String} (hbody : Accepted body text) (htext : classify text = none) :
      Idle id method target body
        { response :=
            { status := 400
              body := .json (.object [("error", .str "Could not understand the request"),
                ("supportedFormats", .strings Reply.supportedFormats)]) }
          events := (Request.notUnderstood id text).events }

/-! ## Statuses -/

theorem AfterRun.status_eq_iff {command : Command} {answer : Except RunFault String}
    {response : Response} (h : AfterRun command answer response) :
    (response.status = 200 ↔ ∃ output, answer = .ok output) ∧
      (response.status = 500 ↔ ∃ fault, answer = .error fault) := by
  cases h with
  | done output => simp
  | failed fault => simp

theorem Idle.status_ne {id : String} {result : Result} (h : Idle id method target body result) :
    result.response.status ≠ 200 ∧ result.response.status ≠ 500 := by
  cases h <;> simp

theorem Idle.status_of_route {id : String} {result : Result}
    (h : Idle id method target body result) (hpath : pathOf target = "/process-note-request")
    (hmethod : method = "POST") : result.response.status = 400 := by
  cases h with
  | elsewhere hne => exact absurd hpath hne
  | otherMethod _ hne => exact absurd hmethod hne
  | rejected => rfl
  | unrecognized => rfl

/-! ## The two kinds of requests -/

theorem afterRun_view (id text : String) (command : Command) (report : RunReport) :
    AfterRun command report.answer
      (Http.view (Request.conclude id text command report)).response := by
  unfold Request.conclude
  split
  case h_1 output houtput =>
    rw [houtput]
    exact .done output
  case h_2 fault hfault =>
    rw [hfault]
    exact .failed fault

theorem answer_of_carries [LawfulMonad m] (h : Carries method target body text intent)
    (hbody : body.length ≤ bodyLimit) (runner : Runner m) (id : String) :
    (answer runner.recording id method target body).run [] =
      (fun report => (Http.view (Request.conclude id text intent.command report),
        [intent.command.script])) <$> runner.run intent.command.script := by
  have hparse : parse text = some intent.command := by
    rw [parse, h.understood]
    rfl
  have hroute : answer runner.recording id method target body =
      handle runner.recording id body := by
    rw [h.method_eq]
    exact answer_of_route h.path_eq hbody runner.recording id
  rw [hroute, handle_of_requestText (requestText_eq_ok_iff.2 h.accepted),
    Request.process_recording, Request.told, hparse]

theorem handle_of_rejected {fault : Payload.Fault} (h : requestText body = .error fault)
    (runner : Runner m) (id : String) :
    handle runner id body =
      pure { response := invalidBody fault, events := [.bodyInvalid body.length] } := by
  rw [handle, h]

theorem exists_idle_of_not_carries [LawfulMonad m]
    (h : ∀ text intent, ¬ Carries method target body text intent)
    (hbody : body.length ≤ bodyLimit) (runner : Runner m) (id : String) :
    ∃ result, (answer runner.recording id method target body).run [] = pure (result, []) ∧
      Idle id method target body result := by
  by_cases hpath : pathOf target = routePath
  case neg =>
    rw [answer, if_pos hpath]
    exact ⟨_, StateT.run_pure _ _, .elsewhere hpath⟩
  by_cases hmethod : method = routeMethod
  case neg =>
    rw [answer, if_neg fun hne => hne hpath, if_pos hmethod]
    exact ⟨_, StateT.run_pure _ _, .otherMethod hpath hmethod⟩
  rw [hmethod, answer_of_route hpath hbody]
  cases hread : requestText body with
  | error fault =>
    have hnone : ∀ text, ¬ Accepted body text := by
      intro text haccepted
      rw [requestText_eq_ok_iff.2 haccepted] at hread
      cases hread
    rw [handle_of_rejected hread]
    exact ⟨_, StateT.run_pure _ _, .rejected hnone (rejected_of_requestText hread)⟩
  | ok text =>
    have haccepted := requestText_eq_ok_iff.1 hread
    have hclassify : classify text = none := by
      cases hintent : classify text with
      | none => rfl
      | some intent => exact absurd ⟨hpath, hmethod, haccepted, hintent⟩ (h text intent)
    have hparse : parse text = none := Option.map_eq_none_iff.2 hclassify
    rw [handle_of_requestText hread, Request.process_recording, Request.told, hparse]
    exact ⟨_, rfl, .unrecognized haccepted hclassify⟩

/-- **The status tells what happened.**  A body is checked before anything runs. If the request is
carried out, the one script of its command is handed to the runner once, and the status is 200 or
500 as the run succeeds or fails. Otherwise nothing is handed over, and the status is neither; on the
route it is 400. -/
theorem answer_tells_run [LawfulMonad m] (hbody : body.length ≤ bodyLimit) (runner : Runner m)
    (id : String) :
    (∀ text intent, Carries method target body text intent → ∃ view : RunReport → Result,
      (answer runner.recording id method target body).run [] =
        (fun report => (view report, [intent.command.script])) <$>
          runner.run intent.command.script ∧
      ∀ report, AfterRun intent.command report.answer (view report).response ∧
        ((view report).response.status = 200 ↔ ∃ output, report.answer = .ok output) ∧
        ((view report).response.status = 500 ↔ ∃ fault, report.answer = .error fault)) ∧
    ((∀ text intent, ¬ Carries method target body text intent) → ∃ result,
      (answer runner.recording id method target body).run [] = pure (result, []) ∧
      Idle id method target body result ∧
      result.response.status ≠ 200 ∧ result.response.status ≠ 500 ∧
      (pathOf target = "/process-note-request" → method = "POST" →
        result.response.status = 400)) := by
  constructor
  · intro text intent hcarries
    refine ⟨_, answer_of_carries hcarries hbody runner id, ?_⟩
    intro report
    have hafter := afterRun_view id text intent.command report
    exact ⟨hafter, hafter.status_eq_iff⟩
  · intro hnone
    obtain ⟨result, hrun, hidle⟩ := exists_idle_of_not_carries hnone hbody runner id
    exact ⟨result, hrun, hidle, hidle.status_ne.1, hidle.status_ne.2, hidle.status_of_route⟩

/-- A search that fails, with a query behind the path. -/
theorem answer_tells_run_failedSearch :
    (sent "Find notes about \"tea\"").length ≤ bodyLimit ∧
    Carries "POST" "/process-note-request?a=b" (sent "Find notes about \"tea\"")
      "Find notes about \"tea\"" ⟨.search, ⟨.search, "tea", [], none, by decide⟩⟩ ∧
    ∃ result, (answer (Runner.ofAnswer fun _ => .error (.write "no space")).recording "1" "POST"
        "/process-note-request?a=b" (sent "Find notes about \"tea\"")).run [] =
      (result, [Command.script ⟨.search, "tea", [], none, by decide⟩]) ∧
    result.response.status = 500 := by
  have hlength : (sent "Find notes about \"tea\"").length ≤ bodyLimit := by decide
  have hclassify : classify "Find notes about \"tea\"" =
      some ⟨.search, ⟨.search, "tea", [], none, by decide⟩⟩ := by
    decide +kernel
  have hcarries : Carries "POST" "/process-note-request?a=b" (sent "Find notes about \"tea\"")
      "Find notes about \"tea\"" ⟨.search, ⟨.search, "tea", [], none, by decide⟩⟩ :=
    ⟨by decide, rfl, requestText_eq_ok_iff.1 (requestText_sent (by decide)), hclassify⟩
  obtain ⟨view, hrun, hview⟩ := (answer_tells_run hlength
    (Runner.ofAnswer fun _ => .error (.write "no space")) "1").1 _ _ hcarries
  refine ⟨hlength, hcarries, _, hrun, ?_⟩
  exact (hview _).2.2.2 ⟨_, rfl⟩

end PlainNotes.Http

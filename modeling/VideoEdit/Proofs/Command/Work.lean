import VideoEdit.Command.Work
import VideoEdit.Proofs.Engine.Rendering
/-!
# What work leads to

The result of a step of the work and the starts of the media program on the way to it.
-/
namespace VideoEdit

theorem Media.check_names {extension : String} (h : extension ∈ extensions)
    (format : OutputFormat) :
    ResourceName.check ("input." ++ extension) ("output." ++ format.extension) = .ok () := by
  rw [ResourceName.check_eq_ok_iff]
  simp only [extensions, List.mem_cons, List.not_mem_nil, or_false] at h
  rcases h with rfl | rfl | rfl | rfl | rfl | rfl <;> cases format <;> decide +kernel

namespace Task
variable (plan : Plan) (source : ProgramSource) (program : Program)

def loggedStart (request : Request) (launch : Launch) : Traced (Except OsError Completion) := do
  Traced.log [request.startEvent source]
  Traced.start program launch

private theorem loggedStart_eq (request : Request) (launch : Launch) :
    (loggedStart source program request launch).result = .ok (program.run launch) ∧
    (loggedStart source program request launch).starts = [launch] :=
  Traced.bind_of_ok (Traced.result_log _) fun _ => Traced.start program launch

private theorem answer_eq (request : Request) :
    let answered := Launch.answer (loggedStart source program request) source request
    (answer plan source program request).result = answered.result ∧
    (answer plan source program request).starts = answered.starts :=
  Traced.bind_of_ok (Traced.result_log _) fun _ =>
    Launch.answer (loggedStart source program request) source request

theorem answer_of_check (request : Request)
    (h : ResourceName.check request.inputName request.outputName = .ok ()) :
    let launch : Launch := ⟨Launch.globalArguments ++ request.arguments,
      [(request.inputName, .file request.input)]⟩
    (answer plan source program request).result =
      .ok (if source = .sidecar then .error EngineError.sidecarUnavailable.failure
        else (Launch.output source request (program.run launch)).mapError EngineError.failure) ∧
    (answer plan source program request).starts = if source = .sidecar then [] else [launch] := by
  intro launch
  obtain ⟨hresult, hstarts⟩ := answer_eq plan source program request
  rw [hresult, hstarts, Launch.answer_of_check _ source h]
  by_cases hsource : source = .sidecar
  · simp [hsource]
  · obtain ⟨hlaunched, hlaunch⟩ := loggedStart_eq source program request launch
    simp only [hsource, if_false]
    rw [(Traced.bind_of_ok hlaunched _).1, (Traced.bind_of_ok hlaunched _).2, hlaunch]
    exact ⟨rfl, rfl⟩

variable (inputName outputName : String) (input : Bytes) (settings : Settings)

/-- Answering the request for a plan by the media program is rendering by its engine, with the start
that a render may make. -/
theorem renderBy_answer :
    let answered := plan.renderBy (answer plan source program) inputName outputName input settings
    answered.result =
      .ok (plan.render (Engine.ofProgram source program) inputName outputName input settings) ∧
    answered.starts =
      if ResourceName.check inputName outputName = .ok () ∧ source ≠ .sidecar then
        [plan.launch inputName outputName input settings]
      else [] := by
  intro answered
  have hanswered : answered = _ := plan.renderBy_eq inputName outputName input settings _
  rw [hanswered, Plan.render_ofProgram_eq]
  cases hcheck : ResourceName.check inputName outputName with
  | error e => exact ⟨rfl, by simp⟩
  | ok =>
    obtain ⟨hresult, hstarts⟩ := answer_of_check plan source program
      ⟨plan.compile inputName outputName settings, inputName, outputName, input⟩ hcheck
    refine ⟨hresult, hstarts.trans ?_⟩
    by_cases hsource : source = .sidecar <;> simp [hsource, Plan.launch]

theorem render_eq :
    let rendered := render plan source program inputName outputName input settings
    rendered.result =
      plan.render (Engine.ofProgram source program) inputName outputName input settings ∧
    rendered.starts =
      if ResourceName.check inputName outputName = .ok () ∧ source ≠ .sidecar then
        [plan.launch inputName outputName input settings]
      else [] := by
  intro rendered
  obtain ⟨hresult, hstarts⟩ :=
    renderBy_answer plan source program inputName outputName input settings
  have hrendered : rendered =
      plan.renderBy (answer plan source program) inputName outputName input settings >>=
        fun output => Traced.of output >>= fun bytes =>
          Traced.log [outputEvent bytes] >>= fun _ => pure bytes := rfl
  rw [hrendered, (Traced.bind_of_ok hresult _).1, (Traced.bind_of_ok hresult _).2, hstarts,
    Traced.result_bind, Traced.starts_bind, Traced.result_of]
  cases plan.render (Engine.ofProgram source program) inputName outputName input settings with
  | error e => exact ⟨rfl, List.append_nil _⟩
  | ok output => exact ⟨rfl, List.append_nil _⟩

end Task
end VideoEdit

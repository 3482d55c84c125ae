import VideoEdit.Engine.Render
import VideoEdit.Proofs.Files.Workspace
/-!
# Rendering starts one program, once

Whatever the media program does, a render starts it at most once, on the input alone, and gives
exactly what the program leaves under the name of the output.
-/
namespace VideoEdit

/-- The start that a render may make: the input alone in a directory, and behind the arguments of
every start those that the plan compiles to. -/
def Plan.launch (plan : Plan) (inputName outputName : String) (input : Bytes)
    (settings : Settings) : Launch :=
  ⟨Launch.globalArguments ++ plan.compile inputName outputName settings,
    [(inputName, .file input)]⟩

def Program.recorded (program : Program) (launch : Launch) :
    StateM (List Launch) (Except OsError Completion) := do
  modify (· ++ [launch])
  return program.run launch

theorem Except.mapError_eq_ok_iff {ε ε' α : Type} {x : Except ε α} {f : ε → ε'} {a : α} :
    x.mapError f = .ok a ↔ x = .ok a := by
  cases x <;> simp [Except.mapError]

private theorem Directory.read_eq_ok_iff {d : Directory} {name : String} {content : Bytes} :
    d.read name = .ok content ↔ d.lookup name = some (.file content) := by
  unfold Directory.read
  rcases d.lookup name with _ | content' | reason <;> simp

private theorem Launch.output_eq_ok_iff {source : ProgramSource} {request : Request}
    {ending : Except OsError Completion} {bytes : Bytes} :
    output source request ending = .ok bytes ↔
      ∃ run, ending = .ok run ∧ run.status.isSuccess ∧
        run.directory.lookup request.outputName = some (.file bytes) := by
  cases ending with
  | error reason => cases reason <;> simp [output]
  | ok run =>
    cases hsuccess : run.status.isSuccess <;>
      simp [output, hsuccess, Except.mapError_eq_ok_iff, Directory.read_eq_ok_iff]

theorem Launch.answer_of_check {m : Type → Type} [Monad m]
    (start : Launch → m (Except OsError Completion)) (source : ProgramSource) {request : Request}
    (h : ResourceName.check request.inputName request.outputName = .ok ()) :
    answer start source request =
      if source = .sidecar then pure (.error EngineError.sidecarUnavailable.failure)
      else do
        let ending ← start ⟨globalArguments ++ request.arguments,
          [(request.inputName, .file request.input)]⟩
        return (output source request ending).mapError EngineError.failure := by
  unfold answer ofRequest?
  simp only [h]
  by_cases hsource : source = .sidecar
  · rw [if_pos hsource, if_pos hsource]
  · rw [if_neg hsource, if_neg hsource]

namespace Plan
variable (plan : Plan) (source : ProgramSource) (program : Program) (inputName outputName : String)
  (input : Bytes) (settings : Settings)

theorem renderBy_eq {m : Type → Type} [Monad m] (answer : Request → m (Except Failure Bytes)) :
    plan.renderBy answer inputName outputName input settings =
      match ResourceName.check inputName outputName with
      | .error e => pure (.error (.coded e.coded))
      | .ok () =>
        answer ⟨plan.compile inputName outputName settings, inputName, outputName, input⟩ := by
  unfold renderBy request?
  cases ResourceName.check inputName outputName <;> rfl

/-- A render fails before a start, or starts the program once and reads the output; this holds
whatever a start is an effect in. -/
theorem renderBy_answer {m : Type → Type} [Monad m]
    (start : Launch → m (Except OsError Completion)) :
    plan.renderBy (Launch.answer start source) inputName outputName input settings =
      match ResourceName.check inputName outputName with
      | .error e => pure (.error (.coded e.coded))
      | .ok () =>
        if source = .sidecar then pure (.error EngineError.sidecarUnavailable.failure)
        else do
          let ending ← start (plan.launch inputName outputName input settings)
          return (Launch.output source ⟨plan.compile inputName outputName settings, inputName,
            outputName, input⟩ ending).mapError EngineError.failure := by
  -- The names are checked before the request is made and once more before the start.
  rw [renderBy_eq]
  cases hcheck : ResourceName.check inputName outputName with
  | error e => rfl
  | ok => exact Launch.answer_of_check start source hcheck

theorem render_ofProgram_eq :
    plan.render (Engine.ofProgram source program) inputName outputName input settings =
      match ResourceName.check inputName outputName with
      | .error e => .error (.coded e.coded)
      | .ok () =>
        if source = .sidecar then .error EngineError.sidecarUnavailable.failure
        else
          let request : Request :=
            ⟨plan.compile inputName outputName settings, inputName, outputName, input⟩
          let ending := program.run (plan.launch inputName outputName input settings)
          (Launch.output source request ending).mapError EngineError.failure := by
  have h := plan.renderBy_answer source inputName outputName input settings
    (m := Id) fun launch => pure (program.run launch)
  refine h.trans ?_
  cases ResourceName.check inputName outputName with
  | error e => rfl
  | ok => by_cases hsource : source = .sidecar <;> simp only [hsource] <;> rfl

/-- A render gives output exactly if it starts the program, the program reports success, and there
is a file under the name of the output; then it gives what that file holds. -/
theorem render_eq_ok_iff (bytes : Bytes) :
    plan.render (Engine.ofProgram source program) inputName outputName input settings = .ok bytes ↔
      (ResourceName.check inputName outputName = .ok () ∧ source ≠ .sidecar) ∧
        ∃ run, program.run (plan.launch inputName outputName input settings) = .ok run ∧
          run.status.isSuccess ∧ run.directory.lookup outputName = some (.file bytes) := by
  rw [render_ofProgram_eq]
  cases ResourceName.check inputName outputName with
  | error e => simp
  | ok =>
    by_cases hsource : source = .sidecar
    · simp [hsource]
    · simp [hsource, Except.mapError_eq_ok_iff, Launch.output_eq_ok_iff]

private theorem renderBy_recorded :
    (plan.renderBy (Launch.answer program.recorded source) inputName outputName input settings).run
        [] =
      (plan.render (Engine.ofProgram source program) inputName outputName input settings,
        if ResourceName.check inputName outputName = .ok () ∧ source ≠ .sidecar then
          [plan.launch inputName outputName input settings]
        else []) := by
  rw [renderBy_answer, render_ofProgram_eq]
  cases ResourceName.check inputName outputName with
  | error e =>
    simp only [reduceCtorEq, false_and, if_false]
    rfl
  | ok =>
    by_cases hsource : source = .sidecar
    · simp only [hsource, if_true, ne_eq, not_true_eq_false, and_false, if_false]
      rfl
    · simp only [hsource, if_false, ne_eq, not_false_eq_true, and_true, if_true]
      rfl

end Plan

/-- Accepted names lead to two different files right in the directory that a program starts in, and
staging the input under the first leaves it alone there. -/
theorem ResourceName.staging_of_check {inputName outputName : String}
    (h : check inputName outputName = .ok ()) :
    inputName ≠ outputName ∧
    (∀ (scratch : Location) (input : Bytes),
      (⟨scratch, []⟩ : Workspace).write {} inputName input =
        .ok ⟨scratch, [(scratch ++ [inputName.toList], input)]⟩) ∧
    ∀ w : Workspace, w.walk (w.start outputName) (Path.pieces outputName) =
      .ok (w.current ++ [outputName.toList]) := by
  obtain ⟨hinput, houtput, hne⟩ := check_eq_ok_iff.1 h
  exact ⟨hne, Workspace.write_of_isName (isName_of_isPlain hinput),
    Workspace.walk_of_isName (isName_of_isPlain houtput)⟩

/-- A render starts the program at most once, and exactly if the names are accepted and there is a
program to start; it starts it on the input alone, right in the directory, with the arguments that
the plan compiles to behind those of every start. There is output exactly if the program was started
and reports success and leaves a file under the name of the output, and then the output is what that
file holds: a program that changes nothing gives none. -/
theorem Plan.render_ofProgram (plan : Plan) (source : ProgramSource) (program : Program)
    (inputName outputName : String) (input : Bytes) (settings : Settings) :
    let result := plan.render (Engine.ofProgram source program) inputName outputName input settings
    let launch : Launch := ⟨["-hide_banner", "-loglevel", "error", "-y"] ++
      plan.compile inputName outputName settings, [(inputName, .file input)]⟩
    ∃ starts : List Launch,
      (plan.renderBy (Launch.answer program.recorded source) inputName outputName input
        settings).run [] = (result, starts) ∧
      (starts = [] ∨ starts = [launch]) ∧
      (starts = [launch] ↔
        ResourceName.check inputName outputName = .ok () ∧ source ≠ .sidecar) ∧
      (starts = [launch] → inputName ≠ outputName ∧
        (∀ scratch : Location, (⟨scratch, []⟩ : Workspace).write {} inputName input =
          .ok ⟨scratch, [(scratch ++ [inputName.toList], input)]⟩) ∧
        ∀ w : Workspace, w.walk (w.start outputName) (Path.pieces outputName) =
          .ok (w.current ++ [outputName.toList])) ∧
      (∀ bytes, result = .ok bytes ↔ starts = [launch] ∧
        ∃ run, program.run launch = .ok run ∧ run.status.isSuccess ∧
          run.directory.lookup outputName = some (.file bytes)) ∧
      ∀ run, program.run launch = .ok run → run.directory = launch.directory →
        ∃ failure, result = .error failure := by
  intro result launch
  let accepted : Prop := ResourceName.check inputName outputName = .ok () ∧ source ≠ .sidecar
  have hstarts : (if accepted then [launch] else []) = [launch] ↔ accepted := by
    by_cases h : accepted <;> simp [h]
  have hok := plan.render_eq_ok_iff source program inputName outputName input settings
  refine ⟨if accepted then [launch] else [],
    plan.renderBy_recorded source program inputName outputName input settings, ?_, hstarts, ?_, ?_,
    ?_⟩
  · by_cases h : accepted <;> simp [h]
  · intro h
    obtain ⟨hne, hstage, hread⟩ := ResourceName.staging_of_check (hstarts.1 h).1
    exact ⟨hne, fun scratch => hstage scratch input, hread⟩
  · intro bytes
    rw [hstarts]
    exact hok bytes
  · intro run hrun hunchanged
    cases hresult : result with
    | error failure => exact ⟨failure, rfl⟩
    | ok bytes =>
      obtain ⟨⟨hcheck, -⟩, run', hrun', -, hfile⟩ := (hok bytes).1 hresult
      obtain rfl : run = run' := Except.ok.inj (hrun.symm.trans hrun')
      have hne := (ResourceName.staging_of_check hcheck).1
      rw [hunchanged, List.lookup_cons, beq_false_of_ne hne.symm] at hfile
      cases hfile

end VideoEdit

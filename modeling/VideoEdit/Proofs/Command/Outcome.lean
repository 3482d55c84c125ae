import VideoEdit.Command.Outcome
import VideoEdit.Proofs.Command.Work
import VideoEdit.Proofs.Json
/-!
# What a command leaves behind

Each step of the work either goes on or fails for a reason that can be reported; what a command
leaves behind follows from its last step. Only a run changes files, and only the one it writes.
-/
namespace VideoEdit

/-- Whether a failure is one that commands report: the names that the engine sees are the program's
own, so no failure is about them. -/
def Failure.IsReported (f : Failure) : Prop :=
  ∀ e, f.coded? = some e → e.code ≠ .invalidResourceName

namespace Traced
variable {α β : Type} {P : α → Prop} {Q : β → Prop}

/-- The result has a property, or there is none for a reason that commands report. -/
structure Yields (x : Traced α) (P : α → Prop) : Prop where
  of_ok : ∀ a, x.result = .ok a → P a
  of_error : ∀ failure, x.result = .error failure → failure.IsReported

private theorem yields_pure {a : α} (h : P a) : (pure a : Traced α).Yields P := by
  constructor
  · rintro _ ⟨⟩
    exact h
  · rintro _ ⟨⟩

private theorem yields_log (events : List Log.Event) : (log events).Yields fun _ => True :=
  ⟨fun _ _ => trivial, nofun⟩

private theorem yields_fail {failure : Failure} (h : failure.IsReported) :
    (fail failure : Traced α).Yields P := by
  constructor
  · rintro _ ⟨⟩
  · rintro _ ⟨⟩
    exact h

private theorem yields_bind {x : Traced α} {f : α → Traced β} (hx : x.Yields P)
    (hf : ∀ a, P a → (f a).Yields Q) : (x >>= f).Yields Q := by
  cases hresult : x.result with
  | ok a =>
    have hnext := hf a (hx.of_ok a hresult)
    have hbind := (bind_of_ok hresult f).1
    exact ⟨fun b hb => hnext.of_ok b (hbind ▸ hb), fun e he => hnext.of_error e (hbind ▸ he)⟩
  | error e =>
    have hbind := (bind_of_error hresult f).1
    constructor
    · intro b hb
      cases hbind.symm.trans hb
    · intro e' he'
      cases hbind.symm.trans he'
      exact hx.of_error e hresult

end Traced

private theorem Failure.isReported_of_uncoded {f : Failure} (h : f.coded? = none) :
    f.IsReported := by
  intro e he
  rw [h] at he
  cases he

private theorem Failure.isReported_coded {e : CodedError} (h : e.code ≠ .invalidResourceName) :
    (Failure.coded e).IsReported := by
  rintro _ ⟨⟩
  exact h

theorem lines_singleton (text : String) : lines [text] = text ++ "\n" := by
  simp [lines, String.join]

private theorem Failure.report_of_coded {f : Failure} {e : CodedError} (h : f.coded? = some e) :
    f.report = (2, e.envelope.compact ++ "\n") := by
  simp only [report, h, lines_singleton, CodedError.exitCode]

private theorem Failure.report_of_uncoded {f : Failure} (h : f.coded? = none) :
    f.report = (1, "error: " ++ (f.message ++ "\n")) := by
  simp only [report, h, lines_singleton, String.append_assoc]

private theorem EngineError.coded?_failure (e : EngineError) : e.failure.coded? = none := by
  cases e <;> rfl

private theorem planFor_yields (prompt : String) (policy : DuplicatePolicy) :
    (planFor prompt policy).Yields (· = Plan.ofPrompt prompt policy) := by
  unfold planFor
  split
  · exact Traced.yields_fail (Failure.isReported_coded (by simp))
  · constructor
    · rintro _ ⟨⟩
      rfl
    · rintro _ ⟨⟩

namespace Media

private theorem inputExtension_yields (path : String) :
    (Task.coded (inputExtension path)).Yields (· ∈ extensions) := by
  simp only [inputExtension]
  generalize String.ofList (lowerAscii ((Path.extension? path).getD "").toList) = extension
  split
  next h => exact Traced.yields_pure h
  · exact Traced.yields_fail (Failure.isReported_coded (by simp))

private theorem outputPath_yields (input : String) (output : Option String)
    (format : OutputFormat) :
    (Task.coded (outputPath input output format)).Yields
      (· = output.getD (editedPath input format)) := by
  cases output with
  | none => exact Traced.yields_pure rfl
  | some path =>
    simp only [outputPath, checkOutput]
    generalize (Path.extension? path).getD "" = extension
    split
    · exact Traced.yields_pure rfl
    · exact Traced.yields_fail (Failure.isReported_coded (by simp))

end Media

private theorem Settings.loadOptional_yields (read : String → Except OsError Bytes)
    (path : Option String) :
    (Traced.of (loadOptional read path)).Yields fun _ => True := by
  refine ⟨fun _ _ => trivial, fun f hf => Failure.isReported_of_uncoded ?_⟩
  cases path with
  | none => cases hf
  | some path =>
    simp only [loadOptional, load] at hf
    split at hf
    · cases hf
      rfl
    · split at hf
      · cases hf
        rfl
      next text _ =>
        cases htext : ofText text <;> rw [htext] at hf <;> cases hf
        rfl

namespace Task

/-- What a task may do to files: only a run writes one, at the path that was asked for or beside its
video. -/
def Permits (task : Task) (write : Option (String × Bytes)) : Prop :=
  match task with
  | .plan .. | .compile .. => write = none
  | .run _ input output _ => ∃ format content,
      write = some (output.getD (Media.editedPath input format), content)

private theorem render_yields (plan : Plan) (source : ProgramSource) (program : Program)
    {inputName outputName : String} (h : ResourceName.check inputName outputName = .ok ())
    (input : Bytes) (settings : Settings) :
    (render plan source program inputName outputName input settings).Yields fun _ => True := by
  have hresult := (render_eq plan source program inputName outputName input settings).1
  rw [Plan.render_ofProgram_eq, h] at hresult
  refine ⟨fun _ _ => trivial, fun f hf => Failure.isReported_of_uncoded ?_⟩
  rw [hresult] at hf
  by_cases hsource : source = .sidecar
  · simp only [hsource, if_true, Except.error.injEq] at hf
    rw [← hf]
    exact EngineError.coded?_failure _
  · simp only [hsource, if_false] at hf
    cases houtput : Launch.output source _ _ with
    | ok bytes =>
      rw [houtput] at hf
      cases hf
    | error e =>
      rw [houtput] at hf
      cases hf
      exact EngineError.coded?_failure e

private theorem printPlan_yields (prompt : String) (json : Bool) (settings : Settings) :
    (printPlan prompt json settings).Yields fun effect => effect.write = none := by
  refine Traced.yields_bind (planFor_yields prompt settings.duplicates) fun plan _ => ?_
  cases json with
  | true => exact Traced.yields_pure rfl
  | false =>
    by_cases hsteps : plan.description = []
    · simp only [hsteps, if_true]
      exact Traced.yields_pure rfl
    · simp only [hsteps, if_false]
      exact Traced.yields_pure rfl

private theorem printArguments_yields (prompt input : String) (output : Option String) (json : Bool)
    (settings : Settings) :
    (printArguments prompt input output json settings).Yields fun effect =>
      effect.write = none := by
  refine Traced.yields_bind (planFor_yields prompt settings.duplicates) fun plan _ => ?_
  refine Traced.yields_bind (Traced.yields_log _) fun _ _ => ?_
  cases json <;> exact Traced.yields_pure rfl

theorem edit_yields (prompt input : String) (output : Option String) (source : ProgramSource)
    (settings : Settings) (s : Surroundings) :
    (edit prompt input output source settings s).Yields fun effect => ∃ format content,
      effect.write = some (output.getD (Media.editedPath input format), content) := by
  refine Traced.yields_bind (Media.inputExtension_yields input) fun extension hextension => ?_
  refine Traced.yields_bind (planFor_yields prompt settings.duplicates) fun plan _ => ?_
  refine Traced.yields_bind (Media.outputPath_yields input output plan.output) fun path hpath => ?_
  have hread : (Traced.of ((s.read input).mapError fun e =>
      .within ("failed to read input " ++ input) (.plain e.message))).Yields fun _ => True := by
    cases s.read input with
    | ok content => exact Traced.yields_pure trivial
    | error e => exact Traced.yields_fail (Failure.isReported_of_uncoded rfl)
  refine Traced.yields_bind hread fun content _ => ?_
  have hnames := Media.check_names hextension plan.output
  refine Traced.yields_bind (render_yields plan source s.program hnames content settings)
    fun edited _ => ?_
  exact Traced.yields_pure ⟨plan.output, edited, by rw [hpath]⟩

private theorem perform_yields (task : Task) (settings : Settings) (s : Surroundings) :
    (task.perform settings s).Yields fun effect => task.Permits effect.write := by
  cases task with
  | plan prompt json => exact printPlan_yields prompt json settings
  | compile prompt input output json =>
    exact printArguments_yields prompt input output json settings
  | run prompt input output source => exact edit_yields prompt input output source settings s

end Task

theorem Effect.apply_eq_ok {effect : Effect} {w after : Workspace} {refusals : Refusals}
    {text : String} (h : effect.apply w refusals = .ok (text, after)) :
    effect.write = none ∧ after = w ∨ ∃ path content place, effect.write = some (path, content) ∧
      w.target path = .ok place ∧ after = w.put place content := by
  unfold apply at h
  split at h
  next hnone =>
    cases h
    exact Or.inl ⟨hnone, rfl⟩
  next path content hsome =>
    split at h
    next hwrite =>
      cases h
      obtain ⟨place, hplace, hafter⟩ := Workspace.write_eq_ok hwrite
      exact Or.inr ⟨path, content, place, hsome, hplace, hafter⟩
    · cases h

private theorem Effect.isReported_of_apply {effect : Effect} {w : Workspace} {refusals : Refusals}
    {f : Failure} (h : effect.apply w refusals = .error f) : f.IsReported := by
  unfold apply at h
  split at h
  · cases h
  · split at h
    · cases h
    · cases h
      exact Failure.isReported_of_uncoded rfl

/-- What a task may leave of the files: only a run changes one, at the path that was asked for or
beside its video. -/
def Task.Leaves (task : Task) (w after : Workspace) : Prop :=
  match task with
  | .plan .. | .compile .. => after = w
  | .run _ input output _ => ∃ format place,
      w.target (output.getD (Media.editedPath input format)) = .ok place ∧
      after.current = w.current ∧ ∀ other, other ≠ place → after.file? other = w.file? other

private theorem Task.leaves_of_permits {task : Task} {effect : Effect} {w after : Workspace}
    {refusals : Refusals} {text : String} (hpermits : task.Permits effect.write)
    (happly : effect.apply w refusals = .ok (text, after)) : task.Leaves w after := by
  rcases Effect.apply_eq_ok happly with
    ⟨hnone, hafter⟩ | ⟨path, content, place, hsome, hplace, hafter⟩
  · cases task with
    | plan | compile => exact hafter
    | run =>
      obtain ⟨format, content, hwrite⟩ := hpermits
      rw [hnone] at hwrite
      cases hwrite
  · cases task with
    | plan | compile =>
      rw [show effect.write = none from hpermits] at hsome
      cases hsome
    | run =>
      obtain ⟨format, content', hwrite⟩ := hpermits
      rw [hsome] at hwrite
      cases hwrite
      subst hafter
      exact ⟨format, place, hplace, rfl, fun other hne => Workspace.file?_put_of_ne hne w content⟩

namespace CommandLine

private theorem work_yields (options : TaskOptions) (task : Task) (w : Workspace)
    (program : Program) (refusals : Refusals) :
    ((CommandLine.task options task).work w program refusals).Yields fun done =>
      task.Leaves w done.2 := by
  have hperform : ((CommandLine.task options task).perform ⟨w.read refusals, program⟩).Yields
      fun effect => task.Permits effect.write :=
    Traced.yields_bind (Settings.loadOptional_yields _ options.config) fun settings _ =>
      task.perform_yields settings _
  refine Traced.yields_bind hperform fun effect hpermits => ⟨?_, ?_⟩
  · rintro ⟨text, after⟩ happly
    exact Task.leaves_of_permits hpermits happly
  · intro f hf
    exact Effect.isReported_of_apply hf

theorem outcome_of_ok {line : CommandLine} {w after : Workspace} {program : Program}
    {refusals : Refusals} {text : String}
    (h : (line.work w program refusals).result = .ok (text, after)) :
    line.outcome w program refusals =
      ⟨0, text, "", after, (line.work w program refusals).events,
        (line.work w program refusals).starts⟩ := by
  simp only [outcome, h]

theorem outcome_of_error {line : CommandLine} {w : Workspace} {program : Program}
    {refusals : Refusals} {failure : Failure}
    (h : (line.work w program refusals).result = .error failure) :
    line.outcome w program refusals =
      ⟨failure.report.1, "", failure.report.2, w, (line.work w program refusals).events,
        (line.work w program refusals).starts⟩ := by
  simp only [outcome, h]

/-- Work has a result exactly if it leads to an effect that can be carried out. -/
theorem work_eq_ok_iff {line : CommandLine} {w : Workspace} {program : Program}
    {refusals : Refusals} {done : String × Workspace} :
    (line.work w program refusals).result = .ok done ↔
      ∃ effect, (line.perform ⟨w.read refusals, program⟩).result = .ok effect ∧
        effect.apply w refusals = .ok done :=
  Traced.result_bind_eq_ok_iff

/-- What a command leaves behind, by the last step of its work. Whatever the task, the files and the
media program, the exit status is 0, 1 or 2. Only at 0 is anything printed on standard output or
changed in the files, and then only what the task may leave. At 2, and exactly for failures with a
code, the error stream holds the failure as one line of JSON, never with the code for refused names;
at 1, for all other failures, it starts with a plain mark. Ahead of these the error stream holds
what is said about a filter for the log that cannot be read, and nothing else. -/
theorem outcome_of_task (options : TaskOptions) (task : Task) (environment : Option String)
    (w : Workspace) (program : Program) (refusals : Refusals) :
    let line := CommandLine.task options task
    let outcome := line.outcome w program refusals
    let result := (line.work w program refusals).result
    let complaints := lines (logComplaints environment options)
    let stderr := line.errorText environment outcome
    (outcome.exit = 0 ∨ outcome.exit = 1 ∨ outcome.exit = 2) ∧
    (outcome.exit ≠ 0 → outcome.stdout = "" ∧ outcome.workspace = w) ∧
    (outcome.exit = 2 ↔ ∃ failure e, result = .error failure ∧ failure.coded? = some e) ∧
    (∀ failure e, result = .error failure → failure.coded? = some e →
      stderr = complaints ++ (e.envelope.compact ++ "\n") ∧
      '\n' ∉ e.envelope.compact.toList ∧ e.code ≠ .invalidResourceName) ∧
    (outcome.exit = 1 ↔ ∃ failure, result = .error failure ∧ failure.coded? = none) ∧
    (outcome.exit = 1 → ∃ message, stderr = complaints ++ ("error: " ++ message)) ∧
    (outcome.exit = 0 → stderr = complaints ∧ task.Leaves w outcome.workspace) := by
  intro line outcome result complaints stderr
  have hyields := work_yields options task w program refusals
  have hstderr : stderr = complaints ++ outcome.stderr := rfl
  -- The result of the work decides everything that is left behind.
  cases hresult : result with
  | ok done =>
    obtain ⟨text, after⟩ := done
    have houtcome : outcome = _ := outcome_of_ok hresult
    have hleaves : task.Leaves w after := hyields.of_ok (text, after) hresult
    simp only [hstderr, houtcome, String.append_empty]
    simpa using hleaves
  | error failure =>
    have houtcome : outcome = _ := outcome_of_error hresult
    have hreported : failure.IsReported := hyields.of_error failure hresult
    cases hcoded : failure.coded? with
    | none =>
      rw [Failure.report_of_uncoded hcoded] at houtcome
      simp only [hstderr, houtcome]
      refine ⟨by simp, by simp, ?_, ?_, ?_, ?_, nofun⟩
      · simp [hcoded]
      · rintro _ e ⟨⟩ he
        simp [hcoded] at he
      · simp [hcoded]
      · exact fun _ => ⟨failure.message ++ "\n", rfl⟩
    | some e =>
      rw [Failure.report_of_coded hcoded] at houtcome
      simp only [hstderr, houtcome]
      refine ⟨by simp, by simp, ?_, ?_, ?_, nofun, nofun⟩
      · simp [hcoded]
      · rintro _ e' ⟨⟩ he
        obtain rfl : e = e' := Option.some.inj (hcoded.symm.trans he)
        exact ⟨rfl, e.envelope.newline_not_mem_compact, hreported e hcoded⟩
      · simp [hcoded]

/-- Where a plan is made and printed, a filter for the log that cannot be read still shows on the
error stream. -/
theorem outcome_unreadable_filter :
    ∃ line, read? ["plan", "mute", "--log-level", "["] = some line ∧
      let outcome := line.outcome ⟨[], []⟩ fun _ _ => .error .notFound
      outcome.exit = 0 ∧ outcome.stdout = "1. Remove the audio track\n" ∧
        line.errorText none outcome = "ignoring `[`: invalid filter directive\n" ∧
        line.errorText none outcome ≠ "" := by
  refine ⟨.task ⟨none, "[", false⟩ (.plan "mute" false), by decide +kernel, ?_⟩
  decide +kernel

end CommandLine
end VideoEdit

import VideoEdit.Proofs.Command.Outcome
import VideoEdit.Proofs.Files.Extension
/-!
# What a run leaves of its input

A run reads its video and writes one file. Beside the video that is a file with another name, so
only an explicit path for the output can lead to the video itself.
-/
namespace VideoEdit

namespace Media

private theorem locate_ne_editedPath {w : Workspace} {input extension : String}
    {format : OutputFormat} {place : Location} (hextension : inputExtension input = .ok extension)
    (hplace : w.target (editedPath input format) = .ok place) : w.locate input ≠ .ok place := by
  obtain ⟨directory, name, hsplit⟩ := exists_split?_of_inputExtension hextension
  intro hlocate
  have hinput := Workspace.getLast?_locate hsplit hlocate
  have houtput := Workspace.getLast?_target (split?_editedPath hsplit format) hplace
  rw [hinput, Option.some_inj] at houtput
  exact editedName_ne name format houtput.symm

end Media

private theorem Task.edit_reads {prompt input : String} {output : Option String}
    {source : ProgramSource} {settings : Settings} {s : Surroundings} {effect : Effect}
    (h : (edit prompt input output source settings s).result = .ok effect) :
    (∃ extension, Media.inputExtension input = .ok extension) ∧
      ∃ content, s.read input = .ok content := by
  simp only [edit, Traced.result_bind_eq_ok_iff, coded, Traced.result_of,
    Except.mapError_eq_ok_iff] at h
  obtain ⟨extension, hextension, plan, -, path, -, content, hread, -⟩ := h
  exact ⟨⟨extension, hextension⟩, content, hread⟩

namespace CommandLine

/-- A run leaves its input as it was, whatever the media program does, unless an explicit path for
the output leads to the input itself. Such a run changes it only by success, and the input is then
the one file that it has written. -/
theorem outcome_keeps_input (options : TaskOptions) (prompt input : String)
    (output : Option String) (source : ProgramSource) (w : Workspace) (program : Program)
    (refusals : Refusals) :
    let run := (CommandLine.task options (.run prompt input output source)).outcome w program
      refusals
    run.workspace.read refusals input = w.read refusals input ∨
      ∃ path place content, output = some path ∧ w.target path = .ok place ∧
        w.locate input = .ok place ∧ run.exit = 0 ∧ run.workspace = w.put place content := by
  intro run
  cases hresult : ((CommandLine.task options (.run prompt input output source)).work w program
      refusals).result with
  | error failure =>
    have houtcome : run = _ := outcome_of_error hresult
    rw [houtcome]
    exact .inl rfl
  | ok done =>
    obtain ⟨text, after⟩ := done
    have houtcome : run = _ := outcome_of_ok hresult
    rw [houtcome]
    obtain ⟨effect, hperform, happly⟩ := work_eq_ok_iff.1 hresult
    obtain ⟨settings, -, hedit⟩ := Traced.result_bind_eq_ok_iff.1 hperform
    obtain ⟨⟨extension, hextension⟩, content, hread⟩ := Task.edit_reads hedit
    obtain ⟨format, written, hwrite⟩ :=
      (Task.edit_yields prompt input output source settings _).of_ok effect hedit
    rcases Effect.apply_eq_ok happly with
      ⟨hnone, -⟩ | ⟨path, bytes, place, hsome, hplace, rfl⟩
    · rw [hnone] at hwrite
      cases hwrite
    rw [hsome] at hwrite
    cases hwrite
    by_cases hsame : w.locate input = .ok place
    · cases output with
      | none => exact absurd hsame (Media.locate_ne_editedPath hextension hplace)
      | some path => exact .inr ⟨path, place, written, rfl, hplace, hsame, rfl, rfl⟩
    · left
      exact (Workspace.read_put_of_ne hread hsame written).trans hread.symm

/-- A run whose output is its input under another spelling replaces the video. -/
theorem outcome_replaces_input :
    ∃ line, read? ["run", "mute", "-i", "clip.mp4", "-o", "./clip.mp4"] = some line ∧
      let w : Workspace := ⟨[], [(["clip.mp4".toList], [0])]⟩
      let run := line.outcome w fun _ _ => .ok ⟨[("output.mp4", .file [1])], .exited 0, []⟩
      run.exit = 0 ∧ w.read {} "clip.mp4" = .ok [0] ∧
        run.workspace.read {} "clip.mp4" = .ok [1] := by
  refine ⟨.task ⟨none, "warn", false⟩ (.run "mute" "clip.mp4" (some "./clip.mp4") .auto),
    by decide +kernel, ?_⟩
  decide +kernel

end CommandLine
end VideoEdit

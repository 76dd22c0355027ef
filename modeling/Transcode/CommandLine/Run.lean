/-
**Running the program.**

The program answers what its arguments ask for.  What they leave out is taken from the settings of
the environment; an unusable environment is all that is reported then, whatever the arguments.

Main definitions:

* `Transcode.Invocation.respond` — what is answered to an invocation;
* `Transcode.Program.run` — what is answered to arguments in an environment.
-/

import Transcode.CommandLine.Arguments
import Transcode.CommandLine.Listing
import Transcode.CommandLine.Resolve

set_option relaxedAutoImplicit false
set_option autoImplicit false

namespace Transcode

open Response

/-! ### Complaints -/

/-- What is answered to arguments that cannot be used.  For an unknown command the complaint is
repeated with a label, and the help of the program is pointed out. -/
def Complaint.respond (paint : Painter) (c : Complaint) : Response :=
  match c with
  | .unknownCommand _ =>
    { exitCode := 1
      stdout := line ("Run ".toList ++
        paint .cyan (Program.name ++ ' ' :: Flag.help.long) ++
        " for available commands".toList)
      stderr := line c.message ++
        line (paint .red "Unknown command:".toList ++ ' ' :: c.message) }
  | _ => failure (line c.message)

/-! ### Invocations -/

namespace Invocation

/-- What is answered to an invocation. -/
def respond (settings : Settings) (paint : Painter) : Invocation → Attempt Response
  | resolve source formats json dir =>
    Outputs.answer paint settings source ⟨formats, if json then some true else none, dir⟩
  | encoders true => pure (success (line (Listing.encodersDocument.print .indented)))
  | encoders false => pure (success (Listing.encoders paint))
  | filters => pure (success (Listing.filters paint))
  | version => pure (success (line Program.version))
  | help page => pure (success page.render)
  | usage => pure (failure Help.program.render)
  | refused complaint => pure (complaint.respond paint)

end Invocation

/-- What is answered to arguments in an environment, or everything wrong with the environment. -/
def Program.run (env : Environment) (palette : Palette) (args : List Text) :
    Except (List Environment.Issue) (Attempt Response) :=
  (Settings.load Environment.check env).map fun settings =>
    (Invocation.ofArguments args).respond settings (Style.paint palette)

end Transcode

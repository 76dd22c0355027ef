/-
**What the program answers.**

An answer is what is printed, with an exit code.  Records for the log go to the same streams, if
they are written at all.  That is up to a logger from outside, which is set to a level, a form and
a stream and stamps what it writes with the time; so results about the program hold for any logger.
The plain one here stands in for it where the program runs.

Main definitions:

* `Transcode.Response` — exit code and the text on both streams;
* `Transcode.Response.line`, `Transcode.Response.header` — lines of text, and a titled gap;
* `Transcode.Logger`, `Transcode.Response.withLog` — what becomes of the streams when records are
  written on them too;
* `Transcode.Logger.lines` — a plain logger.
-/

import Transcode.CommandLine.Style
import Transcode.Log

set_option relaxedAutoImplicit false
set_option autoImplicit false

namespace Transcode

/-- What the program answers: an exit code, and text on its two streams. -/
structure Response where
  exitCode : Nat
  stdout : Text
  stderr : Text
  deriving DecidableEq, Repr

/-- What a logger makes of the records of a run: given what else is printed on a stream, all that is
on it in the end.  A logger that writes nothing on a stream leaves what is printed. -/
structure Logger where
  stdout : List Record → Text → Text
  stderr : List Record → Text → Text

namespace Response

/-- A text as a line. -/
def line (s : Text) : Text := s ++ ['\n']

/-- A title with an empty line before and after it. -/
def header (paint : Painter) (title : Text) : Text :=
  line [] ++ line (paint .heading title) ++ line []

/-- Success, with text to print. -/
def success (stdout : Text) : Response := ⟨0, stdout, []⟩

/-- Failure, with text about it. -/
def failure (stderr : Text) : Response := ⟨1, [], stderr⟩

/-- An answer together with what a logger makes of some records. -/
def withLog (logger : Logger) (records : List Record) (r : Response) : Response where
  exitCode := r.exitCode
  stdout := logger.stdout records r.stdout
  stderr := logger.stderr records r.stderr

end Response

/-! ### Records as lines -/

/-- A line on a record, if it is grave enough to be shown. -/
def Record.shown (r : Record) : Text :=
  match r.level with
  | .debug => []
  | .warn => Response.line ("warn: ".toList ++ r.message)
  | .error => Response.line ("error: ".toList ++ r.message)

/-- The logger that shows records on the error stream, before what is printed there. -/
def Logger.lines : Logger where
  stdout := fun _ printed => printed
  stderr := fun records printed => records.flatMap Record.shown ++ printed

end Transcode

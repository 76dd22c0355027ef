/-
**The command that resolves.**

The command shows all outputs of a specification or, if it is refused, nothing but the error.  What
its arguments leave out is taken from the settings; an argument that is given counts even if it is
empty.  How text is painted and how an environment is checked are parameters here.

What is printed is the answer of the command.  Besides, it hands records to the log: those of the
segments, and one more if the specification is refused.  They go to the same two streams, in the
form, at the time and from the level that the logger is set to.

Main definitions:

* `Transcode.PlannedOutput` — an output with the order of its overrides;
* `Transcode.Outputs.respond` — what is answered to a specification;
* `Transcode.Outputs.answer` — what is answered to the arguments of the command;
* `Transcode.Program.resolve` — the same in an environment;
* `Transcode.Program.finish` — how a run of the command ends, records included.
-/

import Transcode.CommandLine.Response
import Transcode.CommandLine.Settings
import Transcode.Json.Printer
import Transcode.Lookup.Run
import Transcode.Specification

set_option relaxedAutoImplicit false
set_option autoImplicit false

namespace Transcode

open Response

/-! ### Planned outputs -/

/-- An output with the override that its settings make first. -/
structure PlannedOutput where
  output : Output
  first : Output.Override
  deriving DecidableEq, Repr

namespace PlannedOutput

/-- The output that some settings describe, with the override they make first. -/
def ofTokens (tokens : List Token) : Except ParseError PlannedOutput :=
  (Output.resolve tokens).map fun o => ⟨o, Output.Override.first tokens⟩

/-- A planned output as a document: the path of the encoded file, and the output. -/
def document (source : Text) (dir : Option Text) (p : PlannedOutput) : Json :=
  .ofFields (("path", .text (p.output.path source dir)) :: p.output.fields p.first)

/-- The lines on a planned output: its number and summary, and the path of the encoded file. -/
def lines (paint : Painter) (source : Text) (dir : Option Text) (p : PlannedOutput)
    (index : Nat) : Text :=
  line (paint .cyan ('#' :: Text.ofNat index) ++ ' ' :: p.output.summary) ++
  line ("  ".toList ++ paint .gray "File:".toList ++ ' ' :: p.output.path source dir)

end PlannedOutput

/-! ### Answers -/

namespace Outputs

/-- The outputs of a source as text.  That there was no specification is mentioned first. -/
def listing (paint : Painter) (source : Text) (spec : Option Text) (dir : Option Text)
    (outputs : List PlannedOutput) : Text :=
  (if spec = none then
    line (paint .blue "i".toList ++ " No specification given, using the default output".toList)
  else []) ++
  header paint ("Outputs for ".toList ++ source) ++
  (outputs.zipIdx.flatMap fun o => o.1.lines paint source dir o.2)

/-- The line on a refused specification. -/
def refusal (paint : Painter) (e : ParseError) : Text :=
  line (paint .red "✗".toList ++ ' ' :: e.code ++ ": ".toList ++ e.message)

/-- The record on a refused specification. -/
def refusedRecord (source : Text) (e : ParseError) : Record where
  level := .error
  origin := "cli".toList
  particulars := .ofFields [("source", .text source), ("code", .text e.code),
    ("details", e.details)]
  message := e.message

/-- What is answered to a specification for a source. -/
def respond (paint : Painter) (source : Text) (spec : Option Text) (format : Format)
    (dir : Option Text) : Attempt Response := do
  match ← Specification.tryResolveWith PlannedOutput.ofTokens PlannedOutput.output source spec with
  | .error e =>
    Attempt.log (refusedRecord source e)
    return failure (refusal paint e)
  | .ok outputs =>
    match format with
    | .json =>
      let documents := Json.list (outputs.map (PlannedOutput.document source dir))
      return success (line (documents.print .indented))
    | .pretty => return success (listing paint source spec dir outputs)

end Outputs

/-! ### Arguments and settings -/

/-- What the command is given besides the source, as far as it is given. -/
structure ResolveArguments where
  formats : Option Text
  /-- Whether documents are asked for. -/
  json : Option Bool
  outputDir : Option Text
  deriving DecidableEq, Repr

/-- What is answered to the arguments of the command.  The settings stand in for what is not
given. -/
def Outputs.answer (paint : Painter) (settings : Settings) (source : Text)
    (args : ResolveArguments) : Attempt Response :=
  respond paint source (args.formats.or settings.formats)
    (if args.json.getD (settings.format == .json) then .json else .pretty)
    (args.outputDir.or settings.outputDir)

namespace Program

/-- What is answered to the arguments of the command in an environment, or the error of the
checker. -/
def resolve {ε : Type} (check : Checker ε) (paint : Painter) (env : Environment) (source : Text)
    (args : ResolveArguments) : Except ε (Attempt Response) :=
  (Settings.load check env).map fun settings => Outputs.answer paint settings source args

/-- How an answer ends in a file system: the exit code and all that is on the streams, with what a
logger makes of the records. -/
def finish (logger : Logger) (fs : FileSystem) (answer : Attempt Response) :
    Except Text (Except ParseError Response) :=
  (answer.trace fs).result.map fun r => r.map (Response.withLog logger (answer.records fs))

end Program

end Transcode

/-
**The program on a real system.**

Arguments and environment come from the system, and so do the answers to what a specification asks
about files; the answer of the program goes to its streams.

Main definitions:

* `Transcode.Lookup.perform` — a computation with its questions asked of the system;
* `main` — the program.
-/

import Transcode.CommandLine.Run

set_option relaxedAutoImplicit false
set_option autoImplicit false

namespace Transcode

/-- Whether a file can be found.  One that exists but cannot be read counts as found. -/
def findsFile (path : Text) : IO Bool := do
  try
    let _ ← IO.FS.Handle.mk (String.ofList path) .read
    return true
  catch
    | .noFileOrDirectory .. | .inappropriateType .. | .invalidArgument .. => return false
    | _ => return true

/-- A computation with its questions asked of the system, and the records that it hands to the
log. -/
def Lookup.perform {α : Type} : Lookup α → IO (α × List Record)
  | done a => return (a, [])
  | fail message => throw (.userError (String.ofList message))
  | ask path resume => do (resume (.ok (← findsFile path))).perform
  | note record rest => do
    let (a, records) ← rest.perform
    return (a, record :: records)

/-- The values of the variables that the program looks at. -/
def readEnvironment : IO Environment := do
  let values ← Settings.declaration.mapM fun v => do
    return (v.name, (← IO.getEnv (String.ofList v.name)).map String.toList)
  return fun name => (values.lookup name).join

/-- The line on an unusable variable. -/
def Environment.Issue.shown (issue : Environment.Issue) : Text :=
  Response.line (issue.variableName ++ ": ".toList ++ issue.message)

end Transcode

open Transcode in
/-- Answers the arguments of the program on its streams. -/
def main (args : List String) : IO UInt32 := do
  let stdout ← IO.getStdout
  let palette := if ← stdout.isTty then Palette.colored else Palette.plain
  match Program.run (← readEnvironment) palette (args.map String.toList) with
  | .error issues =>
    IO.eprint (String.ofList (issues.flatMap Environment.Issue.shown))
    return 1
  | .ok answer =>
    let (ended, records) ← answer.run.perform
    match ended with
    | .error e => throw (.userError (String.ofList e.message))
    | .ok printed =>
      let response := printed.withLog Logger.lines records
      IO.print (String.ofList response.stdout)
      IO.eprint (String.ofList response.stderr)
      return response.exitCode.toUInt32

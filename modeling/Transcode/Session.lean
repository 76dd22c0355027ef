/-
**Sessions: working on one output step by step.**

A session holds an output and the files that exist.  A step changes the output, changes the files,
or asks for a report.  A step that fails changes nothing, and the session goes on.

Main definitions:

* `Transcode.Session`, `Transcode.Session.start` — a session, and one that begins;
* `Transcode.Session.Step`, `Transcode.Session.Reply` — what can be done, and what is answered;
* `Transcode.Session.step`, `Transcode.Session.run` — one step, and several.
-/

import Transcode.Lookup.Run
import Transcode.Specification

set_option relaxedAutoImplicit false
set_option autoImplicit false

namespace Transcode

/-- An output that is worked on, and the files that exist. -/
structure Session where
  output : Output
  files : List Text
  deriving DecidableEq, Repr

namespace Session

/-- A session that begins with the default output. -/
def start (files : List Text) : Session := ⟨.default, files⟩

/-- What can be done in a session. -/
inductive Step where
  /-- Goes back to the default output. -/
  | reset
  /-- Replaces the video by what an encoder starts from. -/
  | encoder (encoder : VideoEncoder)
  /-- Replaces the output. -/
  | load (output : Output)
  /-- Applies a setting that is asked for. -/
  | apply (request : Request)
  /-- Reads the clause at the start of a text and applies it. -/
  | clause (source text : Text)
  /-- Replaces the output by the one that a segment describes. -/
  | segment (source text : Text)
  /-- Makes a file exist. -/
  | touch (file : Text)
  /-- Makes a file not exist. -/
  | remove (file : Text)
  /-- Reports on the output for a source. -/
  | report (source : Text) (dir : Option Text)

/-- What is answered to a step. -/
inductive Reply where
  | done
  /-- The clause that was read and applied, and what follows it. -/
  | applied (token : Token) (rest : Text)
  | report (report : Report)
  | failed (failure : Failure)

/-- Whether a file exists in the session. -/
def hasFile (s : Session) (file : Text) : Bool := s.files.contains file

/-- How a computation ends among the files of the session. -/
def attempt {α : Type} (s : Session) (x : Attempt α) : Except Failure α :=
  match (x.trace (FileSystem.ofFiles s.hasFile)).result with
  | .ok r => r.mapError .refused
  | .error message => .error (.plain message)

/-- Reads the clause at the start of a text and applies it to an output. -/
def applyClause (source text : Text) (o : Output) : Attempt (Output × Token × Text) := do
  let (token, rest) ← Clause.parse source text
  let o' ← Attempt.ofExcept (o.apply token)
  return (o', token, rest)

/-- One step: what is answered, and the session after it. -/
def step (s : Session) : Step → Reply × Session
  | .reset => (.done, { s with output := .default })
  | .encoder e => (.done, { s with output := { s.output with video := .default e } })
  | .load output => (.done, { s with output := output })
  | .apply request =>
    match s.output.applyRequest request with
    | .ok o => (.done, { s with output := o })
    | .error failure => (.failed failure, s)
  | .clause source text =>
    match s.attempt (applyClause source text s.output) with
    | .ok (o, token, rest) => (.applied token rest, { s with output := o })
    | .error failure => (.failed failure, s)
  | .segment source text =>
    match s.attempt (Specification.describe Output.resolve source text) with
    | .ok o => (.done, { s with output := o })
    | .error failure => (.failed failure, s)
  | .touch file => (.done, { s with files := file :: s.files })
  | .remove file => (.done, { s with files := s.files.filter (· != file) })
  | .report source dir => (.report (s.output.report source dir), s)

/-- The answers to several steps, each with the output after it. -/
def run (s : Session) : List Step → List (Reply × Output)
  | [] => []
  | action :: actions =>
    let next := s.step action
    (next.1, next.2.output) :: next.2.run actions

end Session

end Transcode

/-
**Specifications: several outputs in one text.**

The segments of a specification stand between semicolons; segments without anything but white
space do not count.  Each segment describes an output, and a specification without segments
describes the default output.  Segments are resolved in order, each with a record for the log, and
the first that is refused ends it all.  A refusal may also be taken as one of two ways to end; any
other failure, such as that of a file system, is no such way.

Main definitions:

* `Transcode.Specification.segments` — the segments of a text;
* `Transcode.Specification.describe` — what the settings of one segment are made into;
* `Transcode.Specification.resolveWith` — what the settings of every segment are made into;
* `Transcode.Specification.resolve` — the outputs that a specification describes;
* `Transcode.Specification.tryResolve` — the same with a refusal as a value;
* `Transcode.Specification.plan` — the reports on these outputs.

Main results:

* `Transcode.Specification.resolve_of_blank` — a blank specification gives the default output and
  asks for no file.
-/

import Transcode.Clause.Segment
import Transcode.Error.Report
import Transcode.Output.Report
import Transcode.Output.Resolve

set_option relaxedAutoImplicit false
set_option autoImplicit false

namespace Transcode.Specification

/-- The segments of a text: what stands between semicolons and is not blank. -/
def segments (s : Text) : List Text := (s.splitOn ';').filter fun segment => !segment.isBlank

/-- The segments of a specification, or a single empty one where there is none: that describes the
default output too. -/
def resolvedSegments (spec : Option Text) : List Text :=
  match segments (spec.getD []) with
  | [] => [[]]
  | segment :: rest => segment :: rest

/-- What the settings of one segment are made into. -/
def describe {α : Type} (make : List Token → Except ParseError α) (source segment : Text) :
    Attempt α := do
  let tokens ← Segment.parse source segment
  Attempt.ofExcept (make tokens)

/-! ### Records -/

/-- The part of the program that the records on segments come from. -/
def origin : Text := "jobspec".toList

/-- The record on a segment that has been resolved. -/
def resolvedRecord (source : Text) (index : Nat) (encoder : VideoEncoder) : Record where
  level := .debug
  origin := origin
  particulars := .ofFields [("sourceFile", .text source), ("segment", .number index),
    ("encoder", .text encoder.name)]
  message := "Resolved output".toList

/-- The record on a segment that is refused. -/
def refusedRecord (source : Text) (index : Nat) (e : ParseError) : Record where
  level := .warn
  origin := origin
  particulars := .ofFields [("sourceFile", .text source), ("segment", .number index),
    ("code", .text e.code), ("details", e.details)]
  message := "Invalid output specification: ".toList ++ e.message

/-! ### Outputs -/

section

variable {α : Type} (make : List Token → Except ParseError α) (output : α → Output)

/-- What the settings of a numbered segment are made into, with a record on it.  A failure is only
looked at here, for a record if it is a refusal, and raised again. -/
def describeLogged (source : Text) (segment : Text × Nat) : Attempt α :=
  Attempt.rescue (do
    let a ← describe make source segment.1
    Attempt.log (resolvedRecord source segment.2 (output a).video.encoder)
    return a)
  fun failure => do
    match failure with
    | .refused e => Attempt.log (refusedRecord source segment.2 e)
    | .plain _ => pure ()
    Attempt.raise failure

/-- What the settings of every segment are made into, in order.  Without a segment, that is what no
settings are made into. -/
def resolveWith (source : Text) (spec : Option Text) : Attempt (List α) :=
  match segments (spec.getD []) with
  | [] => Attempt.ofExcept ((make []).map fun a => [a])
  | segment :: rest => (segment :: rest).zipIdx.mapM (describeLogged make output source)

/-- The same with a refusal as a value.  Any other failure is raised again. -/
def tryResolveWith (source : Text) (spec : Option Text) :
    Attempt (Except ParseError (List α)) :=
  Attempt.rescue (do return .ok (← resolveWith make output source spec))
    fun
      | .refused e => return .error e
      | .plain message => Attempt.raise (.plain message)

end

/-- The outputs that a specification describes for a source. -/
def resolve (source : Text) (spec : Option Text) : Attempt (List Output) :=
  resolveWith Output.resolve id source spec

/-- The two ways in which a specification can end: it describes outputs, or it is refused. -/
inductive Outcome where
  | outputs (outputs : List Output)
  | refused (error : ParseError)
  deriving DecidableEq, Repr

/-- Outputs or a refusal, as one of two ways to end. -/
def Outcome.ofResult : Except ParseError (List Output) → Outcome
  | .ok os => .outputs os
  | .error e => .refused e

/-- The outputs that a specification describes for a source, or why it is refused.  The refusal is
caught, so this computation itself is never refused. -/
def tryResolve (source : Text) (spec : Option Text) : Attempt Outcome := do
  return .ofResult (← tryResolveWith Output.resolve id source spec)

/-- The reports on the outputs that a specification describes for a source. -/
def plan (source : Text) (spec : Option Text) (dir : Option Text) : Attempt (List Report) := do
  return (← resolve source spec).map fun o => o.report source dir

theorem segments_of_blank {s : Text} (h : s.isBlank = true) : segments s = [] := by
  unfold segments
  rw [List.filter_eq_nil_iff]
  intro segment hmem
  have hjoin : [';'].intercalate (s.splitOn ';') = s := List.intercalate_splitOn ';'
  have hall : ∀ c ∈ segment, Text.isBlankChar c = true := by
    intro c hc
    have hcs : c ∈ s := by
      rw [← hjoin]
      exact Text.mem_intercalate hmem hc
    exact List.all_eq_true.1 h c hcs
  have hb : segment.isBlank = true := List.all_eq_true.2 hall
  simp [hb]

/-- A blank specification gives the default output and asks for no file. -/
theorem resolve_of_blank (source : Text) {s : Text} (h : s.isBlank = true) :
    resolve source (some s) = pure [Output.default] := by
  unfold resolve resolveWith
  rw [Option.getD_some, segments_of_blank h]
  rfl

end Transcode.Specification

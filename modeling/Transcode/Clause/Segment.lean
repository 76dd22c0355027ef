/-
**Segments: the clauses of one output.**

A segment is a sequence of clauses with commas and white space between them, before them and after
them; a clause may also follow another directly.  Reading a segment needs no file system: it gives
the clauses up to the first that cannot be read, and that clause's fault.  Parsing then looks the
tracks up, clause by clause.

Main definitions:

* `Transcode.Segment.isSeparator` — what may stand between clauses;
* `Transcode.Segment.scan` — the clauses of a segment, up to a fault;
* `Transcode.Segment.parse` — the settings of a segment with their tracks looked up.

Main results:

* `Transcode.Segment.scan_of_blank`, `Transcode.Segment.scan_of_ok`,
  `Transcode.Segment.scan_of_error` — the clauses of a segment, by what stands at its front.
-/

import Transcode.Clause.Scan

set_option relaxedAutoImplicit false
set_option autoImplicit false

namespace Transcode

/-- The clauses of a segment, up to the first that cannot be read. -/
structure Segment where
  clauses : List Clause
  fault : Option Fault
  deriving DecidableEq, Repr

namespace Segment

/-- What may stand between clauses: commas and white space. -/
def isSeparator (c : Char) : Bool := c == ',' || Text.isBlankChar c

/-- A text without the separators at its start. -/
def skip (s : Text) : Text := s.dropWhile isSeparator

/-- The clauses of a segment. -/
def scan (s : Text) : Segment :=
  if skip s = [] then ⟨[], none⟩
  else
    match _h : Clause.scan (skip s) with
    | .error fault => ⟨[], some fault⟩
    | .ok (clause, rest) =>
      let more := scan rest
      ⟨clause :: more.clauses, more.fault⟩
termination_by s.length
decreasing_by
  have := Clause.length_scan_lt _h
  have := Text.length_dropWhile_le isSeparator s
  unfold skip at *
  omega

/-- The settings of a segment with their tracks looked up beside a source. -/
def resolve (source : Text) (segment : Segment) : Attempt (List Token) := do
  let tokens ← segment.clauses.mapM (Clause.find source)
  match segment.fault with
  | none => pure tokens
  | some fault => fault.raise source

/-- The settings that the text of a segment gives beside a source. -/
def parse (source s : Text) : Attempt (List Token) := (scan s).resolve source

/-! ### What stands at the front -/

theorem scan_of_blank {s : Text} (h : skip s = []) : scan s = ⟨[], none⟩ := by
  rw [scan, if_pos h]

theorem scan_of_error {s : Text} {fault : Fault} (h : skip s ≠ [])
    (hc : Clause.scan (skip s) = .error fault) : scan s = ⟨[], some fault⟩ := by
  rw [scan, if_neg h]
  split
  · rename_i f hf
    rw [hc] at hf
    rw [Except.error.inj hf]
  · rename_i clause rest hr
    rw [hc] at hr
    exact absurd hr (by simp)

theorem scan_of_ok {s rest : Text} {clause : Clause} (h : skip s ≠ [])
    (hc : Clause.scan (skip s) = .ok (clause, rest)) :
    scan s = ⟨clause :: (scan rest).clauses, (scan rest).fault⟩ := by
  rw [scan, if_neg h]
  split
  · rename_i f hf
    rw [hc] at hf
    exact absurd hf (by simp)
  · rename_i clause' rest' hr
    rw [hc] at hr
    obtain ⟨rfl, rfl⟩ := Prod.mk.inj (Except.ok.inj hr)
    rfl

end Segment

end Transcode

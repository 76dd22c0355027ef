/-
**What segments and specifications yield.**

A segment yields settings exactly if every clause of it can be read and stands for something, and
then these are the settings.  A specification yields outputs exactly if each of its segments yields
settings that describe an output.  So what is known about clauses in the grammar is known about
everything that resolution takes from a text.  A text that semicolons join from parts has these
parts as its segments.

Main definitions:

* `Transcode.Specification.Describes` — a segment describes an output;
* `Transcode.Specification.Outcome.ofResult` — outputs or a refusal, as one of two ways to end.

Main results:

* `Transcode.Segment.denotes_of_mem_scan` — the clauses of a segment are in the grammar;
* `Transcode.Segment.yields_settings_iff` — **the settings that a segment yields**;
* `Transcode.Specification.segments_joined` — the segments of a text that they are joined to;
* `Transcode.Specification.yields_resolve_iff` — **the outputs that a specification yields**;
* `Transcode.Specification.trace_resolve_single` — the run of a specification of one segment;
* `Transcode.Specification.trace_tryResolve` — the run in which a refusal is a value.
-/

import Transcode.Proofs.Clause.Acceptance
import Transcode.Specification

set_option relaxedAutoImplicit false
set_option autoImplicit false

namespace Transcode

/-! ### Segments -/

namespace Segment

/-- The clauses of a segment are in the grammar. -/
theorem denotes_of_mem_scan {s : Text} {clause : Clause} (h : clause ∈ (scan s).clauses) :
    ∃ written, Clause.Denotes written clause := by
  fun_induction scan s with
  | case1 | case2 => exact absurd h (by simp)
  | case3 s hs first rest hfirst more ih =>
      rcases List.mem_cons.1 h with rfl | hmore
      · obtain ⟨written, _, hdenotes, _⟩ := Clause.scan_eq_ok_iff.1 hfirst
        exact ⟨written, hdenotes⟩
      · exact ih hmore

/-- **The settings that a segment yields.** -/
theorem yields_settings_iff {source s : Text} {fs : FileSystem} {tokens : List Token} :
    (parse source s).Yields fs tokens ↔
      (scan s).fault = none ∧
        List.Forall₂ (Clause.StandsFor source fs) (scan s).clauses tokens := by
  unfold parse resolve
  rw [Attempt.yields_bind]
  simp only [Attempt.yields_mapM, Clause.yields_find_iff]
  constructor
  · rintro ⟨found, hfound, hend⟩
    cases hfault : (scan s).fault with
    | none =>
        rw [hfault] at hend
        obtain rfl := Attempt.yields_pure.1 hend
        exact ⟨rfl, hfound⟩
    | some fault =>
        rw [hfault] at hend
        exact absurd hend Clause.not_yields_raise
  · rintro ⟨hnone, hfound⟩
    refine ⟨tokens, hfound, ?_⟩
    rw [hnone]
    exact Attempt.yields_pure.2 rfl

end Segment

/-! ### Specifications -/

namespace Specification

theorem resolvedSegments_ne_nil (spec : Option Text) : resolvedSegments spec ≠ [] := by
  unfold resolvedSegments
  split <;> simp

/-- Parts that are not blank and hold no semicolon are the segments of the text that they are joined
to. -/
theorem segments_joined {parts : List Text} (hne : parts ≠ [])
    (h : ∀ part ∈ parts, ';' ∉ part ∧ part.isBlank = false) :
    segments ([';'].intercalate parts) = parts := by
  unfold segments
  rw [List.splitOn_intercalate _ (fun part hpart => (h part hpart).1) hne, List.filter_eq_self]
  intro part hpart
  simp [(h part hpart).2]

/-- A text that is not blank and holds no semicolon is a single segment. -/
theorem resolvedSegments_single {s : Text} (h : ';' ∉ s) (hblank : s.isBlank = false) :
    resolvedSegments (some s) = [s] := by
  have hsegments := segments_joined (List.cons_ne_nil s []) (by simp [h, hblank])
  rw [List.intercalate_singleton] at hsegments
  unfold resolvedSegments
  rw [Option.getD_some, hsegments]

/-! ### The loop over the segments -/

section Loop

variable {α : Type} {make : List Token → Except ParseError α} {output : α → Output}
  {source : Text} {fs : FileSystem}

/-- The record on a segment, and the failure that is raised again, change nothing of its run. -/
theorem trace_describeLogged (segment : Text × Nat) :
    (describeLogged make output source segment).trace fs =
      (describe make source segment.1).trace fs := by
  unfold describeLogged
  rw [Attempt.trace_rescue_of_raises]
  · conv_rhs => rw [← bind_pure (describe make source segment.1)]
    simp only [Attempt.trace_bind, Attempt.trace_log, Attempt.trace_pure, Trace.ok_andThen,
      List.nil_append]
  · intro failure
    cases failure <;> simp [Attempt.trace_bind]

/-- The run over the segments of a specification makes something of each of them in turn. -/
theorem trace_resolveWith (spec : Option Text) :
    (resolveWith make output source spec).trace fs =
      ((resolvedSegments spec).mapM (describe make source)).trace fs := by
  unfold resolveWith resolvedSegments
  cases segments (spec.getD []) with
  | nil =>
      have hempty : Segment.parse source [] = pure [] := by
        rw [Segment.parse, Segment.scan_of_blank rfl]
        rfl
      simp only [describe, hempty, List.mapM_cons, List.mapM_nil, pure_bind]
      cases make [] <;> rfl
  | cons segment rest =>
      have hfst : (segment :: rest).mapM (describe make source) =
          (segment :: rest).zipIdx.mapM fun s => describe make source s.1 := by
        conv_lhs => rw [← List.zipIdx_map_fst 0 (segment :: rest), List.mapM_map]
        rfl
      rw [hfst]
      exact Attempt.trace_mapM_congr fun s _ => trace_describeLogged s

/-- Where a refusal is a value, the run asks the same and ends in the same way. -/
theorem trace_tryResolveWith (spec : Option Text) :
    (tryResolveWith make output source spec).trace fs =
      ⟨((resolveWith make output source spec).trace fs).result.map .ok,
        ((resolveWith make output source spec).trace fs).probes⟩ := by
  unfold tryResolveWith
  rw [Attempt.trace_rescue, Attempt.trace_map, Trace.ok_andThen]
  match hresult : ((resolveWith make output source spec).trace fs).result with
  | .ok (.ok a) => simp [Except.map]
  | .ok (.error e) => simp [Except.map]
  | .error message => simp [Except.map]

end Loop

/-- A segment describes an output: it yields settings, and these describe the output. -/
def Describes (source : Text) (fs : FileSystem) (segment : Text) (o : Output) : Prop :=
  ∃ tokens, (Segment.parse source segment).Yields fs tokens ∧ Output.resolve tokens = .ok o

theorem trace_resolve (source : Text) (spec : Option Text) (fs : FileSystem) :
    (resolve source spec).trace fs =
      ((resolvedSegments spec).mapM (describe Output.resolve source)).trace fs :=
  trace_resolveWith spec

/-- **The outputs that a specification yields.** -/
theorem yields_resolve_iff {source : Text} {spec : Option Text} {fs : FileSystem}
    {outputs : List Output} :
    (resolve source spec).Yields fs outputs ↔
      List.Forall₂ (Describes source fs) (resolvedSegments spec) outputs := by
  have hrun : (resolve source spec).Yields fs outputs ↔
      ((resolvedSegments spec).mapM (describe Output.resolve source)).Yields fs outputs := by
    rw [Attempt.Yields, trace_resolve]
    rfl
  rw [hrun, Attempt.yields_mapM]
  unfold describe Describes
  simp only [Attempt.yields_bind, Attempt.yields_ofExcept]

/-- A specification of one segment that is read without an error asks what the segment asks, and
ends with what its settings are made into. -/
theorem trace_resolve_single {source s : Text} {spec : Option Text} {fs : FileSystem}
    {tokens : List Token} {probes : List Text} (hs : resolvedSegments spec = [s])
    (h : (Segment.parse source s).trace fs = ⟨.ok (.ok tokens), probes⟩) :
    (resolve source spec).trace fs =
      ⟨.ok ((Output.resolve tokens).map fun o => [o]), probes⟩ := by
  have hdescribe : (describe Output.resolve source s).trace fs =
      ⟨.ok (Output.resolve tokens), probes⟩ := by
    rw [describe, Attempt.trace_bind, h]
    simp
  rw [trace_resolve, hs, List.mapM_cons, Attempt.trace_bind, hdescribe]
  cases Output.resolve tokens <;> simp [Except.map]

/-! ### Refusals as values -/

/-- The run in which a refusal is a value: the same questions, and the same end in another form. -/
theorem trace_tryResolve (source : Text) (spec : Option Text) (fs : FileSystem) :
    (tryResolve source spec).trace fs =
      ⟨((resolve source spec).trace fs).result.map fun r => .ok (Outcome.ofResult r),
        ((resolve source spec).trace fs).probes⟩ := by
  unfold tryResolve resolve
  rw [Attempt.trace_map, trace_tryResolveWith]
  cases ((resolveWith Output.resolve id source spec).trace fs).result <;> rfl

end Specification

end Transcode

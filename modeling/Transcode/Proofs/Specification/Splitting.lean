/-
**Segments are independent, in order, and all or nothing.**

Where two texts are joined by a semicolon, the segments of the whole are those of the first text and
then those of the second, because nothing of a segment reaches over a semicolon.  So the outputs of
the whole are those of the two texts, and so is what is asked; only that the second text has no turn
if the first is refused.  A text without a segment adds nothing to another one, the default output
included, which it has only alone.

Main definitions:

* `Transcode.Specification.HasSegment` — something between the semicolons of a text is not blank.

Main results:

* `Transcode.Specification.segments_append` — the segments of two texts joined by a semicolon;
* `Transcode.Specification.trace_resolve_append` — **how the run of two texts joined by a semicolon
  ends, and what it asks about**.
-/

import Transcode.Proofs.Specification.Outcome

set_option relaxedAutoImplicit false
set_option autoImplicit false

namespace Transcode.Specification

/-! ### Segments -/

/-- A text has a segment: something between its semicolons is not blank. -/
def HasSegment (s : Text) : Prop := ∃ part ∈ s.splitOn ';', Text.isBlank part = false

theorem segments_eq_nil_iff {s : Text} : segments s = [] ↔ ¬ HasSegment s := by
  unfold segments HasSegment
  rw [List.filter_eq_nil_iff]
  simp

/-- The segments of two texts joined by a semicolon. -/
theorem segments_append (a b : Text) : segments (a ++ ';' :: b) = segments a ++ segments b := by
  unfold segments List.splitOn
  rw [List.splitOnP_append_cons _ _ (by decide), List.filter_append]

theorem resolvedSegments_of_hasSegment {s : Text} (h : HasSegment s) :
    resolvedSegments (some s) = segments s := by
  have hne : segments s ≠ [] := fun hnil => segments_eq_nil_iff.1 hnil h
  unfold resolvedSegments
  rw [Option.getD_some]
  split
  · contradiction
  · rename_i hsegments
    exact hsegments.symm

/-- Texts with the same segments are resolved alike. -/
theorem resolve_congr {s t : Text} (h : segments s = segments t) (source : Text) :
    resolve source (some s) = resolve source (some t) := by
  unfold resolve resolveWith
  rw [Option.getD_some, Option.getD_some, h]

theorem resolve_append_of_not_hasSegment_left {a : Text} (h : ¬ HasSegment a) (source b : Text) :
    resolve source (some (a ++ ';' :: b)) = resolve source (some b) := by
  refine resolve_congr ?_ source
  rw [segments_append, segments_eq_nil_iff.2 h, List.nil_append]

theorem resolve_append_of_not_hasSegment_right {b : Text} (h : ¬ HasSegment b) (source a : Text) :
    resolve source (some (a ++ ';' :: b)) = resolve source (some a) := by
  refine resolve_congr ?_ source
  rw [segments_append, segments_eq_nil_iff.2 h, List.append_nil]

theorem resolve_of_not_hasSegment {s : Text} (h : ¬ HasSegment s) (source : Text) :
    resolve source (some s) = pure [Output.default] := by
  rw [resolve_congr (t := []) (segments_eq_nil_iff.2 h) source]
  exact resolve_of_blank source rfl

/-- Two texts with segments, joined by a semicolon, are resolved one after the other.  Only the
records on the segments of the second one have other numbers. -/
theorem trace_resolve_both {a b : Text} (ha : HasSegment a) (hb : HasSegment b) (source : Text)
    (fs : FileSystem) :
    (resolve source (some (a ++ ';' :: b))).trace fs =
      (do return (← resolve source (some a)) ++ (← resolve source (some b))
        : Attempt (List Output)).trace fs := by
  have hboth : HasSegment (a ++ ';' :: b) := by
    by_contra hnone
    have hnil := segments_eq_nil_iff.2 hnone
    rw [segments_append, List.append_eq_nil_iff] at hnil
    exact segments_eq_nil_iff.1 hnil.1 ha
  rw [trace_resolve, resolvedSegments_of_hasSegment hboth, segments_append, List.mapM_append]
  simp only [Attempt.trace_bind, trace_resolve, resolvedSegments_of_hasSegment ha,
    resolvedSegments_of_hasSegment hb]

/-! ### Runs -/

/-- **How the run of two texts joined by a semicolon ends, and what it asks about.**  If both have a
segment, the second one runs after the first, and not at all if that is refused or a question of it
fails; if one of them has none, the other one runs alone; and if both have none, there is the
default output and no question.  Where a refusal is a value, all this is the same. -/
theorem trace_resolve_append (source : Text) (fs : FileSystem) (a b : Text) :
    let run := fun spec => (resolve source (some spec)).trace fs
    let first := run a
    let second := run b
    (HasSegment a → HasSegment b →
      run (a ++ ';' :: b) =
        match first.result with
        | .ok (.ok outputs) =>
          ⟨second.result.map (Except.map (outputs ++ ·)), first.probes ++ second.probes⟩
        | .ok (.error e) => ⟨.ok (.error e), first.probes⟩
        | .error message => ⟨.error message, first.probes⟩) ∧
    (¬ HasSegment a → HasSegment b → run (a ++ ';' :: b) = second) ∧
    (HasSegment a → ¬ HasSegment b → run (a ++ ';' :: b) = first) ∧
    (¬ HasSegment a → ¬ HasSegment b →
      run (a ++ ';' :: b) = ⟨.ok (.ok [Output.default]), []⟩) ∧
    ∀ spec, (tryResolve source (some spec)).trace fs =
      ⟨(run spec).result.map fun r => .ok (Outcome.ofResult r), (run spec).probes⟩ := by
  intro run first second
  refine ⟨?_, ?_, ?_, ?_, ?_⟩
  · intro ha hb
    refine ((trace_resolve_both ha hb source fs).trans (Attempt.trace_append _ _)).trans ?_
    split <;> rename_i hresult <;> simp only [first, run, second, hresult]
  · intro ha _
    exact congrArg (Attempt.trace fs) (resolve_append_of_not_hasSegment_left ha source b)
  · intro _ hb
    exact congrArg (Attempt.trace fs) (resolve_append_of_not_hasSegment_right hb source a)
  · intro ha hb
    have hdefault := (resolve_append_of_not_hasSegment_left ha source b).trans
      (resolve_of_not_hasSegment hb source)
    exact congrArg (Attempt.trace fs) hdefault
  · exact fun spec => trace_tryResolve source (some spec) fs

/-- A second text that is refused takes the outputs of the first one with it, after both have asked;
and blank segments on either side make no difference. -/
theorem trace_resolve_append_refused :
    let fs := FileSystem.ofFiles fun _ => true
    let run := fun spec => (resolve "film.mkv".toList (some spec)).trace fs
    let a := "at=ac3; ".toList
    let b := ";st=srt,q=99;enc=copy".toList
    let blank := " ; ".toList
    HasSegment a ∧ HasSegment b ∧ ¬ HasSegment blank ∧
      run (a ++ ';' :: b) = ⟨.ok (.error (.outOfRange "q".toList 99 ⟨-12, 51⟩ none)),
        ["film.ac3".toList, "film.srt".toList]⟩ ∧
      run (blank ++ ';' :: b) = run b ∧ run (a ++ ';' :: blank) = run a ∧
      run (blank ++ ';' :: blank) = ⟨.ok (.ok [Output.default]), []⟩ := by
  intro fs run a b blank
  have ha : HasSegment a := ⟨"at=ac3".toList, by decide, by decide⟩
  have hb : HasSegment b := ⟨"enc=copy".toList, by decide, by decide⟩
  have hblank : ¬ HasSegment blank := segments_eq_nil_iff.1 (by decide)
  have hfirst : (run a).result = .ok (.ok [{ Output.default with
      audioTracks := [⟨.external "film.ac3".toList none, false, false⟩] }]) := by
    decide +kernel
  have hsecond : (run b).result = .ok (.error (.outOfRange "q".toList 99 ⟨-12, 51⟩ none)) := by
    decide +kernel
  have hprobes : (run a).probes ++ (run b).probes = ["film.ac3".toList, "film.srt".toList] := by
    decide +kernel
  have hboth := (trace_resolve_append "film.mkv".toList fs a b).1 ha hb
  refine ⟨ha, hb, hblank, ?_, (trace_resolve_append _ fs blank b).2.1 hblank hb,
    (trace_resolve_append _ fs a blank).2.2.1 ha hblank,
    (trace_resolve_append _ fs blank blank).2.2.2.1 hblank hblank⟩
  simp only [run] at hfirst hsecond hprobes
  simp only [hfirst, hsecond, hprobes, Except.map] at hboth
  exact hboth

end Transcode.Specification

/-
**A failing file system shows when it is first needed.**

Everything before the first question of a run is known without a file system, the errors of earlier
clauses and segments included.  So where every question fails, a specification that would ask
nothing ends as it would anywhere else; and one that would ask ends with its first question, and
with the message of the failure.  That message is no error of the specification: on its way out it
passes the look-ups, the readers, and the two handlers for refusals, and each of these hands it on.

Main results:

* `Transcode.Segment.forwards_parse` — reading a segment forwards failures;
* `Transcode.Specification.forwards_resolveWith`, `Transcode.Specification.forwards_tryResolve` — so
  do the handlers of the loop over the segments and of a refusal as a value;
* `Transcode.Specification.trace_resolve_failing` — **a failing file system shows when it is first
  needed**.
-/

import Transcode.Proofs.Lookup.Forwarding
import Transcode.Proofs.Specification.Outcome

set_option relaxedAutoImplicit false
set_option autoImplicit false

namespace Transcode

variable {R : Record → Prop}

/-! ### Look-ups and readers -/

theorem TrackSource.forwards_find (source identifier : Text) :
    Attempt.Forwards R (find source identifier) := by
  unfold find
  split
  · exact .pure _
  · refine .ifFile _ (.pure _) ?_
    split
    · exact .throw _
    · exact .ifFile _ (.pure _) (.throw _)

theorem TrackRef.forwards_find (source : Text) (ref : TrackRef) :
    Attempt.Forwards R (find source ref) := by
  unfold find
  rw [Attempt.map_eq_bind]
  exact (TrackSource.forwards_find source ref.identifier).bind fun _ => .pure _

theorem Clause.forwards_find (source : Text) (clause : Clause) :
    Attempt.Forwards R (clause.find source) := by
  unfold find
  cases clause with
  | audioTracks refs | subtitleTracks refs =>
      exact (Attempt.Forwards.mapM fun ref _ => TrackRef.forwards_find source ref).bind
        fun _ => .pure _
  | _ => exact .pure _

theorem Fault.forwards_raise {α : Type} (source : Text) (fault : Fault) :
    Attempt.Forwards R (fault.raise source : Attempt α) := by
  unfold raise
  exact (Attempt.Forwards.mapM fun ref _ => TrackRef.forwards_find source ref).bind
    fun _ => .throw _

/-- Reading a segment forwards failures, and leaves no records. -/
theorem Segment.forwards_parse (source s : Text) : Attempt.Forwards R (parse source s) := by
  unfold parse resolve
  refine (Attempt.Forwards.mapM fun clause _ => Clause.forwards_find source clause).bind ?_
  intro tokens
  split
  · exact .pure _
  · exact Fault.forwards_raise source _

/-! ### Specifications -/

namespace Specification

section Loop

variable {α : Type} {make : List Token → Except ParseError α} {output : α → Output}

theorem forwards_describe (source segment : Text) :
    Attempt.Forwards R (describe make source segment) :=
  (Segment.forwards_parse source segment).bind fun _ => .ofExcept _

/-- The handler that leaves a record on a refused segment raises every failure again. -/
theorem forwards_describeLogged (source : Text) (segment : Text × Nat) :
    Attempt.Forwards (fun _ => True) (describeLogged make output source segment) := by
  refine .rescue ?_ (fun _ => rfl) fun e => ?_
  · exact (forwards_describe source segment.1).bind fun a => (Attempt.Forwards.log trivial).bind
      fun _ => .pure a
  · exact (Attempt.Forwards.log trivial).bind fun _ => .throw e

theorem forwards_resolveWith (source : Text) (spec : Option Text) :
    Attempt.Forwards (fun _ => True) (resolveWith make output source spec) := by
  unfold resolveWith
  split
  · exact .ofExcept _
  · exact .mapM fun segment _ => forwards_describeLogged source segment

/-- The handler that makes a refusal a value raises every other failure again. -/
theorem forwards_tryResolveWith (source : Text) (spec : Option Text) :
    Attempt.Forwards (fun _ => True) (tryResolveWith make output source spec) := by
  refine .rescue ?_ (fun _ => rfl) fun e => .pure _
  exact (forwards_resolveWith source spec).bind fun _ => .pure _

end Loop

theorem forwards_resolve (source : Text) (spec : Option Text) :
    Attempt.Forwards (fun _ => True) (resolve source spec) :=
  forwards_resolveWith source spec

theorem forwards_tryResolve (source : Text) (spec : Option Text) :
    Attempt.Forwards (fun _ => True) (tryResolve source spec) :=
  (forwards_tryResolveWith source spec).bind fun _ => .pure _

/-- **A failing file system shows when it is first needed.**  A run that asks nothing is the same
where every question fails.  A run that asks something is over there with the message of the
failure, after the question that it asks first in any file system, whether a refusal is a value or
not. -/
theorem trace_resolve_failing (source : Text) (spec : Option Text) (fs : FileSystem)
    (message : Text) :
    let failing := FileSystem.failing message
    let run := (resolve source spec).trace fs
    let tryRun := (tryResolve source spec).trace fs
    (run.probes = [] →
      (resolve source spec).trace failing = run ∧
        (tryResolve source spec).trace failing = tryRun) ∧
      ∀ path rest, run.probes = path :: rest →
        (resolve source spec).trace failing = ⟨.error message, [path]⟩ ∧
          (tryResolve source spec).trace failing = ⟨.error message, [path]⟩ := by
  intro failing run tryRun
  constructor
  · intro hnone
    have hsame : (resolve source spec).trace failing = run := by
      refine Lookup.run_of_agree ?_
      intro path hpath
      have hmem : path ∈ run.probes := hpath
      rw [hnone] at hmem
      exact absurd hmem (by simp)
    refine ⟨hsame, ?_⟩
    rw [trace_tryResolve, hsame]
    exact (trace_tryResolve source spec fs).symm
  · intro path rest hprobes
    have htry : tryRun.probes = path :: rest := by
      rw [← hprobes]
      exact congrArg Trace.probes (trace_tryResolve source spec fs)
    exact ⟨(forwards_resolve source spec).trace_failing hprobes message,
      (forwards_tryResolve source spec).trace_failing htry message⟩

/-- A second segment that is refused keeps the third one from asking, so nothing fails; a track
after a stream number is asked about first, and that fails before the range of a quantizer is looked
at. -/
theorem trace_resolve_failing_late :
    let fs := FileSystem.ofFiles fun _ => false
    let failing := FileSystem.failing "unplugged".toList
    let quiet := some "at=0;enc=aom,q=64;st=srt".toList
    let asking := some "q=20;at=0|1.ac3,q=99;st=srt".toList
    (resolve "film.mkv".toList quiet).trace failing = (resolve "film.mkv".toList quiet).trace fs ∧
      (tryResolve "film.mkv".toList quiet).Yields failing
        (.refused (.outOfRange "q".toList 64 ⟨0, 63⟩ none)) ∧
      (tryResolve "film.mkv".toList asking).trace failing =
        ⟨.error "unplugged".toList, ["film.1.ac3".toList]⟩ := by
  intro fs failing quiet asking
  have hquiet : ((resolve "film.mkv".toList quiet).trace fs).probes = [] := by decide +kernel
  have hrefused : (tryResolve "film.mkv".toList quiet).Yields fs
      (.refused (.outOfRange "q".toList 64 ⟨0, 63⟩ none)) := by
    unfold Attempt.Yields
    decide +kernel
  have hasking : ((resolve "film.mkv".toList asking).trace fs).probes =
      ["film.1.ac3".toList, "film.ac3".toList] := by
    decide +kernel
  obtain ⟨hsame, htry⟩ :=
    (trace_resolve_failing "film.mkv".toList quiet fs "unplugged".toList).1 hquiet
  refine ⟨hsame, ?_,
    ((trace_resolve_failing "film.mkv".toList asking fs "unplugged".toList).2 _ _ hasking).2⟩
  unfold Attempt.Yields
  rw [htry]
  exact hrefused

end Specification

end Transcode

/-
**The order of clauses.**

A specification that is put together from clauses, with commas between them, gives the settings that
the clauses give alone.  So it matters in which order the clauses of one filter stand, because there
the last one counts, and of the encoders the first one; but clauses of different filters may change
places.  The same output is described, or none as before, and the same files are asked about, in
another order.

Main results:

* `Transcode.Specification.trace_resolve_joined` — the run of a specification put together from
  clauses;
* `Transcode.Specification.resolve_reordered` — **clauses of different filters may change places**.
-/

import Transcode.Proofs.Output.Reordering
import Transcode.Proofs.Segment.Joined
import Transcode.Proofs.Specification.Outcome

set_option relaxedAutoImplicit false
set_option autoImplicit false

namespace Transcode.Specification

variable {source : Text} {fs : FileSystem} {clauses clauses' : List (Text × Token)}

/-- A specification put together from clauses ends with what their settings are made into, and asks
what each of the clauses asks alone, in turn. -/
theorem trace_resolve_joined (hne : clauses ≠ [])
    (halone : ∀ clause ∈ clauses, (Clause.parse source clause.1).Yields fs (clause.2, [])) :
    (resolve source (some ([','].intercalate (clauses.map Prod.fst)))).trace fs =
      ⟨.ok ((Output.resolve (clauses.map Prod.snd)).map fun o => [o]),
        clauses.flatMap fun clause => ((Clause.parse source clause.1).trace fs).probes⟩ := by
  have hden : ∀ part ∈ clauses.map Prod.fst, ∃ clause, Clause.Denotes part clause := by
    intro part hpart
    obtain ⟨clause, hclause, rfl⟩ := List.mem_map.1 hpart
    exact Clause.exists_denotes_of_yields (halone clause hclause)
  have hsingle := resolvedSegments_single (Segment.semicolon_not_mem_joined hden)
    (Segment.not_isBlank_joined (by simpa using hne) hden)
  exact trace_resolve_single hsingle (Segment.trace_parse_joined halone)

/-- A specification put together from clauses yields the output that their settings describe, if
they describe one. -/
theorem yields_resolve_joined_iff (hne : clauses ≠ [])
    (halone : ∀ clause ∈ clauses, (Clause.parse source clause.1).Yields fs (clause.2, []))
    {outputs : List Output} :
    (resolve source (some ([','].intercalate (clauses.map Prod.fst)))).Yields fs outputs ↔
      ∃ o, Output.resolve (clauses.map Prod.snd) = .ok o ∧ outputs = [o] := by
  unfold Attempt.Yields
  rw [trace_resolve_joined hne halone]
  cases Output.resolve (clauses.map Prod.snd) <;> simp [Except.map, eq_comm]

/-- **Clauses of different filters may change places.**  Let clauses be given that yield a setting
each, alone, and the same clauses in another order, which keeps the order of those of the same
filter.  Joined by commas, both yield the same outputs, which is a single one or none, and both ask
about the same files. -/
theorem resolve_reordered (hne : clauses ≠ [])
    (halone : ∀ clause ∈ clauses, (Clause.parse source clause.1).Yields fs (clause.2, []))
    (h : Reorders (fun clause => clause.2.filter) clauses clauses') :
    let run := resolve source (some ([','].intercalate (clauses.map Prod.fst)))
    let run' := resolve source (some ([','].intercalate (clauses'.map Prod.fst)))
    (∀ outputs, run.Yields fs outputs ↔ run'.Yields fs outputs) ∧
      (∀ outputs, run.Yields fs outputs → ∃ o, outputs = [o]) ∧
      (run.trace fs).probes.Perm (run'.trace fs).probes := by
  intro run run'
  have hne' : clauses' ≠ [] := by
    rintro rfl
    exact hne h.perm.eq_nil
  have halone' : ∀ clause ∈ clauses', (Clause.parse source clause.1).Yields fs (clause.2, []) := by
    intro clause hclause
    exact halone clause (h.perm.mem_iff.2 hclause)
  have hsettings : Reorders Setting.filter (clauses.map Prod.snd) (clauses'.map Prod.snd) := h.map
  refine ⟨?_, ?_, ?_⟩
  · intro outputs
    rw [yields_resolve_joined_iff hne halone, yields_resolve_joined_iff hne' halone']
    constructor
    · rintro ⟨o, ho, houtputs⟩
      exact ⟨o, Output.resolve_eq_ok_of_reorders hsettings ho, houtputs⟩
    · rintro ⟨o, ho, houtputs⟩
      exact ⟨o, Output.resolve_eq_ok_of_reorders hsettings.symm ho, houtputs⟩
  · intro outputs houtputs
    obtain ⟨o, _, hsingle⟩ := (yields_resolve_joined_iff hne halone).1 houtputs
    exact ⟨o, hsingle⟩
  · rw [trace_resolve_joined hne halone, trace_resolve_joined hne' halone']
    exact h.perm.flatMap_right _

/-- The encoder may be named behind a quantizer that only its range allows, and tracks may be named
anywhere.  Of the two quantizers the last one counts. -/
theorem resolve_reordered_tracks :
    let fs := FileSystem.ofFiles fun path =>
      path == "film.ac3".toList || path == "film.eng.srt".toList
    let audio : Text × Token := ("at=1.ac3-e".toList,
      .audioTracks [⟨.external "film.ac3".toList (some 1), true, false⟩])
    let subtitle : Text × Token := ("st=eng.srt".toList,
      .subtitleTracks [⟨.external "film.eng.srt".toList none, false, false⟩])
    let encoder : Text × Token := ("enc=svt".toList, .videoEncoder .svt)
    let coarse : Text × Token := ("q=60".toList, .quantizer 60)
    let fine : Text × Token := ("q=30".toList, .quantizer 30)
    let run := resolve "film.mkv".toList (some "at=1.ac3-e,q=60,st=eng.srt,enc=svt,q=30".toList)
    let run' := resolve "film.mkv".toList (some "enc=svt,st=eng.srt,q=60,q=30,at=1.ac3-e".toList)
    Reorders (fun clause : Text × Token => clause.2.filter)
        [audio, coarse, subtitle, encoder, fine] [encoder, subtitle, coarse, fine, audio] ∧
      (∃ o : Output, o.video.crf? = some 30 ∧ run.Yields fs [o] ∧ run'.Yields fs [o]) ∧
      (run.trace fs).probes.Perm (run'.trace fs).probes := by
  intro fs audio subtitle encoder coarse fine run run'
  have halone : ∀ clause ∈ [audio, coarse, subtitle, encoder, fine],
      (Clause.parse "film.mkv".toList clause.1).Yields fs (clause.2, []) := by
    unfold Attempt.Yields
    decide +kernel
  have hreorders : Reorders (fun clause : Text × Token => clause.2.filter)
      [audio, coarse, subtitle, encoder, fine] [encoder, subtitle, coarse, fine, audio] := by
    refine ⟨by decide +kernel, ?_⟩
    intro k
    cases k <;> decide +kernel
  obtain ⟨hyields, _, hprobes⟩ := resolve_reordered (by simp) halone hreorders
  have hrun : run.Yields fs [{ Output.ofEncoder .svt with
      video := (Video.default .svt).withCrf 30
      audioTracks := [⟨.external "film.ac3".toList (some 1), true, false⟩]
      subtitleTracks := [⟨.external "film.eng.srt".toList none, false, false⟩] }] := by
    unfold Attempt.Yields
    decide +kernel
  exact ⟨hreorders, ⟨_, rfl, hrun, (hyields _).1 hrun⟩, hprobes⟩

end Transcode.Specification

/-
**What resolving a specification hands to the log.**

Every segment that is resolved leaves a record with its number and its encoder, and the one that is
refused leaves a record with the error.  So the records of a run tell how far it came: those on the
outputs of the segments before the refused one, and one on that.  A blank specification has the
default output without a record.

The loop over the segments serves any way of making something of settings, as long as there is an
output in it.  What it ends with is then known from the outputs of the library.

Main definitions:

* `Transcode.Specification.resolvedRecords` — the records on some outputs;
* `Transcode.Specification.RefusedAfter` — segments are refused after some outputs.

Main results:

* `Transcode.Specification.trace_resolve_of_make` — the outputs of the library, whatever is made of
  settings besides;
* `Transcode.Specification.records_resolveWith_of_yields` — the records on all outputs;
* `Transcode.Specification.exists_refusedAfter` — **the records up to a refused segment**.
-/

import Transcode.Proofs.Lookup.Records
import Transcode.Proofs.Specification.Failing

set_option relaxedAutoImplicit false
set_option autoImplicit false

namespace Transcode.Specification

/-- The records on segments that describe some outputs, the first of which has the number
`first`. -/
def resolvedRecords (source : Text) (first : Nat) (outputs : List Output) : List Record :=
  (outputs.zipIdx first).map fun o => resolvedRecord source o.2 o.1.video.encoder

@[simp] theorem resolvedRecords_nil (source : Text) (first : Nat) :
    resolvedRecords source first [] = [] := rfl

@[simp] theorem resolvedRecords_cons (source : Text) (first : Nat) (o : Output)
    (outputs : List Output) :
    resolvedRecords source first (o :: outputs) =
      resolvedRecord source first o.video.encoder ::
        resolvedRecords source (first + 1) outputs := rfl

/-- Segments are refused with an error after some outputs: these are what the segments before the
refused one describe. -/
inductive RefusedAfter (source : Text) (fs : FileSystem) (e : ParseError) :
    List Text → List Output → Prop where
  | here {segment : Text} {rest : List Text}
      (h : (describe Output.resolve source segment).Refuses fs e) :
      RefusedAfter source fs e (segment :: rest) []
  | there {segment : Text} {rest : List Text} {o : Output} {outputs : List Output}
      (h : Describes source fs segment o) (hrest : RefusedAfter source fs e rest outputs) :
      RefusedAfter source fs e (segment :: rest) (o :: outputs)

variable {α : Type} {make : List Token → Except ParseError α} {output : α → Output}
  {source : Text} {spec : Option Text} {fs : FileSystem}

/-! ### One segment -/

theorem yields_describeLogged_iff {segment : Text × Nat} {a : α} :
    (describeLogged make output source segment).Yields fs a ↔
      (describe make source segment.1).Yields fs a := by
  rw [Attempt.Yields, trace_describeLogged]
  rfl

theorem refuses_describeLogged_iff {segment : Text × Nat} {e : ParseError} :
    (describeLogged make output source segment).Refuses fs e ↔
      (describe make source segment.1).Refuses fs e := by
  rw [Attempt.Refuses, trace_describeLogged]
  rfl

theorem records_describe (segment : Text) : (describe make source segment).records fs = [] :=
  (forwards_describe source segment).records_eq_nil

/-- The record on a segment that is resolved. -/
theorem records_describeLogged_of_yields {segment : Text × Nat} {a : α}
    (h : (describe make source segment.1).Yields fs a) :
    (describeLogged make output source segment).records fs =
      [resolvedRecord source segment.2 (output a).video.encoder] := by
  have hbody : (do
      let a ← describe make source segment.1
      Attempt.log (resolvedRecord source segment.2 (output a).video.encoder)
      return a : Attempt α).Yields fs a :=
    Attempt.yields_bind.2 ⟨a, h, rfl⟩
  rw [describeLogged, Attempt.records_rescue, hbody, Attempt.records_bind_of_yields h,
    records_describe]
  rfl

/-- The record on a segment that is refused. -/
theorem records_describeLogged_of_refuses {segment : Text × Nat} {e : ParseError}
    (h : (describe make source segment.1).Refuses fs e) :
    (describeLogged make output source segment).records fs =
      [refusedRecord source segment.2 e] := by
  have hbody : (do
      let a ← describe make source segment.1
      Attempt.log (resolvedRecord source segment.2 (output a).video.encoder)
      return a : Attempt α).Refuses fs e :=
    Attempt.refuses_bind.2 (Or.inl h)
  rw [describeLogged, Attempt.records_rescue, hbody, Attempt.records_bind_of_refuses h,
    records_describe]
  rfl

/-! ### The outputs in what is made -/

section Make

variable (hmake : ∀ tokens, (make tokens).map output = Output.resolve tokens)

include hmake

/-- An output of the library is the output in what is made of a segment. -/
theorem describe_eq_of_make (segment : Text) :
    describe Output.resolve source segment = do
      return output (← describe make source segment) := by
  have hmap : ∀ r : Except ParseError α,
      Attempt.ofExcept (r.map output) = Attempt.ofExcept r >>= fun a => pure (output a) := by
    intro r
    cases r <;> rfl
  unfold describe
  rw [bind_assoc]
  refine bind_congr ?_
  intro tokens
  rw [← hmake]
  exact hmap (make tokens)

/-- What is made of segments holds the outputs of the library. -/
theorem mapM_describe_of_make (segments : List Text) :
    segments.mapM (describe Output.resolve source) = do
      return (← segments.mapM (describe make source)).map output := by
  induction segments with
  | nil => rfl
  | cons segment segments ih =>
      rw [List.mapM_cons, List.mapM_cons, ih, describe_eq_of_make hmake]
      simp only [bind_assoc, pure_bind, List.map_cons]

/-- **What is made of a specification holds the outputs of the library.** -/
theorem trace_resolve_of_make :
    (resolve source spec).trace fs =
      (do return (← resolveWith make output source spec).map output
        : Attempt (List Output)).trace fs := by
  rw [trace_resolve, mapM_describe_of_make hmake, Attempt.trace_map, Attempt.trace_map,
    trace_resolveWith]

theorem yields_resolve_of_make {as : List α}
    (h : (resolveWith make output source spec).Yields fs as) :
    (resolve source spec).Yields fs (as.map output) := by
  rw [Attempt.Yields, trace_resolve_of_make hmake]
  exact Attempt.yields_bind.2 ⟨as, h, Attempt.yields_pure.2 rfl⟩

theorem refuses_resolve_of_make {e : ParseError}
    (h : (resolveWith make output source spec).Refuses fs e) :
    (resolve source spec).Refuses fs e := by
  rw [Attempt.Refuses, trace_resolve_of_make hmake]
  exact Attempt.refuses_bind.2 (Or.inl h)

theorem describes_of_make {segment : Text} {a : α}
    (h : (describe make source segment).Yields fs a) : Describes source fs segment (output a) := by
  obtain ⟨tokens, htokens, hmade⟩ := Attempt.yields_bind.1 h
  refine ⟨tokens, htokens, ?_⟩
  rw [← hmake, Attempt.yields_ofExcept.1 hmade]
  rfl

theorem refuses_describe_of_make {segment : Text} {e : ParseError}
    (h : (describe make source segment).Refuses fs e) :
    (describe Output.resolve source segment).Refuses fs e := by
  rw [describe_eq_of_make hmake]
  exact Attempt.refuses_bind.2 (Or.inl h)

end Make

/-! ### The loop -/

/-- Segments that are all resolved leave a record each. -/
theorem records_loop_of_yields {segments : List Text} {first : Nat} {as : List α}
    (h : ((segments.zipIdx first).mapM (describeLogged make output source)).Yields fs as) :
    ((segments.zipIdx first).mapM (describeLogged make output source)).records fs =
      resolvedRecords source first (as.map output) := by
  induction segments generalizing first as with
  | nil =>
      obtain rfl := Attempt.yields_pure.1 h
      rfl
  | cons segment segments ih =>
      rw [List.zipIdx_cons, List.mapM_cons] at h ⊢
      obtain ⟨a, ha, h⟩ := Attempt.yields_bind.1 h
      obtain ⟨rest, hrest, h⟩ := Attempt.yields_bind.1 h
      obtain rfl := Attempt.yields_pure.1 h
      rw [Attempt.records_bind_of_yields ha, Attempt.records_bind_of_yields hrest, ih hrest,
        records_describeLogged_of_yields (yields_describeLogged_iff.1 ha)]
      simp

/-- Segments that are not all resolved leave a record each up to the refused one. -/
theorem exists_refusedAfter_of_loop
    (hmake : ∀ tokens, (make tokens).map output = Output.resolve tokens) {segments : List Text}
    {first : Nat} {e : ParseError}
    (h : ((segments.zipIdx first).mapM (describeLogged make output source)).Refuses fs e) :
    ∃ outputs, RefusedAfter source fs e segments outputs ∧
      ((segments.zipIdx first).mapM (describeLogged make output source)).records fs =
        resolvedRecords source first outputs ++
          [refusedRecord source (first + outputs.length) e] := by
  induction segments generalizing first with
  | nil => exact absurd h Attempt.refuses_pure
  | cons segment segments ih =>
      rw [List.zipIdx_cons, List.mapM_cons] at h ⊢
      rcases Attempt.refuses_bind.1 h with hfirst | ⟨a, ha, hrest⟩
      · have hdescribe := refuses_describeLogged_iff.1 hfirst
        refine ⟨[], .here (refuses_describe_of_make hmake hdescribe), ?_⟩
        rw [Attempt.records_bind_of_refuses hfirst, records_describeLogged_of_refuses hdescribe]
        rfl
      · rcases Attempt.refuses_bind.1 hrest with hrest | ⟨_, _, hend⟩
        · have hdescribe := yields_describeLogged_iff.1 ha
          obtain ⟨outputs, houtputs, hrecords⟩ := ih hrest
          refine ⟨output a :: outputs, .there (describes_of_make hmake hdescribe) houtputs, ?_⟩
          rw [Attempt.records_bind_of_yields ha, Attempt.records_bind_of_refuses hrest, hrecords,
            records_describeLogged_of_yields hdescribe]
          simp [Nat.add_comm, Nat.add_left_comm]
        · exact absurd hend Attempt.refuses_pure

/-! ### Specifications -/

/-- The records of a specification that is resolved. -/
theorem records_resolveWith_of_yields {as : List α}
    (h : (resolveWith make output source spec).Yields fs as) :
    (resolveWith make output source spec).records fs =
      if segments (spec.getD []) = [] then [] else resolvedRecords source 0 (as.map output) := by
  unfold resolveWith at h ⊢
  cases hsegments : segments (spec.getD []) with
  | nil => rfl
  | cons segment rest =>
      rw [hsegments] at h
      exact records_loop_of_yields h

/-- **The records of a specification that is refused**: those on the outputs of the segments before,
and one on the refused segment. -/
theorem exists_refusedAfter (hmake : ∀ tokens, (make tokens).map output = Output.resolve tokens)
    {e : ParseError} (h : (resolveWith make output source spec).Refuses fs e) :
    ∃ outputs, RefusedAfter source fs e (segments (spec.getD [])) outputs ∧
      (resolveWith make output source spec).records fs =
        resolvedRecords source 0 outputs ++ [refusedRecord source outputs.length e] := by
  unfold resolveWith at h ⊢
  cases hsegments : segments (spec.getD []) with
  | nil =>
      -- without a segment there is the default output
      have hdefault := hmake []
      rw [hsegments] at h
      cases hnone : make [] with
      | error e' =>
          rw [hnone] at hdefault
          exact absurd hdefault nofun
      | ok a =>
          rw [hnone] at h
          exact absurd (Attempt.refuses_ofExcept.1 h) nofun
  | cons segment rest =>
      rw [hsegments] at h
      simpa only [Nat.zero_add] using exists_refusedAfter_of_loop hmake h

/-! ### Refusals as values -/

theorem yields_tryResolveWith_ok {as : List α} :
    (tryResolveWith make output source spec).Yields fs (.ok as) ↔
      (resolveWith make output source spec).Yields fs as := by
  unfold Attempt.Yields
  rw [trace_tryResolveWith]
  cases ((resolveWith make output source spec).trace fs).result <;> simp [Except.map]

theorem yields_tryResolveWith_error {e : ParseError} :
    (tryResolveWith make output source spec).Yields fs (.error e) ↔
      (resolveWith make output source spec).Refuses fs e := by
  unfold Attempt.Yields Attempt.Refuses
  rw [trace_tryResolveWith]
  cases ((resolveWith make output source spec).trace fs).result <;> simp [Except.map]

/-- Where a refusal is a value, the records are the same. -/
theorem records_tryResolveWith :
    (tryResolveWith make output source spec).records fs =
      (resolveWith make output source spec).records fs := by
  rw [tryResolveWith, Attempt.records_rescue, Attempt.records_bind]
  split <;> split <;> simp

end Transcode.Specification

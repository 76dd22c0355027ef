/-
**What a run hands to the log.**

The records of a composed computation are those of its parts, in order, as far as the parts have a
turn.  A computation that forwards failures hands over only records of the kind it is known to; if
there is no such kind it hands over none.

Main results:

* `Transcode.Attempt.records_bind` — the records of one computation after another;
* `Transcode.Attempt.records_rescue` — the records of a computation with a handler;
* `Transcode.Lookup.Forwards.mem_records` — the records of a computation that forwards failures.
-/

import Transcode.Proofs.Lookup.Forwarding

set_option relaxedAutoImplicit false
set_option autoImplicit false

namespace Transcode

namespace Attempt

variable {α β : Type} {fs : FileSystem}

@[simp] theorem records_pure (a : α) : (pure a : Attempt α).records fs = [] := rfl

@[simp] theorem records_raise (failure : Failure) :
    (raise failure : Attempt α).records fs = [] := by
  cases failure <;> rfl

/-- The second computation hands over its records after the first, if it has a turn. -/
theorem records_bind (x : Attempt α) (f : α → Attempt β) :
    (x >>= f).records fs =
      x.records fs ++
        match (x.trace fs).result with
        | .ok (.ok a) => (f a).records fs
        | _ => [] := by
  refine (Lookup.records_bind fs x.run (ExceptT.bindCont f)).trans ?_
  unfold records trace
  congr 1
  match (Lookup.run fs x.run).result with
  | .ok (.ok a) => rfl
  | .ok (.error e) => rfl
  | .error message => rfl

theorem records_bind_of_yields {x : Attempt α} {f : α → Attempt β} {a : α} (h : x.Yields fs a) :
    (x >>= f).records fs = x.records fs ++ (f a).records fs := by
  rw [records_bind, h]

theorem records_bind_of_refuses {x : Attempt α} {f : α → Attempt β} {e : ParseError}
    (h : x.Refuses fs e) : (x >>= f).records fs = x.records fs := by
  rw [records_bind, h, List.append_nil]

/-- The handler of a computation hands over its records after the computation, if it has a turn. -/
theorem records_rescue (x : Attempt α) (handler : Failure → Attempt α) :
    (rescue x handler).records fs =
      x.records fs ++
        match (x.trace fs).result with
        | .ok (.ok _) => []
        | .ok (.error e) => (handler (.refused e)).records fs
        | .error message => (handler (.plain message)).records fs := by
  unfold rescue records trace
  rw [ExceptT.run_mk, Lookup.records_bind, Lookup.records_caught, Lookup.run_caught]
  congr 1
  match (Lookup.run fs x.run).result with
  | .ok (.ok a) => rfl
  | .ok (.error e) => rfl
  | .error message => rfl

end Attempt

/-- A computation that forwards failures hands over only records of the kind it is known to. -/
theorem Lookup.Forwards.mem_records {R : Record → Prop} {α : Type} {fs : FileSystem} {x : Lookup α}
    (hx : Forwards R x) : ∀ record ∈ x.records fs, R record := by
  induction hx with
  | done a => simp [records]
  | @ask path resume failed _ ih =>
      intro record hrecord
      cases ha : fs path with
      | error message =>
          rw [records, ha, failed] at hrecord
          exact absurd hrecord (by simp [records])
      | ok answer =>
          rw [records, ha] at hrecord
          exact ih answer record hrecord
  | note hnote _ ih =>
      intro record hrecord
      rcases List.mem_cons.1 hrecord with rfl | hrest
      · exact hnote
      · exact ih record hrest

/-- A computation that hands over records of no kind hands over none. -/
theorem Attempt.Forwards.records_eq_nil {α : Type} {fs : FileSystem} {x : Attempt α}
    (hx : Forwards (fun _ => False) x) : x.records fs = [] :=
  List.eq_nil_iff_forall_not_mem.2 (Lookup.Forwards.mem_records hx)

end Transcode

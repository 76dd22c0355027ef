/-
**Computations that pass failures on.**

A question that fails may be dealt with, so that the message of its failure is lost.  A computation
forwards failures if it never does that: it ends with the message of the first question that fails,
and fails for no other reason.  Such a computation cannot get further than its first question where
every question fails, and where none fails it does not fail either.  The records that it hands to
the log are followed along the way.

A handler keeps this up if it raises again what it is not meant for.

Main definitions:

* `Transcode.Lookup.Forwards`, `Transcode.Attempt.Forwards` — a computation forwards failures, and
  hands only records of some kind to the log.

Main results:

* `Transcode.Attempt.Forwards.bind`, `Transcode.Attempt.Forwards.mapM`,
  `Transcode.Attempt.Forwards.rescue` — **computations that forward failures compose**;
* `Transcode.Attempt.Forwards.trace_failing` — where every question fails, such a computation is
  over with its first one;
* `Transcode.Attempt.Forwards.refuses_or_yields` — where no question fails, there is no third way to
  end.
-/

import Transcode.Proofs.Lookup.Refusal

set_option relaxedAutoImplicit false
set_option autoImplicit false

namespace Transcode

variable {α β : Type} {fs : FileSystem} {R : Record → Prop}

/-! ### Trees -/

/-- A computation forwards failures if it ends with the message of the first question that fails,
and fails for no other reason.  All records that it hands to the log are of the kind `R`. -/
inductive Lookup.Forwards (R : Record → Prop) : Lookup α → Prop where
  | done (a : α) : Forwards R (.done a)
  | ask {path : Text} {resume : Except Text Bool → Lookup α}
      (failed : ∀ message, resume (.error message) = .fail message)
      (answered : ∀ answer, Forwards R (resume (.ok answer))) : Forwards R (.ask path resume)
  | note {record : Record} {rest : Lookup α} (hrecord : R record) (hrest : Forwards R rest) :
      Forwards R (.note record rest)

namespace Lookup.Forwards

theorem bind {x : Lookup α} {f : α → Lookup β} (hx : Forwards R x) (hf : ∀ a, Forwards R (f a)) :
    Forwards R (x >>= f) := by
  induction hx with
  | done a => exact hf a
  | ask failed _ ih => exact .ask (fun message => congrArg (· >>= f) (failed message)) ih
  | note hrecord _ ih => exact .note hrecord ih

/-- What follows a computation whose failures are values may fail with the message that it is
given. -/
theorem caught_bind {x : Lookup α} {f : Except Text α → Lookup β} (hx : Forwards R x)
    (hfailed : ∀ message, f (.error message) = fail message)
    (hended : ∀ a, Forwards R (f (.ok a))) : Forwards R (x.caught >>= f) := by
  induction hx with
  | done a => exact hended a
  | ask failed _ ih =>
      refine .ask ?_ ih
      intro message
      exact (congrArg (fun y => y.caught >>= f) (failed message)).trans (hfailed message)
  | note hrecord _ ih => exact .note hrecord ih

theorem isFile (path : Text) : Forwards R (Lookup.isFile path) :=
  .ask (fun _ => rfl) fun answer => .done answer

/-- Where every question fails, the first one is the last. -/
theorem run_failing {x : Lookup α} (hx : Forwards R x) {path : Text} {rest : List Text}
    (h : (x.run fs).probes = path :: rest) (message : Text) :
    x.run (FileSystem.failing message) = ⟨.error message, [path]⟩ := by
  induction hx with
  | done a => exact nomatch h
  | @ask asked resume failed _ _ =>
      obtain ⟨rfl, _⟩ := List.cons.inj h
      rw [run_ask, FileSystem.failing, failed, run_fail]
  | note _ _ ih => exact ih h

/-- Where no question fails, neither does the computation. -/
theorem exists_result {x : Lookup α} (hx : Forwards R x) (has : Text → Bool) :
    ∃ a, (x.run (FileSystem.ofFiles has)).result = .ok a := by
  induction hx with
  | done a => exact ⟨a, rfl⟩
  | @ask path _ _ _ ih => exact ih (has path)
  | note _ _ ih => exact ih

end Lookup.Forwards

/-! ### Computations that may be refused -/

/-- A computation that may be refused forwards failures. -/
def Attempt.Forwards (R : Record → Prop) (x : Attempt α) : Prop := Lookup.Forwards R x.run

namespace Attempt.Forwards

theorem pure (a : α) : Forwards R (Pure.pure a : Attempt α) := .done _

theorem throw (e : ParseError) : Forwards R (MonadExcept.throw e : Attempt α) := .done _

theorem ofExcept (r : Except ParseError α) : Forwards R (Attempt.ofExcept r) := .done r

theorem isFile (path : Text) : Forwards R (liftM (Lookup.isFile path) : Attempt Bool) :=
  (Lookup.Forwards.isFile path).bind fun _ => .done _

theorem log {record : Record} (h : R record) : Forwards R (Attempt.log record) := .note h (.done _)

theorem bind {x : Attempt α} {f : α → Attempt β} (hx : Forwards R x)
    (hf : ∀ a, Forwards R (f a)) : Forwards R (x >>= f) := by
  refine Lookup.Forwards.bind hx ?_
  intro r
  cases r with
  | error e => exact .done _
  | ok a => exact hf a

/-- One computation for each member of a list. -/
theorem mapM {f : α → Attempt β} {as : List α} (hf : ∀ a ∈ as, Forwards R (f a)) :
    Forwards R (as.mapM f) := by
  induction as with
  | nil => exact pure []
  | cons a as ih =>
      rw [List.mapM_cons]
      refine (hf a (by simp)).bind fun b => ?_
      exact (ih fun a' ha' => hf a' (by simp [ha'])).bind fun bs => pure (b :: bs)

/-- Two computations after a question. -/
theorem ifFile (path : Text) {x y : Attempt α} (hx : Forwards R x) (hy : Forwards R y) :
    Forwards R (do if ← Lookup.isFile path then x else y : Attempt α) := by
  refine (isFile path).bind ?_
  intro answer
  cases answer with
  | true => exact hx
  | false => exact hy

/-- **A handler that raises again** every failure but refusals, and deals with these without losing
a failure of its own. -/
theorem rescue {x : Attempt α} {handler : Failure → Attempt α} (hx : Forwards R x)
    (hplain : ∀ message, handler (.plain message) = raise (.plain message))
    (hrefused : ∀ e, Forwards R (handler (.refused e))) :
    Forwards R (Attempt.rescue x handler) := by
  refine Lookup.Forwards.caught_bind hx ?_ ?_
  · intro message
    exact congrArg ExceptT.run (hplain message)
  · intro r
    cases r with
    | error e => exact hrefused e
    | ok a => exact .done _

/-- **Where every question fails**, a computation that would ask something is over with its first
question, and its end is the failure of that. -/
theorem trace_failing {x : Attempt α} (hx : Forwards R x) {path : Text} {rest : List Text}
    (h : (x.trace fs).probes = path :: rest) (message : Text) :
    x.trace (FileSystem.failing message) = ⟨.error message, [path]⟩ :=
  Lookup.Forwards.run_failing hx h message

/-- A handler that answers in place of a failed question loses the failure. -/
example : (Attempt.rescue (liftM (Lookup.isFile [])) fun _ => return false).trace
    (FileSystem.failing []) = ⟨.ok (.ok false), [[]]⟩ := rfl

/-- Where no question fails, a computation is refused or ends with a value. -/
theorem refuses_or_yields {x : Attempt α} (hx : Forwards R x) (has : Text → Bool) :
    (∃ e, x.Refuses (FileSystem.ofFiles has) e) ∨ ∃ a, x.Yields (FileSystem.ofFiles has) a := by
  obtain ⟨r, hr⟩ := Lookup.Forwards.exists_result hx has
  cases r with
  | error e => exact Or.inl ⟨e, hr⟩
  | ok a => exact Or.inr ⟨a, hr⟩

end Attempt.Forwards

end Transcode

/-
**Running computations in a file system.**

A file system answers whether a path exists, or fails with a message.  A run takes what a
computation is told from a file system, and keeps the paths asked about and the records handed to
the log.

Main definitions:

* `Transcode.FileSystem` — a file system, with `FileSystem.ofFiles` for one that never fails and
  `FileSystem.failing` for one that always does;
* `Transcode.Trace` — how a run ended and what it asked about;
* `Transcode.Lookup.run` — the run of a computation in a file system;
* `Transcode.Lookup.records` — the records that are handed to the log in a run;
* `Transcode.Attempt.trace`, `Transcode.Attempt.records` — the same for computations that may
  refuse.

Main results:

* `Transcode.Lookup.run_pure`, `Transcode.Lookup.run_ask`, `Transcode.Lookup.run_bind` — the run
  of a composed computation is the runs of its parts, one after the other;
* `Transcode.Lookup.run_caught` — the run of a computation whose failures are values;
* `Transcode.Lookup.records_bind` — the records of a composed computation.
-/

import Transcode.Lookup.Basic

set_option relaxedAutoImplicit false
set_option autoImplicit false

namespace Transcode

/-- What a file system answers when it is asked whether a path exists: yes or no, or a message
that the question failed. -/
abbrev FileSystem := Text → Except Text Bool

namespace FileSystem

/-- The file system in which exactly the given paths exist. -/
def ofFiles (has : Text → Bool) : FileSystem := fun path => .ok (has path)

/-- The file system in which every question fails with the same message. -/
def failing (message : Text) : FileSystem := fun _ => .error message

end FileSystem

/-- How a run ended, with the paths that it asked about, in order and with repeats. -/
structure Trace (α : Type) where
  /-- The value of the run, or the message of its failure. -/
  result : Except Text α
  /-- The paths asked about. -/
  probes : List Text
  deriving Repr

namespace Trace

/-- The run of a computation that goes on with the value of another one. -/
def andThen {α β : Type} (t : Trace α) (next : α → Trace β) : Trace β :=
  match t.result with
  | .error message => ⟨.error message, t.probes⟩
  | .ok a => ⟨(next a).result, t.probes ++ (next a).probes⟩

@[simp] theorem ok_andThen {α β : Type} (a : α) (probes : List Text) (next : α → Trace β) :
    (⟨.ok a, probes⟩ : Trace α).andThen next =
      ⟨(next a).result, probes ++ (next a).probes⟩ := rfl

end Trace

namespace Lookup

/-- The run of a computation in a file system. -/
def run {α : Type} (fs : FileSystem) : Lookup α → Trace α
  | done a => ⟨.ok a, []⟩
  | fail message => ⟨.error message, []⟩
  | ask path resume =>
    ⟨((resume (fs path)).run fs).result, path :: ((resume (fs path)).run fs).probes⟩
  | note _ rest => rest.run fs

@[simp] theorem run_pure {α : Type} (fs : FileSystem) (a : α) :
    (pure a : Lookup α).run fs = ⟨.ok a, []⟩ := rfl

@[simp] theorem run_fail {α : Type} (fs : FileSystem) (message : Text) :
    (fail message : Lookup α).run fs = ⟨.error message, []⟩ := rfl

theorem run_ask {α : Type} (fs : FileSystem) (path : Text)
    (resume : Except Text Bool → Lookup α) :
    (ask path resume).run fs =
      ⟨((resume (fs path)).run fs).result, path :: ((resume (fs path)).run fs).probes⟩ := rfl

@[simp] theorem run_note {α : Type} (fs : FileSystem) (record : Record) (rest : Lookup α) :
    (note record rest).run fs = rest.run fs := rfl

/-- A composed computation runs its parts one after the other. -/
theorem run_bind {α β : Type} (fs : FileSystem) (x : Lookup α) (f : α → Lookup β) :
    (x >>= f).run fs = (x.run fs).andThen fun a => (f a).run fs := by
  induction x with
  | done a => rfl
  | fail message => rfl
  | ask path resume ih =>
      rw [ask_bind, run_ask, run_ask, ih]
      cases h : ((resume (fs path)).run fs).result <;> simp [Trace.andThen, h]
  | note record rest ih => rw [note_bind, run_note, run_note, ih]

/-- Where failures are values, the same is asked, and a message is one of two values to end with. -/
theorem run_caught {α : Type} (fs : FileSystem) (x : Lookup α) :
    x.caught.run fs = ⟨.ok (x.run fs).result, (x.run fs).probes⟩ := by
  induction x with
  | done a => rfl
  | fail message => rfl
  | ask path resume ih => rw [caught, run_ask, run_ask, ih]
  | note record rest ih => rw [caught, run_note, run_note, ih]

/-! ### Records -/

/-- The records that are handed to the log in a run, in order. -/
def records {α : Type} (fs : FileSystem) : Lookup α → List Record
  | done _ => []
  | fail _ => []
  | ask path resume => (resume (fs path)).records fs
  | note record rest => record :: rest.records fs

/-- The second part of a computation hands over its records after the first, if it has a turn. -/
theorem records_bind {α β : Type} (fs : FileSystem) (x : Lookup α) (f : α → Lookup β) :
    (x >>= f).records fs =
      x.records fs ++
        match (x.run fs).result with
        | .ok a => (f a).records fs
        | .error _ => [] := by
  induction x with
  | done a => rfl
  | fail message => rfl
  | ask path resume ih => exact ih (fs path)
  | note record rest ih => exact congrArg (record :: ·) ih

theorem records_caught {α : Type} (fs : FileSystem) (x : Lookup α) :
    x.caught.records fs = x.records fs := by
  induction x with
  | done a => rfl
  | fail message => rfl
  | ask path resume ih => exact ih (fs path)
  | note record rest ih => exact congrArg (record :: ·) ih

end Lookup

namespace Attempt

/-- The run of a computation in a file system: how it ends, and which paths it asks about. -/
def trace {α : Type} (fs : FileSystem) (x : Attempt α) : Trace (Except ParseError α) := x.run.run fs

/-- The records that are handed to the log in the run of a computation. -/
def records {α : Type} (fs : FileSystem) (x : Attempt α) : List Record := x.run.records fs

end Attempt

end Transcode

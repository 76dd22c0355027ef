/-
**Computations that ask which files exist.**

Resolving a specification may have to know whether a file exists.  Such a computation is a tree:
it is done, it fails, it asks about one path and goes on with what it is told, or it hands a record
to the log and goes on.  What it is told may be that the question failed, and a computation may pass
such a failure on or deal with it.  The tree itself knows no file system;
`Transcode.Lookup.Run` runs it in one.  So what is asked, and in which order, is a property of the
tree, and where two file systems tell it the same the runs are the same.

Main definitions:

* `Transcode.Lookup` — the computations, a lawful monad;
* `Transcode.Lookup.isFile` — asking about one path, where a failing question is a failure;
* `Transcode.Lookup.caught` — a computation whose failures are values;
* `Transcode.Attempt` — computations that may also refuse the specification;
* `Transcode.Attempt.raise`, `Transcode.Attempt.rescue` — failing, and dealing with a failure of
  either kind.

Main results:

* `Transcode.Lookup.pure_bind`, `Transcode.Lookup.ask_bind` — how one computation follows another.
-/

import Transcode.Error.Basic
import Transcode.Log

set_option relaxedAutoImplicit false
set_option autoImplicit false

namespace Transcode

/-- A computation that may ask whether paths exist before it is done, may hand records to the log,
and may fail with a message. -/
inductive Lookup (α : Type) where
  | done (value : α)
  | fail (message : Text)
  /-- Asks about a path, and goes on with the answer or with the message that the question
  failed. -/
  | ask (path : Text) (resume : Except Text Bool → Lookup α)
  | note (record : Record) (rest : Lookup α)

namespace Lookup

/-- One computation followed by another that uses its value. -/
protected def bind {α β : Type} : Lookup α → (α → Lookup β) → Lookup β
  | done a, f => f a
  | fail message, _ => fail message
  | ask path resume, f => ask path fun told => (resume told).bind f
  | note record rest, f => note record (rest.bind f)

instance : Monad Lookup where
  pure := done
  bind := Lookup.bind

@[simp] theorem fail_bind {α β : Type} (message : Text) (f : α → Lookup β) :
    fail message >>= f = fail message := rfl

@[simp] theorem ask_bind {α β : Type} (path : Text) (resume : Except Text Bool → Lookup α)
    (f : α → Lookup β) : ask path resume >>= f = ask path fun told => resume told >>= f := rfl

@[simp] theorem note_bind {α β : Type} (record : Record) (rest : Lookup α) (f : α → Lookup β) :
    note record rest >>= f = note record (rest >>= f) := rfl

theorem pure_bind {α β : Type} (a : α) (f : α → Lookup β) : pure a >>= f = f a := rfl

theorem bind_pure {α : Type} (x : Lookup α) : x >>= pure = x := by
  induction x with
  | done a => rfl
  | fail message => rfl
  | ask path resume ih => simp [ih]
  | note record rest ih => simp [ih]

theorem bind_assoc {α β γ : Type} (x : Lookup α) (f : α → Lookup β) (g : β → Lookup γ) :
    x >>= f >>= g = x >>= fun a => f a >>= g := by
  induction x with
  | done a => rfl
  | fail message => rfl
  | ask path resume ih => simp [ih]
  | note record rest ih => simp [ih]

instance : LawfulMonad Lookup :=
  LawfulMonad.mk' Lookup bind_pure pure_bind bind_assoc

/-- Asks whether a path exists.  If the question fails, so does the computation. -/
def isFile (path : Text) : Lookup Bool :=
  ask path fun
    | .ok answer => pure answer
    | .error message => fail message

/-- Hands a record to the log. -/
def log (record : Record) : Lookup Unit := note record (pure ())

/-- A computation that does not fail: where it did, the message is its value. -/
def caught {α : Type} : Lookup α → Lookup (Except Text α)
  | done a => pure (.ok a)
  | fail message => pure (.error message)
  | ask path resume => ask path fun told => (resume told).caught
  | note record rest => note record rest.caught

end Lookup

/-- A computation that may ask whether paths exist, and may refuse the specification. -/
abbrev Attempt := ExceptT ParseError Lookup

namespace Attempt

/-- The computation that asks for no file. -/
def ofExcept {α : Type} (r : Except ParseError α) : Attempt α := ExceptT.mk (pure r)

/-- Hands a record to the log. -/
def log (record : Record) : Attempt Unit := liftM (Lookup.log record)

/-- Fails: the specification is refused, or something else went wrong. -/
def raise {α : Type} : Failure → Attempt α
  | .refused e => throw e
  | .plain message => liftM (Lookup.fail message : Lookup α)

/-- A computation with a handler for its failures, which is told what failed and may deal with it or
raise it again.  Failures of the handler itself are not handled. -/
def rescue {α : Type} (x : Attempt α) (handler : Failure → Attempt α) : Attempt α :=
  ExceptT.mk do
    match ← x.run.caught with
    | .ok (.ok a) => return .ok a
    | .ok (.error e) => (handler (.refused e)).run
    | .error message => (handler (.plain message)).run

end Attempt

end Transcode

/-
**How a run of a computation ends.**

A computation that may refuse the specification, run in a file system that may fail, ends in one of
three ways: with a value, with a refusal, or with the message of another failure.  The run
of a composed computation is put together from the runs of its parts, and it ends with a value
exactly when its parts do.  The file system is arbitrary throughout.

Main definitions:

* `Transcode.FileSystem.hasFile` — the files of a file system;
* `Transcode.Attempt.Yields` — the run of a computation ends with a value;
* `Transcode.Attempt.reword` — a computation that refuses in other words.

Main results:

* `Transcode.Lookup.run_of_agree` — a run depends on what it is told;
* `Transcode.Attempt.trace_bind` — the run of one computation after another;
* `Transcode.Attempt.yields_mapM` — **one computation for each member of a list**;
* `Transcode.Attempt.trace_mapM` — what such computations ask about;
* `Transcode.Attempt.trace_append` — two lists that are computed one after the other;
* `Transcode.Attempt.trace_rescue` — a computation with a handler for its failures;
* `Transcode.Attempt.trace_ifFile`, `Transcode.Attempt.yields_ifFile` — a computation that depends
  on one question.
-/

import Mathlib.Data.List.Forall2
import Transcode.Lookup.Run

set_option relaxedAutoImplicit false
set_option autoImplicit false

namespace Transcode

/-! ### Lists that are related member by member -/

/-- In lists that are related member by member, every member of the second is related to one of the
first. -/
theorem exists_of_mem_of_forall₂ {α β : Type} {R : α → β → Prop} {as : List α} {bs : List β}
    (h : List.Forall₂ R as bs) {b : β} (hb : b ∈ bs) : ∃ a ∈ as, R a b := by
  induction h with
  | nil => exact absurd hb (by simp)
  | cons hab _ ih =>
      rcases List.mem_cons.1 hb with rfl | hb
      · exact ⟨_, by simp, hab⟩
      · obtain ⟨a, ha, hab⟩ := ih hb
        exact ⟨a, by simp [ha], hab⟩

/-- If something is related to every member of a list, some list is related to it member by
member. -/
theorem exists_forall₂_of_forall_mem {α β : Type} {R : α → β → Prop} {bs : List β}
    (h : ∀ b ∈ bs, ∃ a, R a b) : ∃ as, List.Forall₂ R as bs := by
  induction bs with
  | nil => exact ⟨[], .nil⟩
  | cons b bs ih =>
      obtain ⟨a, hab⟩ := h b (by simp)
      obtain ⟨as, has⟩ := ih fun b hb => h b (by simp [hb])
      exact ⟨a :: as, .cons hab has⟩

/-! ### File systems -/

/-- Whether a path exists.  A path about which the question fails does not count as a file. -/
def FileSystem.hasFile (fs : FileSystem) (path : Text) : Bool := fs path matches .ok true

theorem FileSystem.hasFile_eq_true_iff {fs : FileSystem} {path : Text} :
    fs.hasFile path = true ↔ fs path = .ok true := by
  unfold hasFile
  split <;> simp_all

@[simp] theorem FileSystem.ofFiles_eq_ok_iff {has : Text → Bool} {path : Text} {answer : Bool} :
    ofFiles has path = .ok answer ↔ has path = answer := by
  simp [ofFiles]

/-! ### What a run depends on -/

namespace Lookup

variable {α : Type} {fs fs' : FileSystem}

/-- A run depends on what it is told about the paths that it asks about, and on nothing else of the
file system. -/
theorem run_of_agree {x : Lookup α} (h : ∀ path ∈ (x.run fs).probes, fs' path = fs path) :
    x.run fs' = x.run fs := by
  induction x with
  | done a => rfl
  | fail message => rfl
  | ask path resume ih =>
      rw [run_ask] at h
      have hpath : fs' path = fs path := h path (by simp)
      have hmore := ih (fs path) fun later hlater => h later (by simp [hlater])
      rw [run_ask, run_ask, hpath, hmore]
  | note record rest ih => exact ih h

end Lookup

namespace Attempt

variable {α β : Type} {fs : FileSystem}

/-- The run of a computation in a file system ends with a value: nothing fails, and the
specification is not refused. -/
def Yields (fs : FileSystem) (x : Attempt α) (a : α) : Prop := (x.trace fs).result = .ok (.ok a)

/-- A computation yields at most one value. -/
theorem Yields.unique {x : Attempt α} {a b : α} (ha : x.Yields fs a) (hb : x.Yields fs b) :
    a = b := by
  have h : (Except.ok (Except.ok a) : Except Text (Except ParseError α)) = .ok (.ok b) :=
    Eq.trans (Eq.symm ha) hb
  exact Except.ok.inj (Except.ok.inj h)

/-! ### Computations without questions -/

@[simp] theorem trace_pure (a : α) : (pure a : Attempt α).trace fs = ⟨.ok (.ok a), []⟩ := rfl

@[simp] theorem trace_throw (e : ParseError) :
    (throw e : Attempt α).trace fs = ⟨.ok (.error e), []⟩ := rfl

@[simp] theorem trace_ofExcept (r : Except ParseError α) :
    (ofExcept r).trace fs = ⟨.ok r, []⟩ := rfl

@[simp] theorem yields_pure {a b : α} : (pure a : Attempt α).Yields fs b ↔ a = b := by
  simp [Yields]

@[simp] theorem yields_throw {e : ParseError} {a : α} : ¬ (throw e : Attempt α).Yields fs a := by
  simp [Yields]

@[simp] theorem yields_ofExcept {r : Except ParseError α} {a : α} :
    (ofExcept r).Yields fs a ↔ r = .ok a := by
  simp [Yields]

/-! ### One computation after another -/

/-- One computation after another: the second one runs only if the first one ends with a value, and
asks after it. -/
theorem trace_bind (x : Attempt α) (f : α → Attempt β) :
    (x >>= f).trace fs =
      (x.trace fs).andThen fun
        | .ok a => (f a).trace fs
        | .error e => ⟨.ok (.error e), []⟩ := by
  have hrun : (x >>= f).trace fs =
      (x.trace fs).andThen fun r => (ExceptT.bindCont f r).run fs := Lookup.run_bind fs _ _
  rw [hrun]
  congr 1
  funext r
  cases r <;> rfl

/-- A computation whose value is only put in another form asks nothing more. -/
theorem trace_map (x : Attempt α) (f : α → β) :
    (x >>= fun a => pure (f a)).trace fs =
      ⟨(x.trace fs).result.map (Except.map f), (x.trace fs).probes⟩ := by
  rw [trace_bind]
  unfold Trace.andThen
  cases (x.trace fs).result with
  | error message => rfl
  | ok result =>
      cases result with
      | error e => simp [Except.map]
      | ok a => simp [Except.map]

/-- A run that goes on with the value of another one ends with a value exactly when that one
does. -/
theorem result_andThen_eq_ok_iff {t : Trace α} {next : α → Trace β} {b : β} :
    (t.andThen next).result = .ok b ↔ ∃ a, t.result = .ok a ∧ (next a).result = .ok b := by
  unfold Trace.andThen
  split <;> simp_all

theorem yields_bind {x : Attempt α} {f : α → Attempt β} {b : β} :
    (x >>= f).Yields fs b ↔ ∃ a, x.Yields fs a ∧ (f a).Yields fs b := by
  unfold Yields
  rw [trace_bind, result_andThen_eq_ok_iff]
  constructor
  · rintro ⟨r, hr, hb⟩
    cases r with
    | error e =>
        -- after a refusal there is no value
        exact absurd hb (by simp)
    | ok a => exact ⟨a, hr, hb⟩
  · rintro ⟨a, ha, hb⟩
    exact ⟨.ok a, ha, hb⟩

theorem map_eq_bind (f : α → β) (x : Attempt α) :
    ExceptT.map f x = x >>= fun a => pure (f a) := map_eq_pure_bind f x

theorem yields_map {x : Attempt α} {f : α → β} {b : β} :
    Yields fs (ExceptT.map f x) b ↔ ∃ a, x.Yields fs a ∧ f a = b := by
  rw [map_eq_bind, yields_bind]
  simp

/-- **One computation for each member of a list.** -/
theorem yields_mapM {f : α → Attempt β} {as : List α} {bs : List β} :
    (as.mapM f).Yields fs bs ↔ List.Forall₂ (fun a b => (f a).Yields fs b) as bs := by
  induction as generalizing bs with
  | nil => simp [eq_comm]
  | cons a as ih =>
      rw [List.mapM_cons, yields_bind]
      simp only [yields_bind, ih, yields_pure]
      constructor
      · rintro ⟨b, hb, bs', hbs, rfl⟩
        exact .cons hb hbs
      · intro h
        cases h with
        | cons hb hbs => exact ⟨_, hb, _, hbs, rfl⟩

/-- Computations that run alike for each member of a list run alike for all of them. -/
theorem trace_mapM_congr {f g : α → Attempt β} {as : List α}
    (h : ∀ a ∈ as, (f a).trace fs = (g a).trace fs) :
    (as.mapM f).trace fs = (as.mapM g).trace fs := by
  induction as with
  | nil => rfl
  | cons a as ih =>
      have hrest := ih fun b hb => h b (by simp [hb])
      rw [List.mapM_cons, List.mapM_cons]
      simp only [trace_bind, h a (by simp), hrest]

/-- Computations that all end with a value ask one after the other. -/
theorem trace_mapM {f : α → Attempt β} {g : α → β} {as : List α}
    (h : ∀ a ∈ as, (f a).Yields fs (g a)) :
    (as.mapM f).trace fs =
      ⟨.ok (.ok (as.map g)), as.flatMap fun a => ((f a).trace fs).probes⟩ := by
  induction as with
  | nil => rfl
  | cons a as ih =>
      have hfirst : (f a).trace fs = ⟨.ok (.ok (g a)), ((f a).trace fs).probes⟩ := by
        rw [← h a (by simp)]
      rw [List.mapM_cons, trace_bind, hfirst, Trace.ok_andThen]
      simp only [trace_bind, trace_pure, ih fun b hb => h b (by simp [hb]), Trace.ok_andThen]
      simp

/-- Two lists that are computed one after the other.  If the first one is refused, or a question of
it fails, nothing of the second one is asked. -/
theorem trace_append (x y : Attempt (List α)) :
    (do return (← x) ++ (← y) : Attempt (List α)).trace fs =
      match (x.trace fs).result with
      | .ok (.ok as) =>
        ⟨(y.trace fs).result.map (Except.map (as ++ ·)),
          (x.trace fs).probes ++ (y.trace fs).probes⟩
      | .ok (.error e) => ⟨.ok (.error e), (x.trace fs).probes⟩
      | .error message => ⟨.error message, (x.trace fs).probes⟩ := by
  rw [trace_bind]
  simp only [trace_map]
  unfold Trace.andThen
  cases (x.trace fs).result with
  | error message => rfl
  | ok result =>
      cases result with
      | error e => simp
      | ok as => rfl

/-! ### Failures -/

/-- A computation that is never refused, as one that might be. -/
theorem trace_liftM (x : Lookup α) :
    (liftM x : Attempt α).trace fs = ⟨(x.run fs).result.map .ok, (x.run fs).probes⟩ := by
  have hrun : (liftM x : Attempt α).trace fs =
      (x.run fs).andThen fun a => ⟨.ok (.ok a), []⟩ := Lookup.run_bind fs _ _
  rw [hrun]
  unfold Trace.andThen
  split <;> rename_i h <;> simp [h, Except.map]

@[simp] theorem trace_log (record : Record) :
    (log record).trace fs = ⟨.ok (.ok ()), []⟩ := rfl

@[simp] theorem trace_raise_refused (e : ParseError) :
    (raise (.refused e) : Attempt α).trace fs = ⟨.ok (.error e), []⟩ := rfl

@[simp] theorem trace_raise_plain (message : Text) :
    (raise (.plain message) : Attempt α).trace fs = ⟨.error message, []⟩ := rfl

/-- A computation with a handler: the handler runs if the computation fails, and asks after it. -/
theorem trace_rescue (x : Attempt α) (handler : Failure → Attempt α) :
    (rescue x handler).trace fs =
      (⟨.ok (x.trace fs).result, (x.trace fs).probes⟩ : Trace _).andThen fun
        | .ok (.ok a) => ⟨.ok (.ok a), []⟩
        | .ok (.error e) => (handler (.refused e)).trace fs
        | .error message => (handler (.plain message)).trace fs := by
  unfold rescue trace
  rw [ExceptT.run_mk, Lookup.run_bind, Lookup.run_caught]
  congr 1
  funext r
  match r with
  | .ok (.ok a) => rfl
  | .ok (.error e) => rfl
  | .error message => rfl

/-- A handler that raises every failure again and asks for nothing makes no difference to a run. -/
theorem trace_rescue_of_raises {x : Attempt α} {handler : Failure → Attempt α}
    (h : ∀ failure, (handler failure).trace fs = (raise failure : Attempt α).trace fs) :
    (rescue x handler).trace fs = x.trace fs := by
  rw [trace_rescue, Trace.ok_andThen]
  match hresult : (x.trace fs).result with
  | .ok (.ok a) => simp [← hresult]
  | .ok (.error e) => simp [h, ← hresult]
  | .error message => simp [h, ← hresult]

/-! ### Refusals in other words -/

/-- A computation that refuses the specification in other words. -/
def reword (g : ParseError → ParseError) (x : Attempt α) : Attempt α := ExceptT.adapt g x

@[simp] theorem reword_pure (g : ParseError → ParseError) (a : α) :
    reword g (pure a) = pure a := rfl

theorem reword_bind (g : ParseError → ParseError) (x : Attempt α) (f : α → Attempt β) :
    reword g (x >>= f) = reword g x >>= fun a => reword g (f a) := by
  have hx : (reword g x).run = x.run >>= fun r => pure (r.mapError g) := rfl
  have hxf : (reword g (x >>= f)).run =
      (x.run >>= ExceptT.bindCont f) >>= fun r => pure (r.mapError g) := rfl
  have hbind : (reword g x >>= fun a => reword g (f a)).run =
      (x.run >>= fun r => pure (r.mapError g)) >>= ExceptT.bindCont fun a => reword g (f a) := rfl
  refine ExceptT.ext ?_
  rw [hxf, hbind, bind_assoc, bind_assoc]
  congr 1
  funext r
  cases r <;> rfl

/-- A computation for each member of a list refuses in the old words where each of them does. -/
theorem reword_mapM {g : ParseError → ParseError} {f : α → Attempt β} {as : List α}
    (h : ∀ a ∈ as, reword g (f a) = f a) : reword g (as.mapM f) = as.mapM f := by
  induction as with
  | nil => rfl
  | cons a as ih =>
      have has := ih fun b hb => h b (by simp [hb])
      rw [List.mapM_cons, reword_bind, h a (by simp)]
      simp only [reword_bind, has, reword_pure]

/-- What is never refused has no words to change. -/
theorem reword_liftM (g : ParseError → ParseError) (x : Lookup α) :
    reword g (liftM x : Attempt α) = liftM x := by
  have hrun : (reword g (liftM x : Attempt α)).run =
      (x >>= fun a => pure (Except.ok a)) >>= fun r => pure (Except.mapError g r) := rfl
  refine ExceptT.ext ?_
  rw [hrun, bind_assoc]
  rfl

/-- A question is not refused. -/
theorem reword_ifFile (g : ParseError → ParseError) (path : Text) (x y : Attempt α) :
    reword g (do if ← Lookup.isFile path then x else y : Attempt α) =
      (do if ← Lookup.isFile path then reword g x else reword g y : Attempt α) := by
  rw [reword_bind, reword_liftM]
  refine bind_congr ?_
  intro answer
  cases answer <;> rfl

/-- The words of a refusal change neither what is asked nor any other end of a run. -/
theorem trace_reword (g : ParseError → ParseError) (x : Attempt α) :
    (reword g x).trace fs = ⟨(x.trace fs).result.map (Except.mapError g), (x.trace fs).probes⟩ := by
  have hrun : (reword g x).trace fs =
      (x.trace fs).andThen fun r => ⟨.ok (r.mapError g), []⟩ := Lookup.run_bind fs _ _
  rw [hrun]
  unfold Trace.andThen
  split <;> rename_i h <;> simp [h, Except.map]

/-! ### One question -/

/-- One question asks about one path, whatever the answer. -/
theorem trace_isFile (path : Text) :
    (liftM (Lookup.isFile path) : Attempt Bool).trace fs =
      ⟨(fs path).map Except.ok, [path]⟩ := by
  rw [trace_liftM, Lookup.isFile, Lookup.run_ask]
  cases fs path <;> rfl

/-- A computation that depends on whether a file exists asks that first, and goes on with the
answer. -/
theorem trace_ifFile (has : Text → Bool) (path : Text) (x y : Attempt α) :
    (do if ← Lookup.isFile path then x else y : Attempt α).trace (FileSystem.ofFiles has) =
      let rest := (if has path then x else y).trace (FileSystem.ofFiles has)
      ⟨rest.result, path :: rest.probes⟩ := by
  rw [trace_bind, trace_isFile]
  rfl

/-- One question ends with its answer. -/
theorem yields_isFile {path : Text} {answer : Bool} :
    (liftM (Lookup.isFile path) : Attempt Bool).Yields fs answer ↔ fs path = .ok answer := by
  unfold Yields
  rw [trace_isFile]
  cases fs path <;> simp [Except.map]

/-- A computation that depends on whether a file exists. -/
theorem yields_ifFile {path : Text} {x y : Attempt α} {a : α} :
    (do if ← Lookup.isFile path then x else y : Attempt α).Yields fs a ↔
      fs path = .ok true ∧ x.Yields fs a ∨ fs path = .ok false ∧ y.Yields fs a := by
  rw [yields_bind]
  constructor
  · rintro ⟨answer, hanswer, ha⟩
    rw [yields_isFile] at hanswer
    cases answer with
    | true => exact Or.inl ⟨hanswer, ha⟩
    | false => exact Or.inr ⟨hanswer, ha⟩
  · rintro (⟨hanswer, ha⟩ | ⟨hanswer, ha⟩)
    · exact ⟨true, yields_isFile.2 hanswer, ha⟩
    · exact ⟨false, yields_isFile.2 hanswer, ha⟩

end Attempt

end Transcode

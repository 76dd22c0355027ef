/-
**How a run ends with a refusal.**

A run may end with a value, with an error of the specification, or with another failure.  A composed
computation is refused exactly when its first part is, or when its first part ends with a value and
the second is refused after that; several computations are refused because one of them is.

Main definitions:

* `Transcode.Attempt.Refuses` — the run of a computation ends with a refusal;
* `Transcode.ParseError.IsOfText` — an error is about no missing file.

Main results:

* `Transcode.Attempt.refuses_bind` — **the refusal of one computation after another**;
* `Transcode.Attempt.exists_refuses_of_mapM` — the refusal of one computation for each member of a
  list;
* `Transcode.Attempt.refuses_ifFile` — the refusal of a computation that depends on one question.
-/

import Transcode.Proofs.Lookup.Outcome

set_option relaxedAutoImplicit false
set_option autoImplicit false

namespace Transcode

/-- An error that is about no missing file. -/
def ParseError.IsOfText (e : ParseError) : Prop :=
  ∀ identifier path, e ≠ .missingTrackFile identifier path

namespace Attempt

variable {α β : Type} {fs : FileSystem}

/-- The run of a computation in a file system ends with a refusal: nothing else fails, and the
specification is refused. -/
def Refuses (fs : FileSystem) (x : Attempt α) (e : ParseError) : Prop :=
  (x.trace fs).result = .ok (.error e)

@[simp] theorem refuses_pure {a : α} {e : ParseError} : ¬ (pure a : Attempt α).Refuses fs e := by
  simp [Refuses]

@[simp] theorem refuses_throw {e e' : ParseError} :
    (throw e : Attempt α).Refuses fs e' ↔ e = e' := by
  simp [Refuses]

@[simp] theorem refuses_ofExcept {r : Except ParseError α} {e : ParseError} :
    (ofExcept r).Refuses fs e ↔ r = .error e := by
  simp [Refuses]

/-- **The refusal of one computation after another.** -/
theorem refuses_bind {x : Attempt α} {f : α → Attempt β} {e : ParseError} :
    (x >>= f).Refuses fs e ↔ x.Refuses fs e ∨ ∃ a, x.Yields fs a ∧ (f a).Refuses fs e := by
  unfold Refuses
  rw [trace_bind, result_andThen_eq_ok_iff]
  constructor
  · rintro ⟨r, hr, he⟩
    cases r with
    | error e' =>
        obtain rfl : e' = e := Except.error.inj (Except.ok.inj he)
        exact Or.inl hr
    | ok a => exact Or.inr ⟨a, hr, he⟩
  · rintro (he | ⟨a, ha, he⟩)
    · exact ⟨.error e, he, rfl⟩
    · exact ⟨.ok a, ha, he⟩

/-- A computation whose value is only put in another form is refused when it was before. -/
theorem refuses_map {x : Attempt α} {f : α → β} {e : ParseError} :
    Refuses fs (ExceptT.map f x) e ↔ x.Refuses fs e := by
  rw [map_eq_bind, refuses_bind]
  simp

/-- One computation for each member of a list is refused because one of them is. -/
theorem exists_refuses_of_mapM {f : α → Attempt β} {as : List α} {e : ParseError}
    (h : (as.mapM f).Refuses fs e) : ∃ a ∈ as, (f a).Refuses fs e := by
  induction as with
  | nil => exact absurd h refuses_pure
  | cons a as ih =>
      rw [List.mapM_cons, refuses_bind] at h
      rcases h with hfirst | ⟨b, _, hrest⟩
      · exact ⟨a, by simp, hfirst⟩
      · rw [refuses_bind] at hrest
        rcases hrest with hrest | ⟨bs, _, hend⟩
        · obtain ⟨a', ha', he⟩ := ih hrest
          exact ⟨a', by simp [ha'], he⟩
        · exact absurd hend refuses_pure

/-- One question is never refused. -/
theorem not_refuses_isFile {path : Text} {e : ParseError} :
    ¬ (liftM (Lookup.isFile path) : Attempt Bool).Refuses fs e := by
  unfold Refuses
  rw [trace_isFile]
  cases fs path <;> simp [Except.map]

/-- A computation that depends on whether a file exists. -/
theorem refuses_ifFile {path : Text} {x y : Attempt α} {e : ParseError} :
    (do if ← Lookup.isFile path then x else y : Attempt α).Refuses fs e ↔
      fs path = .ok true ∧ x.Refuses fs e ∨ fs path = .ok false ∧ y.Refuses fs e := by
  rw [refuses_bind]
  constructor
  · rintro (hask | ⟨answer, hanswer, he⟩)
    · exact absurd hask not_refuses_isFile
    · cases answer with
      | true => exact Or.inl ⟨yields_isFile.1 hanswer, he⟩
      | false => exact Or.inr ⟨yields_isFile.1 hanswer, he⟩
  · rintro (⟨hanswer, he⟩ | ⟨hanswer, he⟩)
    · exact Or.inr ⟨true, yields_isFile.2 hanswer, he⟩
    · exact Or.inr ⟨false, yields_isFile.2 hanswer, he⟩

end Attempt

end Transcode

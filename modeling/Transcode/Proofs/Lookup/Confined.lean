/-
**Computations that touch only some paths.**

A run is confined to the paths of some kind if it asks about no others, and if it is refused for no
missing file at any other.  What a run ends with is carried along, because what is asked later
depends on it.  Confined computations compose: it is enough that each part is confined, given what
the part before it ends with.  The file system is arbitrary, so a question may also fail.

Main definitions:

* `Transcode.Attempt.Confined` — a run touches only the paths of some kind, and ends with a value
  of some kind if it ends with one.

Main results:

* `Transcode.Attempt.Confined.bind`, `Transcode.Attempt.Confined.mapM`,
  `Transcode.Attempt.Confined.ifFile` — **confined computations compose**.
-/

import Transcode.Proofs.Lookup.Refusal

set_option relaxedAutoImplicit false
set_option autoImplicit false

namespace Transcode.Attempt

variable {α β : Type} {fs : FileSystem} {P : Text → Prop} {Q : α → Prop}

/-- A run touches only paths of the kind `P`, and if it ends with a value, then with one of the kind
`Q`. -/
structure Confined (fs : FileSystem) (P : Text → Prop) (Q : α → Prop) (x : Attempt α) : Prop where
  probes : ∀ path ∈ (x.trace fs).probes, P path
  missing : ∀ identifier path, x.Refuses fs (.missingTrackFile identifier path) → P path
  yields : ∀ a, x.Yields fs a → Q a

namespace Confined

/-- Being confined is a matter of the run. -/
theorem congr {x y : Attempt α} (h : x.trace fs = y.trace fs) (hy : Confined fs P Q y) :
    Confined fs P Q x where
  probes := by
    rw [h]
    exact hy.probes
  missing := by
    unfold Refuses
    rw [h]
    exact hy.missing
  yields := by
    unfold Yields
    rw [h]
    exact hy.yields

theorem pure {a : α} (h : Q a) : Confined fs P Q (Pure.pure a : Attempt α) where
  probes := by simp
  missing := by simp
  yields := by
    intro b hb
    obtain rfl := yields_pure.1 hb
    exact h

theorem throw {e : ParseError} (h : ∀ identifier path, e = .missingTrackFile identifier path →
    P path) : Confined fs P Q (MonadExcept.throw e : Attempt α) where
  probes := by simp
  missing := by
    intro identifier path hrefuses
    exact h identifier path (refuses_throw.1 hrefuses)
  yields := by simp

theorem ofExcept {r : Except ParseError α} (hok : ∀ a, r = .ok a → Q a)
    (herror : ∀ identifier path, r ≠ .error (.missingTrackFile identifier path)) :
    Confined fs P Q (Attempt.ofExcept r) where
  probes := by simp
  missing := by
    intro identifier path hrefuses
    exact absurd (refuses_ofExcept.1 hrefuses) (herror identifier path)
  yields := by
    intro a ha
    exact hok a (yields_ofExcept.1 ha)

end Confined

/-- What a composed computation asks about is asked about by its first part, or by its second part
after the first one ended with a value. -/
theorem mem_probes_bind {x : Attempt α} {f : α → Attempt β} {path : Text}
    (h : path ∈ ((x >>= f).trace fs).probes) :
    path ∈ (x.trace fs).probes ∨ ∃ a, x.Yields fs a ∧ path ∈ ((f a).trace fs).probes := by
  rw [trace_bind] at h
  unfold Trace.andThen at h
  split at h
  · exact Or.inl h
  · rename_i result hresult
    rcases List.mem_append.1 h with hfirst | hsecond
    · exact Or.inl hfirst
    · cases result with
      | error e => exact absurd hsecond (by simp)
      | ok a => exact Or.inr ⟨a, hresult, hsecond⟩

namespace Confined

theorem bind {R : β → Prop} {x : Attempt α} {f : α → Attempt β} (hx : Confined fs P Q x)
    (hf : ∀ a, Q a → Confined fs P R (f a)) : Confined fs P R (x >>= f) where
  probes := by
    intro path hpath
    rcases mem_probes_bind hpath with hfirst | ⟨a, ha, hsecond⟩
    · exact hx.probes path hfirst
    · exact (hf a (hx.yields a ha)).probes path hsecond
  missing := by
    intro identifier path hrefuses
    rcases refuses_bind.1 hrefuses with hfirst | ⟨a, ha, hsecond⟩
    · exact hx.missing identifier path hfirst
    · exact (hf a (hx.yields a ha)).missing identifier path hsecond
  yields := by
    intro b hb
    obtain ⟨a, ha, hb⟩ := yields_bind.1 hb
    exact (hf a (hx.yields a ha)).yields b hb

/-- One confined computation for each member of a list. -/
theorem mapM {R : β → Prop} {as : List α} {f : α → Attempt β}
    (hf : ∀ a ∈ as, Confined fs P R (f a)) :
    Confined fs P (fun bs => ∀ b ∈ bs, R b) (as.mapM f) := by
  induction as with
  | nil => exact pure (by simp)
  | cons a as ih =>
      rw [List.mapM_cons]
      refine (hf a (by simp)).bind ?_
      intro b hb
      refine (ih fun a' ha' => hf a' (by simp [ha'])).bind ?_
      intro bs hbs
      refine pure ?_
      intro b' hb'
      rcases List.mem_cons.1 hb' with rfl | hb'
      · exact hb
      · exact hbs b' hb'

/-- A question about a path of the kind. -/
theorem isFile {path : Text} (h : P path) :
    Confined fs P (fun _ => True) (liftM (Lookup.isFile path) : Attempt Bool) where
  probes := by
    intro asked hasked
    rw [trace_isFile] at hasked
    obtain rfl := List.mem_singleton.1 hasked
    exact h
  missing := fun _ _ hrefuses => absurd hrefuses not_refuses_isFile
  yields := fun _ _ => trivial

/-- Two computations after a question about a path of the kind. -/
theorem ifFile {path : Text} {x y : Attempt α} (h : P path) (hx : Confined fs P Q x)
    (hy : Confined fs P Q y) :
    Confined fs P Q (do if ← Lookup.isFile path then x else y : Attempt α) := by
  refine (isFile h).bind ?_
  intro answer _
  cases answer with
  | true => exact hx
  | false => exact hy

end Confined

end Transcode.Attempt

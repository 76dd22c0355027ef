/-
**Runs in two file systems.**

A computation persists from one file system to another if ending with a value in the first means
ending with a value in the second, and an error that is about no missing file stays the same error.
The values may differ, because the file systems may.  Computations that persist compose, where what
is done with the values of the first parts may rely on what these parts end with.

Main definitions:

* `Transcode.Attempt.Persists` — a computation persists from one file system to another.

Main results:

* `Transcode.Attempt.Persists.bind`, `Transcode.Attempt.Persists.mapM` — **computations that persist
  compose**.
-/

import Transcode.Proofs.Lookup.Refusal

set_option relaxedAutoImplicit false
set_option autoImplicit false

namespace Transcode.Attempt

variable {α β : Type} {f g : FileSystem}

/-- Where a computation ends with a value in one file system, another one ends with a value in the
other file system; and it ends with the same error, unless that is about a missing file. -/
structure Persists (f g : FileSystem) (x y : Attempt α) : Prop where
  yields : ∀ a, x.Yields f a → ∃ b, y.Yields g b
  refuses : ∀ e, e.IsOfText → x.Refuses f e → y.Refuses g e

namespace Persists

/-- Persisting is a matter of the two runs. -/
theorem congr {x x' y y' : Attempt α} (h : x.trace f = x'.trace f) (h' : y.trace g = y'.trace g)
    (hpersists : Persists f g x' y') : Persists f g x y where
  yields := by
    unfold Yields
    rw [h, h']
    exact hpersists.yields
  refuses := by
    unfold Refuses
    rw [h, h']
    exact hpersists.refuses

theorem pure (a b : α) : Persists f g (Pure.pure a : Attempt α) (Pure.pure b) where
  yields := fun _ _ => ⟨b, yields_pure.2 rfl⟩
  refuses := fun _ _ he => absurd he refuses_pure

theorem throw (e : ParseError) :
    Persists f g (MonadExcept.throw e : Attempt α) (MonadExcept.throw e) where
  yields := fun _ ha => absurd ha yields_throw
  refuses := by
    intro e' _ he
    obtain rfl := refuses_throw.1 he
    exact refuses_throw.2 rfl

theorem ofExcept {r r' : Except ParseError α} (hok : ∀ a, r = .ok a → ∃ b, r' = .ok b)
    (herror : ∀ e, r = .error e → r' = .error e) :
    Persists f g (Attempt.ofExcept r) (Attempt.ofExcept r') where
  yields := by
    intro a ha
    obtain ⟨b, hb⟩ := hok a (yields_ofExcept.1 ha)
    exact ⟨b, yields_ofExcept.2 hb⟩
  refuses := fun e _ he => refuses_ofExcept.2 (herror e (refuses_ofExcept.1 he))

theorem bind {x y : Attempt α} {next next' : α → Attempt β} (h : Persists f g x y)
    (hnext : ∀ a b, x.Yields f a → y.Yields g b → Persists f g (next a) (next' b)) :
    Persists f g (x >>= next) (y >>= next') where
  yields := by
    intro c hc
    obtain ⟨a, ha, hc⟩ := yields_bind.1 hc
    obtain ⟨b, hb⟩ := h.yields a ha
    obtain ⟨d, hd⟩ := (hnext a b ha hb).yields c hc
    exact ⟨d, yields_bind.2 ⟨b, hb, hd⟩⟩
  refuses := by
    intro e htext he
    rcases refuses_bind.1 he with hfirst | ⟨a, ha, hsecond⟩
    · exact refuses_bind.2 (Or.inl (h.refuses e htext hfirst))
    · obtain ⟨b, hb⟩ := h.yields a ha
      exact refuses_bind.2 (Or.inr ⟨b, hb, (hnext a b ha hb).refuses e htext hsecond⟩)

/-- One computation for each member of a list. -/
theorem mapM {as : List α} {next : α → Attempt β}
    (h : ∀ a ∈ as, Persists f g (next a) (next a)) :
    Persists f g (as.mapM next) (as.mapM next) := by
  induction as with
  | nil => exact pure [] []
  | cons a as ih =>
      rw [List.mapM_cons]
      refine (h a (by simp)).bind ?_
      intro b b' _ _
      refine (ih fun a' ha' => h a' (by simp [ha'])).bind ?_
      intro bs bs' _ _
      exact pure _ _

end Persists

end Transcode.Attempt

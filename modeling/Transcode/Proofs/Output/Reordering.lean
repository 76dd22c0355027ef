/-
**Settings in another order.**

Settings of different filters are put into different fields, so it does not matter which of them
comes first.  Settings of one filter are put into the same field, and there the last one counts;
of the encoders the first one counts.  So settings may be put in any order that keeps the order of
those of the same filter: they choose the same encoder, they are refused or not as before, and they
describe the same output.

Main definitions:

* `Transcode.Reorders` — a list in another order, which keeps the order of the members of each kind.

Main results:

* `Transcode.Output.put_comm` — settings of different filters commute;
* `Transcode.Reorders.foldl_eq` — steps of which those of different kinds commute lead to the same
  end in any such order;
* `Transcode.Output.resolve_eq_ok_of_reorders` — **settings in another order describe the same
  output**.
-/

import Mathlib.Data.List.Basic
import Transcode.Output.Resolve
import Transcode.Proofs.Output.Fold

set_option relaxedAutoImplicit false
set_option autoImplicit false

namespace Transcode

/-! ### Lists in another order -/

/-- A list in another order: it has the same members, and those of any one kind stand in the same
order. -/
structure Reorders {α κ : Type} [DecidableEq κ] (kind : α → κ) (as bs : List α) : Prop where
  perm : as.Perm bs
  keeps : ∀ k, as.filter (kind · = k) = bs.filter (kind · = k)

namespace Reorders

variable {α β κ σ : Type} [DecidableEq κ] {kind : α → κ} {as bs : List α} {a : α}

theorem symm (h : Reorders kind as bs) : Reorders kind bs as where
  perm := h.perm.symm
  keeps := fun k => (h.keeps k).symm

/-- Members that are put in another form are in another order too, if the form tells the kind. -/
theorem map {kind : β → κ} {f : α → β} (h : Reorders (fun a => kind (f a)) as bs) :
    Reorders kind (as.map f) (bs.map f) where
  perm := h.perm.map f
  keeps := by
    intro k
    rw [List.filter_map, List.filter_map]
    exact congrArg (List.map f) (h.keeps k)

/-- The first member stands behind members of other kinds only, and without it the rest is in
another order. -/
theorem of_cons (h : Reorders kind (a :: as) bs) :
    ∃ front back, bs = front ++ a :: back ∧ (∀ b ∈ front, kind b ≠ kind a) ∧
      Reorders kind as (front ++ back) := by
  have hkeeps := h.keeps (kind a)
  rw [List.filter_cons_of_pos (by simp)] at hkeeps
  obtain ⟨front, back, rfl, hfront, _, _⟩ := List.filter_eq_cons_iff.1 hkeeps.symm
  have hother : ∀ b ∈ front, kind b ≠ kind a := by
    intro b hb
    simpa using hfront b hb
  refine ⟨front, back, rfl, hother, ?_, ?_⟩
  · exact List.Perm.cons_inv (h.perm.trans List.perm_middle)
  · intro k
    have hk := h.keeps k
    by_cases hkind : kind a = k
    · -- the members of that kind all stand behind the first one
      have hnone : front.filter (kind · = k) = [] := by
        rw [List.filter_eq_nil_iff]
        intro b hb
        simpa [← hkind] using hother b hb
      simpa [hnone, hkind] using hk
    · simpa [hkind] using hk

omit [DecidableEq κ] in
/-- A step may be taken before steps of other kinds, if it commutes with each of them. -/
theorem foldl_front {f : σ → α → σ}
    (hcomm : ∀ s a b, kind a ≠ kind b → f (f s a) b = f (f s b) a) {front : List α}
    (hfront : ∀ b ∈ front, kind b ≠ kind a) (back : List α) (s : σ) :
    (front ++ a :: back).foldl f s = (front ++ back).foldl f (f s a) := by
  induction front generalizing s with
  | nil => rfl
  | cons b front ih =>
      have hb := hfront b (by simp)
      rw [List.cons_append, List.foldl_cons, ih (fun c hc => hfront c (by simp [hc])),
        hcomm s b a hb, List.cons_append, List.foldl_cons]

/-- Steps of which those of different kinds commute lead to the same end in another order. -/
theorem foldl_eq {f : σ → α → σ} (hcomm : ∀ s a b, kind a ≠ kind b → f (f s a) b = f (f s b) a)
    (h : Reorders kind as bs) (s : σ) : as.foldl f s = bs.foldl f s := by
  induction as generalizing bs s with
  | nil => rw [h.perm.nil_eq]
  | cons a as ih =>
      obtain ⟨front, back, rfl, hfront, hrest⟩ := h.of_cons
      rw [List.foldl_cons, ih hrest, foldl_front hcomm hfront]

/-- The first value is the same, if only members of one kind have values. -/
theorem findSome?_eq {value? : α → Option β} {k : κ} (hvalue : ∀ a, kind a ≠ k → value? a = none)
    (h : Reorders kind as bs) : as.findSome? value? = bs.findSome? value? := by
  have hfilter : ∀ l : List α, (l.filter (kind · = k)).findSome? value? = l.findSome? value? := by
    intro l
    induction l with
    | nil => rfl
    | cons a l ih =>
        by_cases hkind : kind a = k
        · rw [List.filter_cons_of_pos (by simpa using hkind), List.findSome?_cons,
            List.findSome?_cons, ih]
        · rw [List.filter_cons_of_neg (by simpa using hkind), List.findSome?_cons,
            hvalue a hkind, ih]
  rw [← hfilter as, h.keeps k, hfilter bs]

end Reorders

/-! ### Settings in another order -/

namespace Output

variable {tokens tokens' : List Token}

/-- Settings of different filters commute. -/
theorem put_comm (o : Output) (s t : Token) (h : s.filter ≠ t.filter) :
    (o.put s).put t = (o.put t).put s := by
  obtain ⟨video⟩ := o
  -- by filter: two different fields of the output, the same filter twice, or two of the video
  cases s <;> cases t <;> first | rfl | exact absurd rfl h | (cases video <;> rfl)

/-- Settings in another order choose the same encoder. -/
theorem start_of_reorders (h : Reorders Setting.filter tokens tokens') :
    start tokens = start tokens' := by
  have hencoder : ∀ token : Token, token.filter ≠ .videoEncoder → token.videoEncoder? = none := by
    intro token hother
    cases token with
    | videoEncoder e => exact absurd rfl hother
    | _ => rfl
  rw [start, start, Token.firstEncoder?, Token.firstEncoder?, h.findSome?_eq hencoder]

/-- **Settings in another order describe the same output**, or none as before. -/
theorem resolve_eq_ok_of_reorders (h : Reorders Setting.filter tokens tokens') {o : Output}
    (ho : resolve tokens = .ok o) : resolve tokens' = .ok o := by
  obtain ⟨hnone, hfold⟩ := applyAll_eq_ok_iff.1 ho
  rw [resolve, applyAll_eq_ok_iff, ← start_of_reorders h, ← h.foldl_eq put_comm]
  refine ⟨?_, hfold⟩
  intro token htoken
  exact hnone token (h.perm.mem_iff.2 htoken)

end Output

end Transcode

/-
**Reading the parts of a line.**

A line has several parts with a comma and a blank between them.  A part without a comma ends at the
first one, so it can be read off the line whatever follows, parts with commas included.  A part that
may be left out can be read off as well, if the part that comes next can be told from it.

Main definitions:

* `Transcode.Text.further` — the parts of a line behind the first one;
* `Transcode.Text.BeginOtherwise` — the next part can be told from one that shows a value.

Main results:

* `Transcode.Text.append_further_inj`, `Transcode.Text.further_cons_inj` — **a part without a comma
  is known from the line**;
* `Transcode.Text.further_optional_inj` — and so is one that may be left out.
-/

import Mathlib.Data.List.Basic
import Transcode.Text.Run

set_option relaxedAutoImplicit false
set_option autoImplicit false

namespace Transcode.Text

/-! ### Parts behind the first one -/

/-- What stands behind the first part of a line: every other part, with a comma and a blank before
it. -/
def further (parts : List Text) : Text := parts.flatMap (", ".toList ++ ·)

@[simp] theorem further_nil : further [] = [] := rfl

theorem further_cons (part : Text) (parts : List Text) :
    further (part :: parts) = ", ".toList ++ part ++ further parts := rfl

theorem further_append (parts others : List Text) :
    further (parts ++ others) = further parts ++ further others := List.flatMap_append

theorem intercalate_cons_eq (part : Text) (parts : List Text) :
    ", ".toList.intercalate (part :: parts) = part ++ further parts := by
  induction parts generalizing part with
  | nil => simp
  | cons next parts ih =>
      rw [List.intercalate_cons_cons, ih, further_cons]
      simp

/-- What stands behind a part begins with a comma, if there is anything. -/
theorem stops_further (parts : List Text) : Stops (· != ',') (further parts) := by
  cases parts with
  | nil => simp
  | cons part parts => exact stops_cons.2 rfl

/-! ### Reading a line -/

variable {a b : Text} {r s : List Text}

/-- A part without a comma is known from the line. -/
theorem append_further_inj (ha : ',' ∉ a) (hb : ',' ∉ b) (h : a ++ further r = b ++ further s) :
    a = b ∧ further r = further s :=
  append_inj_of_not_mem ha hb (stops_further r) (stops_further s) h

theorem further_cons_inj (ha : ',' ∉ a) (hb : ',' ∉ b) (h : further (a :: r) = further (b :: s)) :
    a = b ∧ further r = further s := by
  rw [further_cons, further_cons, List.append_assoc, List.append_assoc] at h
  exact append_further_inj ha hb (List.append_cancel_left h)

/-- Parts that do not begin with one that shows a value, but with another one without a comma. -/
def BeginOtherwise {α : Type} (shown : α → Text) (parts : List Text) : Prop :=
  ∃ part rest, parts = part :: rest ∧ ',' ∉ part ∧ ∀ x, shown x ≠ part

/-- A part that may be left out is known from the line, if the next part is no such part. -/
theorem further_optional_inj {α : Type} {shown : α → Text} {x y : Option α}
    (hinj : ∀ {a b}, shown a = shown b → a = b) (hcomma : ∀ a, ',' ∉ shown a)
    (hr : BeginOtherwise shown r) (hs : BeginOtherwise shown s)
    (h : further (x.toList.map shown ++ r) = further (y.toList.map shown ++ s)) :
    x = y ∧ further r = further s := by
  obtain ⟨p, r, rfl, hp, hother⟩ := hr
  obtain ⟨q, s, rfl, hq, hother'⟩ := hs
  cases x with
  | none =>
      cases y with
      | none => exact ⟨rfl, h⟩
      | some b => exact absurd (further_cons_inj hp (hcomma b) h).1.symm (hother b)
  | some a =>
      cases y with
      | none => exact absurd (further_cons_inj (hcomma a) hq h).1 (hother' a)
      | some b =>
          obtain ⟨hshown, hrest⟩ := further_cons_inj (hcomma a) (hcomma b) h
          exact ⟨congrArg some (hinj hshown), hrest⟩

end Transcode.Text

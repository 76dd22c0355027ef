/-
**What settings make of the fields.**

A setting is put into the field of its filter, if the encoder has that field, and into no other.
So after several settings a field holds the last one of its filter, or what it held before.

Main definitions:

* `Transcode.Token.puts?` — a setting as what is put into the field of a filter.

Main results:

* `Transcode.Output.held_put_of_ne`, `Transcode.Output.held_put_self` — what one setting makes of
  the fields;
* `Transcode.Output.held_foldl_put` — **what several settings make of the fields**: the last one
  of a filter counts.
-/

import Transcode.Output.Described
import Transcode.Output.Field

set_option relaxedAutoImplicit false
set_option autoImplicit false

namespace Transcode

/-! ### Last values -/

namespace Token

variable {α β : Type} {value? : Token → Option α}

/-- A setting that is added counts if none of the others has a value. -/
theorem last?_cons (token : Token) (tokens : List Token) :
    last? value? (token :: tokens) = (last? value? tokens).or (value? token) := by
  unfold last?
  rw [List.reverse_cons, List.findSome?_append, List.findSome?_singleton]

/-- Last values in another form. -/
theorem map_last? {f : α → β} {image? : Token → Option β}
    (h : ∀ token, (value? token).map f = image? token) (tokens : List Token) :
    (last? value? tokens).map f = last? image? tokens := by
  induction tokens with
  | nil => rfl
  | cons token tokens ih =>
      rw [last?_cons, last?_cons, ← ih, ← h]
      cases last? value? tokens <;> rfl

/-- There is no last value if there is none at all. -/
theorem last?_eq_none (h : ∀ token, value? token = none) (tokens : List Token) :
    last? value? tokens = none := by
  induction tokens with
  | nil => rfl
  | cons token tokens ih => rw [last?_cons, ih, h, Option.or_none]

/-- What a setting puts into the field of a filter: itself, if it is for that field and the encoder
has it. -/
def puts? (e : VideoEncoder) (f : Filter) (token : Token) : Option Token :=
  if token.filter = f ∧ e.takes f then some token else none

end Token

/-! ### One setting -/

namespace Output

variable {o : Output} {f : Filter}

/-- A setting leaves the fields of other filters alone. -/
theorem held_put_of_ne (o : Output) {token : Token} (h : token.filter ≠ f) :
    (o.put token).held f = o.held f := by
  obtain ⟨video⟩ := o
  -- by filter: a field outside the video configuration, or another field of it
  cases token <;> cases f <;> first | rfl | exact absurd rfl h | (cases video <;> rfl)

/-- A setting is put into the field of its filter, if the encoder has that field. -/
theorem held_put_self (o : Output) (token : Token) :
    (o.put token).held token.filter =
      if o.video.encoder.takes token.filter then some token else o.held token.filter := by
  obtain ⟨video⟩ := o
  cases token <;> first | rfl | (cases video <;> rfl)

/-- What a setting makes of a field. -/
theorem held_put (o : Output) (token : Token) (f : Filter) :
    (o.put token).held f = (token.puts? o.video.encoder f).or (o.held f) := by
  unfold Token.puts?
  by_cases hf : token.filter = f
  · subst hf
    rw [held_put_self]
    cases o.video.encoder.takes token.filter <;> simp
  · rw [held_put_of_ne o hf]
    simp [hf]

/-! ### Several settings -/

/-- **What several settings make of a field**: it holds the last one that is put into it, or what it
held before. -/
theorem held_foldl_put (o : Output) (tokens : List Token) (f : Filter) :
    (tokens.foldl put o).held f =
      (Token.last? (Token.puts? o.video.encoder f) tokens).or (o.held f) := by
  induction tokens generalizing o with
  | nil => rfl
  | cons token tokens ih =>
      rw [List.foldl_cons, ih, encoder_put, held_put, Token.last?_cons, Option.or_assoc]

end Output

end Transcode

/-
**Inclusive ranges of numbers.**

The bounds that the values of a specification must keep to.  Literals are bounded by the width
of the integer they are stored in; settings are bounded by what an encoder accepts.

Main definitions:

* `Transcode.Range` — an inclusive range, with `Range.contains`;
* `Transcode.Range.unsigned8`, `Transcode.Range.signed16`, `Transcode.Range.unsigned32` — the
  ranges of the three widths;
* `Transcode.Range.speed`, `Transcode.Range.grain`, `Transcode.Range.side`,
  `Transcode.Range.bitrate` — the ranges of settings that do not depend on the encoder.
-/

set_option relaxedAutoImplicit false
set_option autoImplicit false

namespace Transcode

/-- An inclusive range of integers. -/
structure Range where
  /-- The least allowed value. -/
  min : Int
  /-- The greatest allowed value. -/
  max : Int
  deriving DecidableEq, Repr, Inhabited

namespace Range

/-- Whether a value lies in the range, its ends included. -/
def contains (r : Range) (value : Int) : Bool := r.min ≤ value && value ≤ r.max

@[simp] theorem contains_iff {r : Range} {value : Int} :
    r.contains value = true ↔ r.min ≤ value ∧ value ≤ r.max := by
  simp [contains]

/-- The values of an unsigned integer of eight bits. -/
def unsigned8 : Range := ⟨0, 255⟩

/-- The values of a signed integer of sixteen bits. -/
def signed16 : Range := ⟨-32768, 32767⟩

/-- The values of an unsigned integer of thirty-two bits. -/
def unsigned32 : Range := ⟨0, 4294967295⟩

/-- Encoder speeds. -/
def speed : Range := ⟨0, 10⟩

/-- Strengths of film grain synthesis. -/
def grain : Range := ⟨0, 64⟩

/-- The width or height of a picture. -/
def side : Range := ⟨64, 4294967295⟩

/-- Audio bitrates in kilobits per second and channel. -/
def bitrate : Range := ⟨1, 4294967295⟩

end Range

end Transcode

/-
**The format of an encoded file: container, bit depth and resolution.**

Main definitions:

* `Transcode.Container` — the file formats, named by their extensions;
* `Transcode.BitDepth` — the sample depths, named by their numerals;
* `Transcode.Resolution` — a width and a height.

Main results:

* `Transcode.Container.ofName?_eq_some_iff`, `Transcode.BitDepth.ofName?_eq_some_iff` — a name names
  exactly the value whose name it is.
-/

import Transcode.Text.Decimal
import Transcode.Catalog.Range

set_option relaxedAutoImplicit false
set_option autoImplicit false

namespace Transcode

/-! ### Containers -/

/-- The container an output is written into. -/
inductive Container where
  | mp4
  | mkv
  deriving DecidableEq, Repr, Inhabited

namespace Container

/-- The containers, in the order in which they are listed. -/
def all : List Container := [mp4, mkv]

/-- The name of a container, which is also the extension of its files. -/
def name : Container → Text
  | mp4 => "mp4".toList
  | mkv => "mkv".toList

/-- The container that a name stands for; case matters. -/
def ofName? (s : Text) : Option Container := all.find? fun c => c.name == s

/-- The container where none is chosen. -/
def default : Container := mkv

theorem name_injective {c d : Container} (h : c.name = d.name) : c = d := by
  revert h; cases c <;> cases d <;> decide

@[simp] theorem ofName?_name (c : Container) : ofName? c.name = some c := by cases c <;> decide

/-- A name stands for exactly the container whose name it is. -/
theorem ofName?_eq_some_iff {s : Text} {c : Container} : ofName? s = some c ↔ s = c.name := by
  constructor
  · intro h
    have := List.find?_some h
    exact (beq_iff_eq.1 this).symm
  · rintro rfl
    exact ofName?_name c

end Container

/-! ### Bit depths -/

/-- The number of bits of a sample. -/
inductive BitDepth where
  | eight
  | ten
  deriving DecidableEq, Repr, Inhabited

namespace BitDepth

/-- The bit depths, in the order in which they are listed. -/
def all : List BitDepth := [eight, ten]

/-- The number of bits. -/
def bits : BitDepth → Nat
  | eight => 8
  | ten => 10

/-- The name of a bit depth is its numeral. -/
def name (d : BitDepth) : Text := Text.ofNat d.bits

/-- The bit depth that a numeral stands for; leading zeros are not allowed. -/
def ofName? (s : Text) : Option BitDepth := all.find? fun d => d.name == s

theorem name_injective {c d : BitDepth} (h : c.name = d.name) : c = d := by
  revert h; cases c <;> cases d <;> decide

@[simp] theorem ofName?_name (d : BitDepth) : ofName? d.name = some d := by cases d <;> decide

/-- A numeral stands for exactly the bit depth whose numeral it is. -/
theorem ofName?_eq_some_iff {s : Text} {d : BitDepth} : ofName? s = some d ↔ s = d.name := by
  constructor
  · intro h
    have := List.find?_some h
    exact (beq_iff_eq.1 this).symm
  · rintro rfl
    exact ofName?_name d

end BitDepth

/-! ### Resolutions -/

/-- A width and a height in pixels. -/
structure Resolution where
  width : Int
  height : Int
  deriving DecidableEq, Repr, Inhabited

namespace Resolution

/-- An encodable resolution has even sides of at least 64 pixels that fit 32 bits. -/
def IsEncodable (r : Resolution) : Prop :=
  (r.width % 2 = 0 ∧ Range.side.contains r.width) ∧
    (r.height % 2 = 0 ∧ Range.side.contains r.height)

instance (r : Resolution) : Decidable r.IsEncodable :=
  inferInstanceAs (Decidable ((_ ∧ _) ∧ (_ ∧ _)))

/-- A resolution written as width, `x`, height. -/
def shown (r : Resolution) : Text := Text.ofInt r.width ++ 'x' :: Text.ofInt r.height

end Resolution

end Transcode

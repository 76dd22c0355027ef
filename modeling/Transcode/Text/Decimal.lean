/-
**Decimal numerals.**

Numbers are written in decimal without leading zeros and with a minus sign when negative.  They
are read more freely: any number of leading zeros, and minus zero is zero.

A number that is read from a specification has at most 32 bits, and one that is handed over as a
setting has at most 53; so all digits are written, and no numeral needs an exponent.

Main definitions:

* `Transcode.Text.ofNat`, `Transcode.Text.ofInt` — the numeral of a number;
* `Transcode.Text.natural`, `Transcode.Text.integer` — the number a numeral denotes;
* `Transcode.Text.leadingNatural`, `Transcode.Text.leadingInteger` — the longest numeral at the
  start of a text, empty if there is none.

Main results:

* `Transcode.Text.natural_ofNat`, `Transcode.Text.integer_ofInt` — a written number reads back;
* `Transcode.Text.ofInt_injective` — different numbers are written differently.
-/

import Transcode.Text.Run

set_option relaxedAutoImplicit false
set_option autoImplicit false

namespace Transcode.Text

/-! ### Writing -/

/-- The decimal numeral of a natural number, without leading zeros. -/
def ofNat (n : Nat) : Text := Nat.toDigits 10 n

/-- The decimal numeral of an integer of at most 53 bits, with a minus sign when it is negative. -/
def ofInt : Int → Text
  | .ofNat n => ofNat n
  | .negSucc n => '-' :: ofNat (n + 1)

theorem ofNat_ne_nil (n : Nat) : ofNat n ≠ [] := Nat.toDigits_ne_nil

theorem ofInt_ne_nil (n : Int) : ofInt n ≠ [] := by
  cases n with
  | ofNat m => exact ofNat_ne_nil m
  | negSucc m => exact List.cons_ne_nil _ _

theorem isDigit_of_mem_ofNat {n : Nat} {c : Char} (h : c ∈ ofNat n) : c.isDigit = true :=
  Nat.isDigit_of_mem_toDigits (by decide) (by decide) h

/-- A numeral is made of digits and, if it is negative, a minus sign. -/
theorem not_mem_ofInt {c : Char} (hdigit : c.isDigit = false) (hminus : c ≠ '-') (n : Int) :
    c ∉ ofInt n := by
  have hnat : ∀ m, c ∉ ofNat m := fun m hm => by simp [isDigit_of_mem_ofNat hm] at hdigit
  cases n with
  | ofNat m => exact hnat m
  | negSucc m =>
      intro hc
      rcases List.mem_cons.1 hc with hc | hc
      · exact hminus hc
      · exact hnat _ hc

/-! ### Reading -/

/-- The number that a run of digits denotes; leading zeros do not change it. -/
def natural (digits : Text) : Nat := Nat.ofDigitChars 10 digits 0

/-- The number that a numeral with an optional minus sign denotes. -/
def integer : Text → Int
  | '-' :: digits => -(natural digits : Int)
  | digits => natural digits

/-- The longest run of digits at the start of a text. -/
def leadingNatural (s : Text) : Text := s.takeWhile Char.isDigit

/-- The longest run of digits at the start of a text, with a minus sign in front of it if there is
one.  A minus sign without a digit is no numeral. -/
def leadingInteger : Text → Text
  | '-' :: rest => if leadingNatural rest = [] then [] else '-' :: leadingNatural rest
  | s => leadingNatural s

@[simp] theorem natural_ofNat (n : Nat) : natural (ofNat n) = n :=
  Nat.ofDigitChars_toDigits (by decide) (by decide)

theorem integer_of_isDigit {s : Text} (h : ∀ c ∈ s, c.isDigit = true) : integer s = natural s := by
  unfold integer
  split
  · exact absurd (h '-' (by simp)) (by decide)
  · rfl

@[simp] theorem integer_ofNat (n : Nat) : integer (ofNat n) = n := by
  rw [integer_of_isDigit fun c => isDigit_of_mem_ofNat, natural_ofNat]

@[simp] theorem integer_ofInt (n : Int) : integer (ofInt n) = n := by
  cases n with
  | ofNat n => exact integer_ofNat n
  | negSucc n => simp [ofInt, integer, Int.negSucc_eq]

theorem ofInt_injective {m n : Int} (h : ofInt m = ofInt n) : m = n := by
  simpa using congrArg integer h

example : integer "-0".toList = 0 ∧ integer "007".toList = 7 := by decide
example : leadingInteger "-12x".toList = "-12".toList ∧ leadingInteger "-x".toList = [] := by decide

end Transcode.Text

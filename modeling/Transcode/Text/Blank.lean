/-
**Text and its white space.**

A text is a list of characters, so that reading one is recursion on a list and what a reader
leaves over is again a text.  White space is a closed table of code points; it is wider than the
ASCII white space of `Char.isWhitespace` and does not hold the next line control `U+0085`, the
Mongolian vowel separator `U+180E` or the zero width space `U+200B`.

Main definitions:

* `Transcode.Text` — a text;
* `Transcode.Text.isBlankChar`, `Transcode.Text.isBlank` — white space, and texts made of it only;
* `Transcode.Text.isLineEnd` — the four characters that end a line;
* `Transcode.Text.occursIn` — a word stands somewhere in a text.

Main results:

* `Transcode.Text.occursIn_iff` — a word occurs in a text exactly when the text is something,
  the word and something.
-/

set_option relaxedAutoImplicit false
set_option autoImplicit false

namespace Transcode

/-- A text is the list of its characters. -/
abbrev Text := List Char

namespace Text

/-! ### White space -/

/-- The code points of white space, as inclusive intervals in increasing order. -/
def blankRanges : List (Nat × Nat) :=
  [(0x09, 0x0D), (0x20, 0x20), (0xA0, 0xA0), (0x1680, 0x1680), (0x2000, 0x200A),
    (0x2028, 0x2029), (0x202F, 0x202F), (0x205F, 0x205F), (0x3000, 0x3000), (0xFEFF, 0xFEFF)]

/-- White space: the code point lies in one of the intervals of the table. -/
def isBlankChar (c : Char) : Bool :=
  blankRanges.any fun r => r.1 ≤ c.toNat && c.toNat ≤ r.2

/-- A blank text holds nothing but white space; the empty text is blank. -/
def isBlank (s : Text) : Bool := s.all isBlankChar

/-- The characters that end a line: line feed, carriage return, and the line and paragraph
separators. -/
def isLineEnd (c : Char) : Bool :=
  c == '\n' || c == '\r' || c == '\u2028' || c == '\u2029'

example : (blankRanges.map fun r => r.2 - r.1 + 1).sum = 25 := by decide

/-! ### Occurrence -/

/-- Whether `word` stands somewhere in a text. -/
def occursIn (word : Text) : Text → Bool
  | [] => word.isEmpty
  | c :: rest => word.isPrefixOf (c :: rest) || occursIn word rest

/-- A word occurs in a text exactly when the text is something, the word and something. -/
theorem occursIn_iff {word s : Text} : occursIn word s = true ↔ ∃ a b, s = a ++ word ++ b := by
  induction s with
  | nil =>
      constructor
      · intro h
        exact ⟨[], [], by simpa [occursIn] using h⟩
      · rintro ⟨a, b, h⟩
        have h : a = [] ∧ word = [] ∧ b = [] := by simpa using h
        simp [occursIn, h.2.1]
  | cons c rest ih =>
      simp only [occursIn, Bool.or_eq_true, ih, List.isPrefixOf_iff_prefix]
      constructor
      · rintro (⟨b, hb⟩ | ⟨a, b, rfl⟩)
        · exact ⟨[], b, by simp [hb]⟩
        · exact ⟨c :: a, b, by simp⟩
      · rintro ⟨a, b, h⟩
        cases a with
        | nil => exact Or.inl ⟨b, by simpa using h.symm⟩
        | cons d a =>
            have h : c = d ∧ rest = a ++ word ++ b := by simpa using h
            exact Or.inr ⟨a, b, h.2⟩

end Text

end Transcode

/-
**Track identifiers.**

An identifier is made of non-empty runs of letters and digits joined by single dots.  A number of
at most 255 stands for a stream of the source.  Anything else is an extension that names a file
beside the source, where a number, a dot and an extension may also stand for that track of the
file with the extension.

Main definitions:

* `Transcode.Identifier.leading?` — the longest identifier at the start of a text;
* `Transcode.Identifier.IsWellFormed` — the texts that are identifiers;
* `Transcode.Identifier.stream?`, `Transcode.Identifier.numbered?` — the readings of an identifier
  as a stream number, and as a track number with an extension.

Main results:

* `Transcode.Identifier.length_leading_lt` — a leading identifier is not empty.
-/

import Transcode.Text.Decimal

set_option relaxedAutoImplicit false
set_option autoImplicit false

namespace Transcode.Identifier

/-! ### The longest identifier -/

/-- The longest continuation of an identifier, and what follows it.  A dot belongs to the
identifier only if a letter or digit follows. -/
def continuation : Text → Text × Text
  | [] => ([], [])
  | '.' :: c :: rest =>
    if c.isAlphanum then
      let more := continuation (c :: rest)
      ('.' :: more.1, more.2)
    else ([], '.' :: c :: rest)
  | c :: rest =>
    if c.isAlphanum then
      let more := continuation rest
      (c :: more.1, more.2)
    else ([], c :: rest)

/-- The longest identifier at the start of a text, and what follows it, if the text starts with a
letter or digit. -/
def leading? : Text → Option (Text × Text)
  | [] => none
  | c :: rest => if c.isAlphanum then some (continuation (c :: rest)) else none

/-- Nothing is lost: an identifier and what follows it are the text. -/
theorem continuation_append (s : Text) : (continuation s).1 ++ (continuation s).2 = s := by
  fun_induction continuation s with
  | case1 => rfl
  | case2 c rest hc more ih => simpa [more] using ih
  | case3 c rest hc => rfl
  | case4 c rest _ hc more ih => simpa [more] using ih
  | case5 c rest _ hc => rfl

theorem leading?_append {s identifier rest : Text} (h : leading? s = some (identifier, rest)) :
    identifier ++ rest = s := by
  cases s with
  | nil => simp [leading?] at h
  | cons c s =>
      by_cases hc : c.isAlphanum = true
      · have h : continuation (c :: s) = (identifier, rest) := by simpa [leading?, hc] using h
        simpa [h] using continuation_append (c :: s)
      · simp [leading?, hc] at h

/-- A leading identifier is not empty, so what follows it is shorter than the text. -/
theorem length_leading_lt {s identifier rest : Text} (h : leading? s = some (identifier, rest)) :
    rest.length < s.length := by
  cases s with
  | nil => simp [leading?] at h
  | cons c s =>
      by_cases hc : c.isAlphanum = true
      · have hd : c ≠ '.' := by rintro rfl; exact absurd hc (by decide)
        have h : continuation (c :: s) = (identifier, rest) := by simpa [leading?, hc] using h
        have hs : continuation (c :: s) = (c :: (continuation s).1, (continuation s).2) := by
          rw [continuation.eq_def]
          split
          · contradiction
          · rename_i heq; simp_all
          · rename_i heq; simp_all
        have hlen := congrArg List.length (continuation_append s)
        rw [hs] at h
        obtain ⟨rfl, rfl⟩ := Prod.mk.inj h
        simp only [List.length_append] at hlen
        simp only [List.length_cons]
        omega
      · simp [leading?, hc] at h

/-! ### What an identifier is -/

/-- Identifiers: non-empty runs of letters and digits, joined by single dots. -/
def IsWellFormed (identifier : Text) : Prop :=
  ∃ runs : List Text, runs ≠ [] ∧ (∀ r ∈ runs, r ≠ [] ∧ ∀ c ∈ r, c.isAlphanum = true) ∧
    identifier = ['.'].intercalate runs

/-! ### Readings -/

/-- The greatest number of a stream or track. -/
def maxIndex : Nat := 255

/-- The number that a run of digits gives to a stream or track, if it is not too large. -/
def index? (digits : Text) : Option Nat :=
  if Text.natural digits ≤ maxIndex then some (Text.natural digits) else none

/-- The stream that an identifier of digits only stands for. -/
def stream? (identifier : Text) : Option Nat :=
  if identifier ≠ [] ∧ identifier.all Char.isDigit then index? identifier else none

/-- The reading of an identifier as a track number, a dot and the extension of a file.  The
extension is not empty and does not run over a line. -/
def numbered? (identifier : Text) : Option (Nat × Text) :=
  match Text.leadingNatural identifier, identifier.dropWhile Char.isDigit with
  | c :: digits, '.' :: ext =>
    if ext = [] ∨ ext.any Text.isLineEnd then none
    else (index? (c :: digits)).map fun index => (index, ext)
  | _, _ => none

example : leading? "eng.srt-d".toList = some ("eng.srt".toList, "-d".toList) := by decide
example : leading? "a..b".toList = some ("a".toList, "..b".toList) := by decide
example : stream? "007".toList = some 7 ∧ stream? "256".toList = none := by decide
example : numbered? "1.2.ac3".toList = some (1, "2.ac3".toList) := by decide

end Transcode.Identifier

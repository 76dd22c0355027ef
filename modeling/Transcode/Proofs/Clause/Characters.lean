/-
**The characters of clauses.**

A clause of the grammar is made of letters and digits and of four signs.  None of them separates
clauses or outputs.  So a separator that follows a clause is never taken for a part of it, and a
text that is put together from clauses falls apart where it was put together.

Main definitions:

* `Transcode.Clause.isWritten` — the characters that clauses are made of.

Main results:

* `Transcode.Segment.isSeparator_of_isAlphanum` — letters and digits do not separate;
* `Transcode.Clause.not_separator_of_isWritten` — neither do the other characters of clauses;
* `Transcode.Clause.Denotes.isWritten` — **every character of a clause is one of these**.
-/

import Transcode.Clause.Segment
import Transcode.Proofs.Clause.Acceptance

set_option relaxedAutoImplicit false
set_option autoImplicit false

namespace Transcode

/-! ### Separators, letters and digits -/

namespace Segment

/-- Letters and digits have code points between those of the digit zero and the letter z. -/
theorem toNat_of_isAlphanum {c : Char} (h : c.isAlphanum = true) :
    48 ≤ c.toNat ∧ c.toNat ≤ 122 := by
  -- an upper case letter, a lower case letter or a digit
  change ((decide ('A'.val ≤ c.val ∧ c.val ≤ 'Z'.val) ||
    (decide ('a'.val ≤ c.val) && decide (c.val ≤ 'z'.val))) ||
      (decide ('0'.val ≤ c.val) && decide (c.val ≤ '9'.val))) = true at h
  simp only [Bool.or_eq_true, Bool.and_eq_true, decide_eq_true_eq, UInt32.le_iff_toNat_le] at h
  change ((65 ≤ c.toNat ∧ c.toNat ≤ 90) ∨ (97 ≤ c.toNat ∧ c.toNat ≤ 122)) ∨
    (48 ≤ c.toNat ∧ c.toNat ≤ 57) at h
  omega

/-- White space has code points up to that of the blank, or from that of the no-break space on. -/
theorem toNat_of_isBlankChar {c : Char} (h : Text.isBlankChar c = true) :
    c.toNat ≤ 32 ∨ 160 ≤ c.toNat := by
  simp only [Text.isBlankChar, Text.blankRanges, List.any_cons, List.any_nil, Bool.or_eq_true,
    Bool.and_eq_true, decide_eq_true_eq, Bool.false_eq_true, or_false] at h
  omega

/-- A letter or digit is no separator. -/
theorem isSeparator_of_isAlphanum (c : Char) (h : c.isAlphanum = true) :
    isSeparator c = false := by
  have hrange := toNat_of_isAlphanum h
  cases hsep : isSeparator c with
  | false => rfl
  | true =>
      simp only [isSeparator, Bool.or_eq_true, beq_iff_eq] at hsep
      rcases hsep with rfl | hblank
      · exact absurd h (by decide)
      · have := toNat_of_isBlankChar hblank
        omega

theorem isSeparator_of_isAlpha (c : Char) (h : c.isAlpha = true) : isSeparator c = false :=
  isSeparator_of_isAlphanum c (by simp [Char.isAlphanum, h])

theorem isSeparator_of_isDigit (c : Char) (h : c.isDigit = true) : isSeparator c = false :=
  isSeparator_of_isAlphanum c (by simp [Char.isAlphanum, h])

end Segment

/-! ### The characters of clauses -/

namespace Clause

/-- The characters that clauses are made of: letters, digits and four signs. -/
def isWritten (c : Char) : Bool := c.isAlphanum || c == '=' || c == '-' || c == '.' || c == '|'

theorem isWritten_of_isAlphanum {c : Char} (h : c.isAlphanum = true) : isWritten c = true := by
  simp [isWritten, h]

theorem isWritten_of_isAlpha {c : Char} (h : c.isAlpha = true) : isWritten c = true :=
  isWritten_of_isAlphanum (by simp [Char.isAlphanum, h])

theorem isWritten_of_isDigit {c : Char} (h : c.isDigit = true) : isWritten c = true :=
  isWritten_of_isAlphanum (by simp [Char.isAlphanum, h])

/-- A character of a clause separates neither clauses nor outputs. -/
theorem not_separator_of_isWritten {c : Char} (h : isWritten c = true) :
    Segment.isSeparator c = false ∧ c ≠ ';' := by
  simp only [isWritten, Bool.or_eq_true, beq_iff_eq] at h
  rcases h with (((h | rfl) | rfl) | rfl) | rfl
  · refine ⟨Segment.isSeparator_of_isAlphanum c h, ?_⟩
    rintro rfl
    exact absurd h (by decide)
  all_goals decide

theorem isWritten_of_mem_key {f : Filter} {key : Text} (hkey : key ∈ f.keys) :
    ∀ c ∈ key, isWritten c = true := by
  have hall : (f.keys.all fun key => key.all isWritten) = true := by
    cases f <;> decide
  exact List.all_eq_true.1 (List.all_eq_true.1 hall key hkey)

theorem isWritten_of_isNatural {w : Text} (h : Text.IsNatural w) : ∀ c ∈ w, isWritten c = true :=
  fun c hc => isWritten_of_isDigit (h.2 c hc)

theorem isWritten_of_isInteger {w : Text} (h : Text.IsInteger w) :
    ∀ c ∈ w, isWritten c = true := by
  rcases h with h | ⟨digits, rfl, h⟩
  · exact isWritten_of_isNatural h
  · intro c hc
    rcases List.mem_cons.1 hc with rfl | hc
    · decide
    · exact isWritten_of_isNatural h c hc

theorem isWritten_of_isWellFormed {identifier : Text} (h : Identifier.IsWellFormed identifier) :
    ∀ c ∈ identifier, isWritten c = true := by
  intro c hc
  rcases h.isAlphanum_or_dot c hc with hc | rfl
  · exact isWritten_of_isAlphanum hc
  · decide

/-- A text of characters of clauses on both sides of such a character. -/
theorem isWritten_append_cons {u v : Text} {d : Char} (hu : ∀ c ∈ u, isWritten c = true)
    (hd : isWritten d = true) (hv : ∀ c ∈ v, isWritten c = true) :
    ∀ c ∈ u ++ d :: v, isWritten c = true := by
  intro c hc
  rcases List.mem_append.1 hc with hc | hc
  · exact hu c hc
  · rcases List.mem_cons.1 hc with rfl | hc
    · exact hd
    · exact hv c hc

theorem isWritten_of_denotes_ref {w : Text} {ref : TrackRef} (h : TrackRef.Denotes w ref) :
    ∀ c ∈ w, isWritten c = true := by
  cases h with
  | plain hid => exact isWritten_of_isWellFormed hid
  | tagged hid _ htags =>
      refine isWritten_append_cons (isWritten_of_isWellFormed hid) (by decide) ?_
      exact fun c hc => isWritten_of_isAlpha (TrackRef.isAlpha_of_isTag (htags c hc))

theorem isWritten_of_denotesList {w : Text} {refs : List TrackRef}
    (h : TrackRef.DenotesList w refs) : ∀ c ∈ w, isWritten c = true := by
  induction h with
  | single h => exact isWritten_of_denotes_ref h
  | cons h _ ih => exact isWritten_append_cons (isWritten_of_denotes_ref h) (by decide) ih

theorem ValueDenotes.isWritten {w : Text} {clause : Clause} (h : ValueDenotes w clause) :
    ∀ c ∈ w, isWritten c = true := by
  cases h with
  | videoEncoder e => exact fun c hc => isWritten_of_isAlphanum (e.isAlphanum_of_mem_name c hc)
  | container e => exact fun c hc => isWritten_of_isAlphanum (e.isAlphanum_of_mem_name c hc)
  | audioEncoder e => exact fun c hc => isWritten_of_isAlphanum (e.isAlphanum_of_mem_name c hc)
  | bitDepth d => exact fun c hc => isWritten_of_isDigit (d.isDigit_of_mem_name c hc)
  | profile hw => exact fun c hc => isWritten_of_isAlpha (hw c hc)
  | quantizer hw => exact isWritten_of_isInteger hw
  | speed hw | grain hw | compat hw | audioBitrate hw => exact isWritten_of_isNatural hw
  | resolution hw hh _ =>
      exact isWritten_append_cons (isWritten_of_isNatural hw) (by decide)
        (isWritten_of_isNatural hh)
  | audioTracks hw | subtitleTracks hw => exact isWritten_of_denotesList hw
  | audioNormalize => exact fun c hc => absurd hc (by simp)

/-- Every character of a clause is one of those that clauses are made of. -/
theorem Denotes.isWritten {w : Text} {clause : Clause} (h : Denotes w clause) :
    ∀ c ∈ w, isWritten c = true := by
  obtain ⟨key, hkey, value, rfl, hvalue⟩ := h
  intro c hc
  rcases List.mem_append.1 hc with hc | hc
  · exact isWritten_of_mem_key hkey c hc
  · exact hvalue.isWritten c hc

end Clause

end Transcode

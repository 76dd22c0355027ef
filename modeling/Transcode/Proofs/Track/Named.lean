/-
**References that name a track stand for it.**

Which references name a track is said by what exists beside the source; what a reference stands for
is said by how it is looked up.  Where no question fails, a reference that names a track stands for
that track, and its identifier can be written.

Main results:

* `Transcode.TrackRef.Names.isWellFormed` — a reference that names a track has a proper identifier;
* `Transcode.TrackRef.Names.standsFor` — **a reference that names a track stands for it**.
-/

import Transcode.Output.Print
import Transcode.Proofs.Clause.Value
import Transcode.Proofs.Track.Found
import Transcode.Proofs.Track.Identifier

set_option relaxedAutoImplicit false
set_option autoImplicit false

namespace Transcode

/-! ### Identifiers with a number -/

namespace Identifier

theorem isAlphanum_of_mem_ofNat {n : Nat} {c : Char} (h : c ∈ Text.ofNat n) :
    c.isAlphanum = true := by
  simp [Char.isAlphanum, Text.isDigit_of_mem_ofNat h]

/-- A number is an identifier. -/
theorem isWellFormed_ofNat (n : Nat) : IsWellFormed (Text.ofNat n) := by
  refine ⟨[Text.ofNat n], by simp, ?_, List.intercalate_singleton.symm⟩
  intro r hr
  obtain rfl := List.mem_singleton.1 hr
  exact ⟨Text.ofNat_ne_nil n, fun _ => isAlphanum_of_mem_ofNat⟩

/-- A number, a dot and an identifier are an identifier. -/
theorem isWellFormed_numbered (n : Nat) {identifier : Text} (h : IsWellFormed identifier) :
    IsWellFormed (Text.ofNat n ++ '.' :: identifier) := by
  obtain ⟨runs, hne, hruns, rfl⟩ := h
  refine ⟨Text.ofNat n :: runs, by simp, ?_, ?_⟩
  · intro r hr
    rcases List.mem_cons.1 hr with rfl | hr
    · exact ⟨Text.ofNat_ne_nil n, fun _ => isAlphanum_of_mem_ofNat⟩
    · exact hruns r hr
  · rw [List.intercalate_cons_of_ne_nil hne, List.append_assoc]
    rfl

/-- A number that is not too large is the number of a stream. -/
theorem isStream_ofNat {n : Nat} (h : n ≤ maxIndex) : IsStream (Text.ofNat n) := by
  refine ⟨Text.isNatural_ofNat n, ?_⟩
  rw [Text.natural_ofNat]
  exact h

theorem IsWellFormed.ne_nil {identifier : Text} (h : IsWellFormed identifier) :
    identifier ≠ [] := by
  obtain ⟨c, w, rfl, _⟩ := isWellFormed_iff.1 h
  exact List.cons_ne_nil c w

/-- An identifier stays on its line. -/
theorem IsWellFormed.not_isLineEnd {identifier : Text} (h : IsWellFormed identifier) :
    ∀ c ∈ identifier, Text.isLineEnd c = false := by
  intro c hc
  cases hend : Text.isLineEnd c with
  | false => rfl
  | true =>
      simp only [Text.isLineEnd, Bool.or_eq_true, beq_iff_eq] at hend
      have hchar := h.isAlphanum_or_dot c hc
      rcases hend with ((rfl | rfl) | rfl) | rfl <;> exact absurd hchar (by decide)

end Identifier

/-! ### References -/

namespace TrackRef.Names

variable {source : Text} {has : Text → Bool} {ref : TrackRef} {track : Track}

/-- A reference that names a track has a proper identifier. -/
theorem isWellFormed (h : Names source has ref track) : Identifier.IsWellFormed ref.identifier := by
  cases h with
  | stream => exact Identifier.isWellFormed_ofNat _
  | file hid => exact hid
  | numbered _ hid => exact Identifier.isWellFormed_numbered _ hid

/-- **A reference that names a track stands for it.** -/
theorem standsFor (h : Names source has ref track) :
    ref.StandsFor source (FileSystem.ofFiles has) track := by
  cases h with
  | stream hindex =>
      have hfound : TrackSource.StandsFor source (FileSystem.ofFiles has) _ _ :=
        .stream (Identifier.isStream_ofNat hindex)
      rw [Text.natural_ofNat] at hfound
      exact ⟨hfound, rfl, rfl⟩
  | file _ hstream hfile =>
      refine ⟨.file (Identifier.stream?_eq_none_iff.1 hstream) ?_, rfl, rfl⟩
      exact FileSystem.ofFiles_eq_ok_iff.2 hfile
  | numbered hindex hid hfile hfree =>
      have hfound := TrackSource.StandsFor.numbered (Identifier.isStream_ofNat hindex)
        hid.ne_nil hid.not_isLineEnd (FileSystem.ofFiles_eq_ok_iff.2 hfree)
        (FileSystem.ofFiles_eq_ok_iff.2 hfile)
      rw [Text.natural_ofNat] at hfound
      exact ⟨hfound, rfl, rfl⟩

end TrackRef.Names

end Transcode

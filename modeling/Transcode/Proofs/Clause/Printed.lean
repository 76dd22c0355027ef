/-
**Written clauses are read back.**

A clause whose values fit is written as a text of the grammar that says the same, and so it is read
back, alone or with others in a segment.

Main definitions:

* `Transcode.Clause.IsWritable` — the clauses that can be written.

Main results:

* `Transcode.Clause.denotes_print` — **a clause is written as a text that denotes it**;
* `Transcode.Segment.scan_print` — the clauses of a written segment are read back;
* `Transcode.Segment.semicolon_not_mem_print`, `Transcode.Segment.not_isBlank_print` — a written
  segment is a segment of its own among others.
-/

import Transcode.Clause.Print
import Transcode.Proofs.Segment.Joined

set_option relaxedAutoImplicit false
set_option autoImplicit false

namespace Transcode

/-! ### Numerals -/

/-- A number that is not negative is written as a natural number. -/
theorem Text.exists_numeral_of_nonneg {n : Int} (h : 0 ≤ n) :
    IsNatural (ofInt n) ∧ (natural (ofInt n) : Int) = n := by
  obtain ⟨m, rfl⟩ := Int.eq_ofNat_of_zero_le h
  refine ⟨isNatural_ofNat m, ?_⟩
  change ((natural (ofNat m) : Nat) : Int) = m
  rw [natural_ofNat]

/-! ### References -/

namespace TrackRef

theorem denotes_print {ref : TrackRef} (h : Identifier.IsWellFormed ref.identifier) :
    Denotes ref.print ref := by
  obtain ⟨identifier, enabled, forced⟩ := ref
  have he : ∀ c ∈ ['e'], isTag c = true := List.all_eq_true.1 (by decide)
  have hf : ∀ c ∈ ['f'], isTag c = true := List.all_eq_true.1 (by decide)
  have hef : ∀ c ∈ ['e', 'f'], isTag c = true := List.all_eq_true.1 (by decide)
  unfold print
  cases enabled with
  | false =>
      cases forced with
      | false =>
          rw [printTags, List.append_nil]
          exact .plain h
      | true => exact .tagged h (by simp) hf
  | true =>
      cases forced with
      | false => exact .tagged h (by simp) he
      | true => exact .tagged h (by simp) hef

theorem denotesList_printList {refs : List TrackRef} (hne : refs ≠ [])
    (h : ∀ ref ∈ refs, Identifier.IsWellFormed ref.identifier) :
    DenotesList (printList refs) refs := by
  unfold printList
  induction refs with
  | nil => exact absurd rfl hne
  | cons ref refs ih =>
      have href := denotes_print (h ref (by simp))
      cases refs with
      | nil =>
          rw [List.map_singleton, List.intercalate_singleton]
          exact .single href
      | cons next refs =>
          rw [List.map_cons, List.map_cons, List.intercalate_cons_cons, ← List.map_cons,
            List.append_assoc]
          exact .cons href (ih (by simp) fun ref hmem => h ref (by simp [hmem]))

end TrackRef

/-! ### Clauses -/

namespace Clause

/-- The clauses that can be written: numbers fit where they are stored, resolutions can be encoded,
and there are tracks, referred to by identifiers. -/
def IsWritable : Clause → Prop
  | .quantizer value => Range.signed16.contains value = true
  | .speed value | .grain value => Range.unsigned8.contains value = true
  | .resolution r => r.IsEncodable
  | .audioBitrate kbps => Range.unsigned32.contains kbps = true
  | .audioTracks refs | .subtitleTracks refs =>
    refs ≠ [] ∧ ∀ ref ∈ refs, Identifier.IsWellFormed ref.identifier
  | _ => True

theorem nonneg_of_side {n : Int} (h : Range.side.contains n = true) : 0 ≤ n := by
  have hmin := (Range.contains_iff.1 h).1
  simp only [Range.side] at hmin
  omega

theorem valueDenotes_printValue {clause : Clause} (h : clause.IsWritable) :
    ValueDenotes clause.printValue clause := by
  cases clause with
  | videoEncoder e => exact .videoEncoder e
  | quantizer value =>
      have hvalue := ValueDenotes.quantizer (Text.isInteger_ofInt value)
        (by rw [Text.integer_ofInt]; exact h)
      rwa [Text.integer_ofInt] at hvalue
  | speed value =>
      obtain ⟨hw, heq⟩ := Text.exists_numeral_of_nonneg (Range.contains_iff.1 h).1
      have hvalue := ValueDenotes.speed hw (by rw [heq]; exact h)
      rwa [heq] at hvalue
  | profile p =>
      exact .profile (fun _ => Profile.isAlpha_of_mem_name) (Profile.lowerCase_name p)
  | grain value =>
      obtain ⟨hw, heq⟩ := Text.exists_numeral_of_nonneg (Range.contains_iff.1 h).1
      have hvalue := ValueDenotes.grain hw (by rw [heq]; exact h)
      rwa [heq] at hvalue
  | compat enabled =>
      cases enabled with
      | true => exact ValueDenotes.compat (Text.isNatural_ofNat 1) (by decide)
      | false => exact ValueDenotes.compat (Text.isNatural_ofNat 0) (by decide)
  | container c => exact .container c
  | bitDepth d => exact .bitDepth d
  | resolution r =>
      obtain ⟨hw, hweq⟩ := Text.exists_numeral_of_nonneg (nonneg_of_side h.1.2)
      obtain ⟨hh, hheq⟩ := Text.exists_numeral_of_nonneg (nonneg_of_side h.2.2)
      have hvalue := ValueDenotes.resolution hw hh (by rw [hweq, hheq]; exact h)
      rwa [hweq, hheq] at hvalue
  | audioEncoder e => exact .audioEncoder e
  | audioBitrate kbps =>
      obtain ⟨hw, heq⟩ := Text.exists_numeral_of_nonneg (Range.contains_iff.1 h).1
      have hvalue := ValueDenotes.audioBitrate hw (by rw [heq]; exact h)
      rwa [heq] at hvalue
  | audioTracks refs => exact .audioTracks (TrackRef.denotesList_printList h.1 h.2)
  | audioNormalize => exact .audioNormalize
  | subtitleTracks refs => exact .subtitleTracks (TrackRef.denotesList_printList h.1 h.2)

/-- **A clause is written as a text that denotes it.** -/
theorem denotes_print {clause : Clause} (h : clause.IsWritable) : Denotes clause.print clause :=
  ⟨_, clause.filter.usualKey_mem_keys, _, rfl, valueDenotes_printValue h⟩

end Clause

/-! ### Segments -/

namespace Segment

variable {clauses : List Clause}

/-- The clauses of a written segment are read back. -/
theorem scan_print (h : ∀ clause ∈ clauses, clause.IsWritable) :
    scan (print clauses) = ⟨clauses, none⟩ := by
  have hden : List.Forall₂ Clause.Denotes (clauses.map Clause.print) clauses := by
    rw [List.forall₂_map_left_iff, List.forall₂_same]
    intro clause hclause
    exact Clause.denotes_print (h clause hclause)
  exact scan_joined hden

/-- The parts of a written segment are clauses. -/
theorem exists_denotes_of_mem_print (h : ∀ clause ∈ clauses, clause.IsWritable) :
    ∀ part ∈ clauses.map Clause.print, ∃ clause, Clause.Denotes part clause := by
  intro part hpart
  obtain ⟨clause, hclause, rfl⟩ := List.mem_map.1 hpart
  exact ⟨clause, Clause.denotes_print (h clause hclause)⟩

/-- A written segment holds no semicolon. -/
theorem semicolon_not_mem_print (h : ∀ clause ∈ clauses, clause.IsWritable) :
    ';' ∉ print clauses :=
  semicolon_not_mem_joined (exists_denotes_of_mem_print h)

/-- A written segment is not blank, unless it has no clauses. -/
theorem not_isBlank_print (hne : clauses ≠ []) (h : ∀ clause ∈ clauses, clause.IsWritable) :
    Text.isBlank (print clauses) = false :=
  not_isBlank_joined (by simpa using hne) (exists_denotes_of_mem_print h)

end Segment

end Transcode

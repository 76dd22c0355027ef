/-
**When a look-up is refused.**

A look-up is refused for one reason only: neither the file with the whole identifier as its
extension exists, nor, if the identifier is a number with an extension, the file that is numbered.
The error names the identifier and the file that was looked for first, whichever was missing.

Main definitions:

* `Transcode.TrackSource.Missing` — nothing that an identifier may stand for exists.

Main results:

* `Transcode.TrackSource.refuses_find_iff` — **exactly when a look-up is refused, and why**;
* `Transcode.Clause.exists_refuses_of_find` — the look-ups of a clause are refused because one of
  its tracks is.
-/

import Transcode.Proofs.Lookup.Refusal
import Transcode.Proofs.Track.Found

set_option relaxedAutoImplicit false
set_option autoImplicit false

namespace Transcode

/-! ### Identifiers -/

/-- Nothing that an identifier may stand for beside a source exists. -/
structure TrackSource.Missing (source : Text) (fs : FileSystem) (identifier : Text) : Prop where
  stream : ¬ Identifier.IsStream identifier
  file : fs (Path.withExtension source identifier) = .ok false
  numbered : ∀ digits suffix, identifier = digits ++ '.' :: suffix → Identifier.IsStream digits →
    suffix ≠ [] → (∀ c ∈ suffix, Text.isLineEnd c = false) →
    fs (Path.withExtension source suffix) = .ok false

/-- The error for an identifier with nothing to stand for: it names the file that was looked for
first. -/
def ParseError.missing (source identifier : Text) : ParseError :=
  .missingTrackFile identifier (Path.withExtension source identifier)

namespace TrackSource

variable {source identifier : Text} {fs : FileSystem} {e : ParseError}

/-- **A look-up is refused exactly when nothing that the identifier may stand for exists.** -/
theorem refuses_find_iff :
    (find source identifier).Refuses fs e ↔
      Missing source fs identifier ∧ e = .missing source identifier := by
  unfold find
  cases hs : Identifier.stream? identifier with
  | some index =>
      obtain ⟨hstream, _⟩ := Identifier.stream?_eq_some_iff.1 hs
      simp only [Attempt.refuses_pure, false_iff]
      rintro ⟨hmissing, _⟩
      exact hmissing.stream hstream
  | none =>
      have hstream := Identifier.stream?_eq_none_iff.1 hs
      simp only
      rw [Attempt.refuses_ifFile]
      simp only [Attempt.refuses_pure, and_false, false_or]
      cases hnum : Identifier.numbered? identifier with
      | none =>
          -- the identifier numbers no file, so the first look was the only one
          simp only [Attempt.refuses_throw]
          constructor
          · rintro ⟨hfile, rfl⟩
            refine ⟨⟨hstream, hfile, ?_⟩, rfl⟩
            rintro digits suffix rfl hdigits hne hline
            have hread := Identifier.numbered?_eq_some_iff.2 ⟨digits, rfl, hdigits, rfl, hne, hline⟩
            rw [hnum] at hread
            exact absurd hread (by simp)
          · rintro ⟨hmissing, rfl⟩
            exact ⟨hmissing.file, rfl⟩
      | some entry =>
          obtain ⟨index, suffix⟩ := entry
          obtain ⟨digits, rfl, hdigits, rfl, hne, hline⟩ := Identifier.numbered?_eq_some_iff.1 hnum
          simp only [Attempt.refuses_ifFile, Attempt.refuses_pure, Attempt.refuses_throw, and_false,
            false_or]
          constructor
          · rintro ⟨hfile, hsecond, rfl⟩
            refine ⟨⟨hstream, hfile, ?_⟩, rfl⟩
            intro digits' suffix' happend hdigits' hne' hline'
            -- an identifier is split at its number in one way only
            have hread := Identifier.numbered?_eq_some_iff.2
              ⟨digits', happend, hdigits', rfl, hne', hline'⟩
            rw [hnum] at hread
            obtain ⟨_, rfl⟩ := Prod.mk.inj (Option.some.inj hread)
            exact hsecond
          · rintro ⟨hmissing, rfl⟩
            exact ⟨hmissing.file, hmissing.numbered digits suffix rfl hdigits hne hline, rfl⟩

end TrackSource

/-! ### References and clauses -/

theorem TrackRef.refuses_find_iff {source : Text} {fs : FileSystem} {ref : TrackRef}
    {e : ParseError} :
    (find source ref).Refuses fs e ↔
      TrackSource.Missing source fs ref.identifier ∧ e = .missing source ref.identifier := by
  unfold find
  rw [Attempt.refuses_map, TrackSource.refuses_find_iff]

/-- The tracks of a setting are replaced in vain because it is in vain for one of them. -/
theorem Setting.exists_refuses_of_traverse {σ τ : Type} {fs : FileSystem} {f : σ → Attempt τ}
    {s : Setting σ} {e : ParseError} (h : (traverse f s).Refuses fs e) :
    ∃ t ∈ s.tracks, (f t).Refuses fs e := by
  cases s with
  | audioTracks ts | subtitleTracks ts =>
      rcases Attempt.refuses_bind.1 h with hts | ⟨_, _, hend⟩
      · exact Attempt.exists_refuses_of_mapM hts
      · exact absurd hend Attempt.refuses_pure
  | _ => exact absurd h Attempt.refuses_pure

/-- The look-ups of a clause are refused because nothing that one of its tracks may stand for
exists. -/
theorem Clause.exists_refuses_of_find {source : Text} {fs : FileSystem} {clause : Clause}
    {e : ParseError} (h : (find source clause).Refuses fs e) :
    ∃ ref ∈ clause.tracks,
      TrackSource.Missing source fs ref.identifier ∧ e = .missing source ref.identifier := by
  obtain ⟨ref, href, hrefuses⟩ := Setting.exists_refuses_of_traverse h
  exact ⟨ref, href, TrackRef.refuses_find_iff.1 hrefuses⟩

end Transcode

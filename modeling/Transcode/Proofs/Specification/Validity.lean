/-
**Nothing invalid comes out of resolution.**

What an output holds is checked in three places.  Reading a clause bounds its numbers by the width
they are stored in and checks resolutions; looking a reference up finds a stream of a small number
or a file that exists; applying a setting checks what the encoder accepts, and nothing else.  Every
setting that comes out of the first two fits, and the third keeps an output valid if the setting
fits; so, from the valid output that every encoder starts from, a segment leads to a valid output
whatever its clauses are and however they are ordered.

Main definitions:

* `Transcode.VideoEncoder.fieldNames` — the names of the fields of an encoder.

Main results:

* `Transcode.Clause.Denotes.fits` — what a clause of the grammar stands for fits;
* `Transcode.Output.isValid_of_resolve` — settings that fit describe valid outputs;
* `Transcode.Specification.isValid_of_yields_resolve` — **nothing invalid comes out of
  resolution**.
-/

import Transcode.Proofs.Output.Fold
import Transcode.Proofs.Specification.Outcome

set_option relaxedAutoImplicit false
set_option autoImplicit false

namespace Transcode

variable {source : Text} {fs : FileSystem}

/-! ### What clauses stand for -/

namespace TrackSource.StandsFor

variable {identifier : Text} {found : TrackSource}

/-- The number of a stream identifier fits eight bits. -/
theorem isTrackIndex_of_isStream {digits : Text} (h : Identifier.IsStream digits) :
    Range.IsTrackIndex (Text.natural digits) := by
  have hmax : Text.natural digits ≤ 255 := h.2
  unfold Range.IsTrackIndex
  rw [Range.contains_iff]
  simp only [Range.unsigned8]
  omega

/-- What an identifier stands for has a small number, if it has one. -/
theorem isIndexed (h : StandsFor source fs identifier found) : found.IsIndexed := by
  cases h with
  | stream hstream => exact isTrackIndex_of_isStream hstream
  | file => exact fun n hn => absurd hn (by simp)
  | numbered hdigits =>
      rintro _ ⟨⟩
      exact isTrackIndex_of_isStream hdigits

/-- The file that an identifier stands for exists. -/
theorem readsFrom (h : StandsFor source fs identifier found) : found.ReadsFrom fs.hasFile := by
  cases h with
  | stream => exact trivial
  | file _ hfile => exact FileSystem.hasFile_eq_true_iff.2 hfile
  | numbered _ _ _ _ hfile => exact FileSystem.hasFile_eq_true_iff.2 hfile

end TrackSource.StandsFor

/-- What a clause of the grammar stands for fits. -/
theorem Clause.Denotes.fits {written : Text} {clause : Clause} {token : Token}
    (h : Denotes written clause) (hstands : clause.StandsFor source fs token) :
    token.Fits fs.hasFile := by
  obtain ⟨_, _, _, _, hvalue⟩ := h
  -- the grammar bounds the numbers and the resolution, and the tracks are bounded by what was found
  cases hstands with
  | resolution r =>
      cases hvalue with
      | resolution _ _ hencodable => exact hencodable
  | audioBitrate kbps =>
      cases hvalue with
      | audioBitrate _ hrange => exact (Range.contains_iff.1 hrange).2
  | audioTracks htracks | subtitleTracks htracks =>
      intro t ht
      obtain ⟨ref, _, hfound⟩ := exists_of_mem_of_forall₂ htracks ht
      exact ⟨hfound.found.isIndexed, hfound.found.readsFrom⟩
  | _ => exact trivial

/-- The setting that a clause yields fits. -/
theorem Clause.fits_of_yields_parse {s rest : Text} {token : Token}
    (h : (parse source s).Yields fs (token, rest)) : token.Fits fs.hasFile := by
  obtain ⟨clause, hscan, hstands⟩ := exists_scan_of_yields h
  obtain ⟨written, _, hdenotes, _⟩ := scan_eq_ok_iff.1 hscan
  exact hdenotes.fits hstands

/-- Every setting that a segment yields fits. -/
theorem Segment.fits_of_yields_parse {s : Text} {tokens : List Token}
    (h : (parse source s).Yields fs tokens) : ∀ token ∈ tokens, token.Fits fs.hasFile := by
  intro token htoken
  obtain ⟨_, hstands⟩ := yields_settings_iff.1 h
  obtain ⟨clause, hclause, hfound⟩ := exists_of_mem_of_forall₂ hstands htoken
  obtain ⟨written, hdenotes⟩ := denotes_of_mem_scan hclause
  exact hdenotes.fits hfound

/-! ### What settings describe -/

/-- Settings that fit describe valid outputs of files that exist. -/
theorem Output.isValid_of_resolve {has : Text → Bool} {tokens : List Token} {o : Output}
    (hfits : ∀ token ∈ tokens, token.Fits has) (h : resolve tokens = .ok o) :
    o.IsValid ∧ o.ReadsFrom has := by
  have hstart : (start tokens).IsValid ∧ (start tokens).ReadsFrom has :=
    ⟨isValid_ofEncoder _, fun t ht => absurd ht (by simp [start, ofEncoder, tracks])⟩
  refine applyAll_induction (P := fun o => o.IsValid ∧ o.ReadsFrom has) hstart h ?_
  intro o token htoken hkept hnone
  have hfit := hfits token htoken
  exact ⟨hkept.1.put hnone hfit, hkept.2.put hfit⟩

/-- The names of the fields that the configurations of an encoder have. -/
def VideoEncoder.fieldNames : VideoEncoder → List String
  | aom => ["crf", "speed", "profile", "grain", "compat"]
  | rav1e | svt => ["crf", "speed", "profile", "grain"]
  | x264 | x265 => ["crf", "profile", "compat"]
  | copy => []

/-- A configuration has exactly the fields of its encoder. -/
theorem Video.map_fst_fields (v : Video) : v.fields.map Prod.fst = v.encoder.fieldNames := by
  cases v <;> rfl

theorem BitDepth.bits_eq (d : BitDepth) : d.bits = 8 ∨ d.bits = 10 := by
  cases d with
  | eight => exact Or.inl rfl
  | ten => exact Or.inr rfl

namespace Specification

/-- **Nothing invalid comes out of resolution.**  Every output of a specification has the fields of
its encoder, with values that the encoder accepts and that fit where they are stored, and tracks
that are streams or from files that exist; and there is an output. -/
theorem isValid_of_yields_resolve {spec : Option Text} {outputs : List Output}
    (h : (resolve source spec).Yields fs outputs) :
    outputs ≠ [] ∧ ∀ o ∈ outputs,
      o.video.fields.map Prod.fst = o.video.encoder.fieldNames ∧
        (∀ d ∈ o.bitDepth, d.bits = 8 ∨ d.bits = 10) ∧ o.IsValid ∧ o.ReadsFrom fs.hasFile := by
  have hsegments := yields_resolve_iff.1 h
  constructor
  · rintro rfl
    exact resolvedSegments_ne_nil spec (List.forall₂_nil_right_iff.1 hsegments)
  · intro o ho
    obtain ⟨segment, _, tokens, htokens, hresolve⟩ := exists_of_mem_of_forall₂ hsegments ho
    have hvalid := Output.isValid_of_resolve (Segment.fits_of_yields_parse htokens) hresolve
    exact ⟨o.video.map_fst_fields, fun d _ => d.bits_eq, hvalid⟩

/-- A numbered track of a file that exists is a valid track. -/
theorem isValid_numbered_track :
    ∃ o : Output, (resolve "film.mkv".toList (some "q=30,enc=svt,at=1.ac3-e".toList)).Yields
        (FileSystem.ofFiles fun path => path == "film.ac3".toList) [o] ∧
      o.audioTracks = [⟨.external "film.ac3".toList (some 1), true, false⟩] ∧ o.IsValid := by
  have h : (resolve "film.mkv".toList (some "q=30,enc=svt,at=1.ac3-e".toList)).Yields
      (FileSystem.ofFiles fun path => path == "film.ac3".toList)
      [⟨.svt 30 4 .film 0, .mkv, none, none, .copy, 80, false,
        [⟨.external "film.ac3".toList (some 1), true, false⟩], []⟩] := by
    unfold Attempt.Yields
    decide +kernel
  obtain ⟨_, hvalid⟩ := isValid_of_yields_resolve h
  exact ⟨_, h, rfl, (hvalid _ (by simp)).2.2.1⟩

end Specification

end Transcode

/-
**Encoded files and the track files they are made from.**

Track files and encoded files lie in the same directory and are named from the same stem: the ones
by an identifier, the others by the encoder part and the container.  An identifier is made of
letters, digits and dots, and the encoder part of every encoder with a quantizer holds a dash.  So
no track file has the name of a file that is encoded with a quantizer.  A copied video has no
quantizer, and the name of its file can be written as an identifier; a track that is written so is
overwritten by the output that it belongs to.

Main results:

* `Transcode.Output.path_eq_withExtension_iff` — when an encoded file is the file of an identifier;
* `Transcode.Specification.path_eq_track_iff` — **when an encoded file is the file of one of its
  tracks**.
-/

import Transcode.Proofs.Output.Naming
import Transcode.Proofs.Specification.Beside

set_option relaxedAutoImplicit false
set_option autoImplicit false

namespace Transcode

/-! ### Encoded files as files of an identifier -/

namespace Video

variable {v : Video}

theorem suffix_of_copy (h : v.encoder = .copy) : v.suffix = VideoEncoder.copy.name := by
  rw [suffix, crf?_eq_none_iff.2 h, h]

/-- The encoder part of a name holds a dash if it has a quantizer. -/
theorem dash_mem_suffix {crf : Int} (h : v.crf? = some crf) : '-' ∈ v.suffix := by
  rw [suffix_eq_append, quantizerPart, h]
  simp

end Video

namespace Output

/-- A file that is encoded beside its source is named by its encoder part and its container. -/
theorem path_none (source : Text) (o : Output) :
    o.path source none =
      Path.withExtension source (o.video.suffix ++ '.' :: o.container.name) := by
  simp [path, fileName, Path.withExtension]

/-- **When an encoded file is the file of an identifier**: exactly if the video is copied and the
identifier says so and names the container. -/
theorem path_eq_withExtension_iff {source identifier : Text}
    (hid : Identifier.IsWellFormed identifier) (o : Output) :
    o.path source none = Path.withExtension source identifier ↔
      o.video.encoder = .copy ∧ identifier = VideoEncoder.copy.name ++ '.' :: o.container.name := by
  constructor
  · intro h
    have hname : o.fileName source = Path.stem source ++ '.' :: identifier := by
      rw [← basename_path source o none, h]
      exact Path.basename_join (Path.isPlain_stem_identifier source hid) _
    have hidentifier : identifier = o.video.suffix ++ '.' :: o.container.name := by
      rw [fileName, List.append_assoc, List.append_cancel_left_eq] at hname
      simpa using hname.symm
    have hcopy : o.video.encoder = .copy := by
      cases hcrf : o.video.crf? with
      | none => exact Video.crf?_eq_none_iff.1 hcrf
      | some crf =>
          -- the dash before the quantizer would be a character of the identifier
          have hdash : '-' ∈ identifier := by
            rw [hidentifier]
            exact List.mem_append_left _ (Video.dash_mem_suffix hcrf)
          rcases hid.isAlphanum_or_dot '-' hdash with hletter | hdot
          · exact absurd hletter (by decide)
          · exact absurd hdot (by decide)
    refine ⟨hcopy, ?_⟩
    rw [hidentifier, Video.suffix_of_copy hcopy]
  · rintro ⟨hcopy, rfl⟩
    rw [path_none, Video.suffix_of_copy hcopy]

end Output

/-! ### Encoded files as files of a track -/

namespace Specification

/-- **When an encoded file is the file of one of its tracks.**  Whatever a specification says and
whatever files there are, an encoded file beside its source is none of the files that its tracks are
taken from, unless the video is copied and the track file has the very name that copying gives. -/
theorem path_eq_track_iff {source : Text} {spec : Option Text} {fs : FileSystem}
    {outputs : List Output} (h : (resolve source spec).Yields fs outputs) :
    ∀ o ∈ outputs, ∀ t ∈ o.tracks, ∀ path index, t.source = .external path index →
      (o.path source none = path ↔
        o.video.encoder = .copy ∧
          path =
            Path.withExtension source (VideoEncoder.copy.name ++ '.' :: o.container.name)) := by
  intro o ho t ht path index hpath
  have hbeside := (confined_resolve source spec fs).yields outputs h o ho t ht
  obtain ⟨identifier, hid, rfl, _⟩ := hbeside path index hpath
  rw [Output.path_eq_withExtension_iff hid]
  constructor
  · rintro ⟨hcopy, rfl⟩
    exact ⟨hcopy, rfl⟩
  · rintro ⟨hcopy, hfile⟩
    rw [← Output.path_eq_withExtension_iff hid, Output.path_none, Video.suffix_of_copy hcopy, hfile]

/-- A numbered track of a file that is named like a copied video, for a video that is not copied. -/
theorem path_ne_track_svt :
    ∃ o : Output, (resolve "film.mkv".toList (some "enc=svt,at=1.copy.mkv".toList)).Yields
        (FileSystem.ofFiles fun path => path == "film.copy.mkv".toList) [o] ∧
      o.audioTracks = [⟨.external "film.copy.mkv".toList (some 1), false, false⟩] ∧
      o.path "film.mkv".toList none ≠ "film.copy.mkv".toList := by
  have h : (resolve "film.mkv".toList (some "enc=svt,at=1.copy.mkv".toList)).Yields
      (FileSystem.ofFiles fun path => path == "film.copy.mkv".toList)
      [{ Output.ofEncoder .svt with
        audioTracks := [⟨.external "film.copy.mkv".toList (some 1), false, false⟩] }] := by
    unfold Attempt.Yields
    decide +kernel
  refine ⟨_, h, rfl, ?_⟩
  intro hpath
  obtain ⟨hcopy, _⟩ :=
    (path_eq_track_iff h _ (by simp) _ (List.mem_singleton.2 rfl) _ _ rfl).1 hpath
  exact absurd hcopy (by decide)

/-- A track of a copied video that is written as `copy.mkv` is overwritten. -/
theorem path_eq_track_copy :
    ∃ o : Output, (resolve "film.mkv".toList (some "enc=copy,at=copy.mkv".toList)).Yields
        (FileSystem.ofFiles fun path => path == "film.copy.mkv".toList) [o] ∧
      o.audioTracks = [⟨.external (o.path "film.mkv".toList none) none, false, false⟩] := by
  have h : (resolve "film.mkv".toList (some "enc=copy,at=copy.mkv".toList)).Yields
      (FileSystem.ofFiles fun path => path == "film.copy.mkv".toList)
      [{ Output.ofEncoder .copy with
        audioTracks := [⟨.external "film.copy.mkv".toList none, false, false⟩] }] := by
    unfold Attempt.Yields
    decide +kernel
  exact ⟨_, h, by decide⟩

end Specification

end Transcode

/-
**What the name of an encoded file tells.**

The stem of a source is any text without slashes; it may hold dots, and it may look like the name
of an encoded file itself.  The parts that are put behind it hold no dot.  So the name of an encoded
file is read from the right: what stands behind its last dot is the container, what stands behind
the dot before is the encoder part, and the rest is the stem.  The encoder part tells encoder and
quantizer apart by its first dash.  Two encoded files share a name only if all of these agree, and
no encoded file has the name of its source, which lacks the two parts.

Main results:

* `Transcode.Video.suffix_eq_iff` — the encoder part tells encoder and quantizer;
* `Transcode.Output.fileName_eq_iff` — the name tells stem, encoder part and container;
* `Transcode.Output.path_eq_path_iff` — **when two encoded files have the same path**;
* `Transcode.Output.path_avoids_source` — **an encoded file is never its own source**.
-/

import Transcode.Proofs.Output.Processed
import Transcode.Proofs.Path.Component

set_option relaxedAutoImplicit false
set_option autoImplicit false

namespace Transcode

/-! ### The encoder part of a name -/

theorem VideoEncoder.dash_not_mem_name (e : VideoEncoder) : '-' ∉ e.name := by
  cases e <;> decide

namespace Video

variable {v w : Video}

/-- What the encoder part of a name holds behind the name of the encoder. -/
def quantizerPart (v : Video) : Text :=
  match v.crf? with
  | some crf => '-' :: 'q' :: Text.ofInt crf
  | none => []

theorem suffix_eq_append (v : Video) : v.suffix = v.encoder.name ++ v.quantizerPart := by
  rw [suffix, quantizerPart]
  cases v.crf? with
  | some crf => simp [VideoEncoder.marker]
  | none => simp

/-- It begins with a dash, if it is not empty. -/
theorem stops_quantizerPart (v : Video) : Text.Stops (· != '-') v.quantizerPart := by
  rw [quantizerPart]
  cases v.crf? with
  | some crf => simp
  | none => simp

theorem crf?_eq_of_quantizerPart (h : v.quantizerPart = w.quantizerPart) : v.crf? = w.crf? := by
  rw [quantizerPart, quantizerPart] at h
  cases hv : v.crf? with
  | none =>
      cases hw : w.crf? with
      | none => rfl
      | some r => exact absurd h (by simp [hv, hw])
  | some q =>
      cases hw : w.crf? with
      | none => exact absurd h (by simp [hv, hw])
      | some r =>
          have hnumeral : Text.ofInt q = Text.ofInt r := by simpa [hv, hw] using h
          rw [Text.ofInt_injective hnumeral]

/-- The encoder part of a name tells encoder and quantizer. -/
theorem suffix_eq_iff : v.suffix = w.suffix ↔ v.encoder = w.encoder ∧ v.crf? = w.crf? := by
  constructor
  · intro h
    rw [suffix_eq_append, suffix_eq_append] at h
    obtain ⟨hencoder, hquantizer⟩ := Text.append_inj_of_not_mem
      v.encoder.dash_not_mem_name w.encoder.dash_not_mem_name v.stops_quantizerPart
      w.stops_quantizerPart h
    exact ⟨VideoEncoder.name_injective hencoder, crf?_eq_of_quantizerPart hquantizer⟩
  · rintro ⟨hencoder, hcrf⟩
    rw [suffix, suffix, hencoder, hcrf]

/-- Only a copied video has no quantizer. -/
theorem crf?_eq_none_iff : v.crf? = none ↔ v.encoder = .copy := by
  cases v <;> simp [crf?, encoder]

end Video

namespace Output

/-! ### The parts of a name -/

variable {s₁ s₂ : Text} {o₁ o₂ : Output}

theorem dot_not_mem_suffix (v : Video) : '.' ∉ v.suffix :=
  fun h => (ne_of_isNameChar (v.isNameChar_of_mem_suffix _ h)).2 rfl

theorem dot_not_mem_container (c : Container) : '.' ∉ c.name :=
  fun h => (ne_of_isNameChar (c.isNameChar_of_mem_name _ h)).2 rfl

/-- The name of an encoded file tells the stem of its source, its encoder part and its container. -/
theorem fileName_eq_iff :
    o₁.fileName s₁ = o₂.fileName s₂ ↔
      Path.stem s₁ = Path.stem s₂ ∧ o₁.video.suffix = o₂.video.suffix ∧
        o₁.container = o₂.container := by
  constructor
  · intro h
    -- the container stands behind the last dot, and the encoder part behind the last one before
    obtain ⟨hfront, hcontainer⟩ :=
      Path.append_dot_inj (dot_not_mem_container _) (dot_not_mem_container _) h
    obtain ⟨hstem, hsuffix⟩ :=
      Path.append_dot_inj (dot_not_mem_suffix _) (dot_not_mem_suffix _) hfront
    exact ⟨hstem, hsuffix, Container.name_injective hcontainer⟩
  · rintro ⟨hstem, hsuffix, hcontainer⟩
    rw [fileName, fileName, hstem, hsuffix, hcontainer]

/-! ### Encoded files that share a path -/

/-- Names in one directory are known from their paths. -/
theorem path_eq_iff_fileName {dir : Option Text}
    (h : dir = none → Path.dirname s₁ = Path.dirname s₂) :
    o₁.path s₁ dir = o₂.path s₂ dir ↔ o₁.fileName s₁ = o₂.fileName s₂ := by
  have hdir : dir.getD (Path.dirname s₁) = dir.getD (Path.dirname s₂) := by
    cases dir with
    | none => exact h rfl
    | some d => rfl
  rw [path, path, Path.join_plain (isPlain_fileName s₁ o₁),
    Path.join_plain (isPlain_fileName s₂ o₂), hdir, List.append_cancel_left_eq]

/-- **When two encoded files have the same path**: in one directory, exactly if the stems of their
sources, their containers and their encoders agree, and their quantizers where they have any. -/
theorem path_eq_path_iff {dir : Option Text} (h : dir = none → Path.dirname s₁ = Path.dirname s₂) :
    o₁.path s₁ dir = o₂.path s₂ dir ↔
      Path.stem s₁ = Path.stem s₂ ∧ o₁.container = o₂.container ∧
        o₁.video.encoder = o₂.video.encoder ∧
          (o₁.video.encoder ≠ .copy → o₁.video.crf? = o₂.video.crf?) := by
  rw [path_eq_iff_fileName h, fileName_eq_iff, Video.suffix_eq_iff]
  constructor
  · rintro ⟨hstem, ⟨hencoder, hcrf⟩, hcontainer⟩
    exact ⟨hstem, hcontainer, hencoder, fun _ => hcrf⟩
  · rintro ⟨hstem, hcontainer, hencoder, hcrf⟩
    refine ⟨hstem, ⟨hencoder, ?_⟩, hcontainer⟩
    by_cases hcopy : o₁.video.encoder = .copy
    · rw [Video.crf?_eq_none_iff.2 hcopy, Video.crf?_eq_none_iff.2 (hencoder ▸ hcopy)]
    · exact hcrf hcopy

/-- Two sources of one stem are encoded into the same file, and one whose stem looks like the name
of that file is not. -/
theorem path_eq_path_iff_dotted :
    Path.dirname "d/film.mkv".toList = Path.dirname "d/film.x264-q18.avi".toList ∧
      (ofEncoder .x264).path "d/film.mkv".toList none ≠
        (ofEncoder .x264).path "d/film.x264-q18.avi".toList none ∧
      (ofEncoder .x264).path "d/film.mkv".toList (some []) =
        (ofEncoder .x264).path "e/film.avi".toList (some []) := by
  have hdir : Path.dirname "d/film.mkv".toList = Path.dirname "d/film.x264-q18.avi".toList := by
    decide
  refine ⟨hdir, ?_, ?_⟩
  · rw [Ne, path_eq_path_iff fun _ => hdir]
    rintro ⟨hstem, _⟩
    exact absurd hstem (by decide)
  · rw [path_eq_path_iff fun hnone => absurd hnone (by simp)]
    exact ⟨by decide, rfl, rfl, fun _ => rfl⟩

/-! ### Encoded files and their sources -/

/-- The name of an encoded file has two parts more than the stem of its source, and the name of the
source has at most one. -/
theorem fileName_ne_basename (source : Text) (o : Output) :
    o.fileName source ≠ Path.basename source := by
  intro h
  have hextension : Path.extension source = '.' :: (o.video.suffix ++ '.' :: o.container.name) := by
    rw [← Path.stem_append_extension, fileName, List.append_assoc, List.append_cancel_left_eq] at h
    simpa using h.symm
  exact Path.dot_not_mem_extension hextension (by simp)

/-- **An encoded file is never its own source**, wherever it lies: it has another name.  So its path
is not that of the source; and it is not the normal form of that either, unless the source is given
as a directory, by an empty last component or one of dots. -/
theorem path_avoids_source (source : Text) (o : Output) (dir : Option Text) :
    Path.basename (o.path source dir) ≠ Path.basename source ∧ o.path source dir ≠ source ∧
      (Path.IsPlain (Path.basename source) → o.path source dir ≠ Path.normalize source) := by
  have hname : Path.basename (o.path source dir) ≠ Path.basename source := by
    rw [basename_path]
    exact fileName_ne_basename source o
  refine ⟨hname, fun h => hname (by rw [h]), ?_⟩
  intro hplain h
  rw [h, Path.basename_normalize hplain] at hname
  exact hname rfl

/-- A source that is called like an encoded file, encoded into its own directory. -/
theorem path_avoids_source_encoded :
    Path.IsPlain (Path.basename "./d//film.x264-q18.mkv".toList) ∧
      (ofEncoder .x264).path "./d//film.x264-q18.mkv".toList
          (some (Path.dirname "./d//film.x264-q18.mkv".toList)) ≠
        Path.normalize "./d//film.x264-q18.mkv".toList := by
  have hplain : Path.IsPlain (Path.basename "./d//film.x264-q18.mkv".toList) :=
    Path.isPlain_of_mem (c := 'f') (by decide) (by decide) (by decide)
  exact ⟨hplain, (path_avoids_source _ _ _).2.2 hplain⟩

end Output

end Transcode

/-
**Video encoders.**

The encoders a specification can choose from, with what is known about each: how it is described,
what the chunked encoding front end calls it, and which quantizers it accepts.  Copying the video
stream counts as an encoder; it has no quantizer.

Main definitions:

* `Transcode.VideoEncoder` — the encoders, in the order in which they are listed;
* `Transcode.VideoEncoder.ofName?` — the encoder of a name;
* `Transcode.VideoEncoder.quantizerRange?` — the quantizers an encoder accepts, if it has any;
* `Transcode.VideoEncoder.isPinned` — the AV1 encoders, which scale by pinning threads.

Main results:

* `Transcode.VideoEncoder.ofName?_eq_some_iff` — a name names exactly the encoder whose name it is.
-/

import Transcode.Text.Blank
import Transcode.Catalog.Range

set_option relaxedAutoImplicit false
set_option autoImplicit false

namespace Transcode

/-- A video encoder, or the copying of the video stream. -/
inductive VideoEncoder where
  | aom
  | rav1e
  | svt
  | x264
  | x265
  | copy
  deriving DecidableEq, Repr, Inhabited

namespace VideoEncoder

/-- The encoders, in the order in which they are listed. -/
def all : List VideoEncoder := [aom, rav1e, svt, x264, x265, copy]

/-- The name by which a specification chooses the encoder. -/
def name : VideoEncoder → Text
  | aom => "aom".toList
  | rav1e => "rav1e".toList
  | svt => "svt".toList
  | x264 => "x264".toList
  | x265 => "x265".toList
  | copy => "copy".toList

/-- The encoder that a name stands for; case matters. -/
def ofName? (s : Text) : Option VideoEncoder := all.find? fun e => e.name == s

/-- What the encoder is, in a few words. -/
def description : VideoEncoder → Text
  | aom => "AV1 (libaom)".toList
  | rav1e => "AV1 (rav1e)".toList
  | svt => "AV1 (SVT-AV1)".toList
  | x264 => "H.264 (x264)".toList
  | x265 => "HEVC (x265)".toList
  | copy => "Stream copy, no re-encode".toList

/-- What the chunked encoding front end calls the encoder. -/
def backend : VideoEncoder → Text
  | svt => "svt-av1".toList
  | e => e.name

/-- The quantizers the encoder accepts; copying has none. -/
def quantizerRange? : VideoEncoder → Option Range
  | aom | svt => some ⟨0, 63⟩
  | rav1e => some ⟨0, 255⟩
  | x264 => some ⟨-12, 51⟩
  | x265 => some ⟨0, 51⟩
  | copy => none

/-- Whether the encoder scales by pinning threads to workers, as the AV1 encoders do. -/
def isPinned : VideoEncoder → Bool
  | aom | rav1e | svt => true
  | x264 | x265 | copy => false

theorem mem_all (e : VideoEncoder) : e ∈ all := by cases e <;> decide

theorem name_injective {d e : VideoEncoder} (h : d.name = e.name) : d = e := by
  revert h; cases d <;> cases e <;> decide

@[simp] theorem ofName?_name (e : VideoEncoder) : ofName? e.name = some e := by cases e <;> decide

/-- A name stands for exactly the encoder whose name it is. -/
theorem ofName?_eq_some_iff {s : Text} {e : VideoEncoder} : ofName? s = some e ↔ s = e.name := by
  constructor
  · intro h
    have := List.find?_some h
    exact (beq_iff_eq.1 this).symm
  · rintro rfl
    exact ofName?_name e

end VideoEncoder

end Transcode

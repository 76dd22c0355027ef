/-
**Audio encoders.**

Main definitions:

* `Transcode.AudioEncoder` — the encoders, in the order in which they are listed;
* `Transcode.AudioEncoder.ofName?` — the encoder of a name;
* `Transcode.AudioEncoder.hasBitrate` — the encoders that a bitrate means something to;
* `Transcode.AudioEncoder.defaultBitrate` — the bitrate where none is chosen.

Main results:

* `Transcode.AudioEncoder.ofName?_eq_some_iff` — a name names exactly the encoder whose name it is.
-/

import Transcode.Text.Blank

set_option relaxedAutoImplicit false
set_option autoImplicit false

namespace Transcode

/-- An audio encoder, or the copying of the audio streams. -/
inductive AudioEncoder where
  | copy
  | aac
  | flac
  | opus
  deriving DecidableEq, Repr, Inhabited

namespace AudioEncoder

/-- The encoders, in the order in which they are listed. -/
def all : List AudioEncoder := [copy, aac, flac, opus]

/-- The name by which a specification chooses the encoder. -/
def name : AudioEncoder → Text
  | copy => "copy".toList
  | aac => "aac".toList
  | flac => "flac".toList
  | opus => "opus".toList

/-- The encoder that a name stands for; case matters. -/
def ofName? (s : Text) : Option AudioEncoder := all.find? fun e => e.name == s

/-- What the encoder is, in a few words. -/
def description : AudioEncoder → Text
  | copy => "Stream copy, no re-encode".toList
  | aac => "AAC".toList
  | flac => "FLAC (lossless)".toList
  | opus => "Opus".toList

/-- Whether a bitrate means something to the encoder: copying has none to set and a lossless
encoder takes what it needs. -/
def hasBitrate : AudioEncoder → Bool
  | aac | opus => true
  | copy | flac => false

/-- The bitrate where none is chosen, in kilobits per second and channel. -/
def defaultBitrate : Int := 80

theorem name_injective {d e : AudioEncoder} (h : d.name = e.name) : d = e := by
  revert h; cases d <;> cases e <;> decide

@[simp] theorem ofName?_name (e : AudioEncoder) : ofName? e.name = some e := by cases e <;> decide

/-- A name stands for exactly the encoder whose name it is. -/
theorem ofName?_eq_some_iff {s : Text} {e : AudioEncoder} : ofName? s = some e ↔ s = e.name := by
  constructor
  · intro h
    have := List.find?_some h
    exact (beq_iff_eq.1 this).symm
  · rintro rfl
    exact ofName?_name e

end AudioEncoder

end Transcode

/-
**Valid outputs.**

An output is sound if its encoder accepts its settings.  It is valid if, besides, everything in it
fits where it is going to be stored.  Whether the files of its tracks exist is a third thing.

Main definitions:

* `Transcode.Video.IsSound`, `Transcode.Output.IsSound` — what encoders accept;
* `Transcode.TrackSource.IsIndexed`, `Transcode.Output.IsValid` — what fits;
* `Transcode.Output.ReadsFrom` — the files of the tracks are among some files.

Main results:

* `Transcode.Output.isSound_ofEncoder`, `Transcode.Output.isValid_ofEncoder` — every encoder starts
  from a valid output.
-/

import Transcode.Output.Basic

set_option relaxedAutoImplicit false
set_option autoImplicit false

namespace Transcode

/-- A video configuration whose values are in the ranges of its encoder. -/
structure Video.IsSound (v : Video) : Prop where
  crf : ∀ q ∈ v.crf?, ∀ r ∈ v.encoder.quantizerRange?, r.contains q = true
  speed : ∀ s ∈ v.speed?, Range.speed.contains s = true
  grain : ∀ g ∈ v.grain?, Range.grain.contains g = true

/-- A track number that fits eight bits. -/
def Range.IsTrackIndex (n : Int) : Prop := Range.unsigned8.contains n = true

/-- A track source whose number, if it has one, fits eight bits. -/
def TrackSource.IsIndexed : TrackSource → Prop
  | video index => Range.IsTrackIndex index
  | external _ trackIndex => ∀ n ∈ trackIndex, Range.IsTrackIndex n

/-- A track source that is a stream, or a file among the given ones. -/
def TrackSource.ReadsFrom (has : Text → Bool) : TrackSource → Prop
  | video _ => True
  | external path _ => has path = true

namespace Output

/-- An output whose encoders accept its settings. -/
structure IsSound (o : Output) : Prop where
  video : o.video.IsSound
  bitrate : Range.bitrate.min ≤ o.audioBitrate

/-- A sound output in which everything fits where it is stored. -/
structure IsValid (o : Output) : Prop where
  sound : o.IsSound
  bitrate : o.audioBitrate ≤ Range.bitrate.max
  resolution : ∀ r ∈ o.resolution, r.IsEncodable
  indexed : ∀ t ∈ o.tracks, t.source.IsIndexed

/-- An output whose tracks are streams, or from files among the given ones. -/
def ReadsFrom (has : Text → Bool) (o : Output) : Prop := ∀ t ∈ o.tracks, t.source.ReadsFrom has

/-- What an encoder starts from is in its ranges. -/
theorem isSound_default (e : VideoEncoder) : (Video.default e).IsSound := by
  constructor <;> cases e <;>
    simp [Video.default, Video.crf?, Video.speed?, Video.grain?, Video.encoder,
      VideoEncoder.quantizerRange?, Range.speed, Range.grain]

/-- Every encoder starts from a sound output. -/
theorem isSound_ofEncoder (e : VideoEncoder) : (ofEncoder e).IsSound where
  video := isSound_default e
  bitrate := by simp [ofEncoder, AudioEncoder.defaultBitrate, Range.bitrate]

/-- Every encoder starts from a valid output. -/
theorem isValid_ofEncoder (e : VideoEncoder) : (ofEncoder e).IsValid where
  sound := isSound_ofEncoder e
  bitrate := by simp [ofEncoder, AudioEncoder.defaultBitrate, Range.bitrate]
  resolution := by simp [ofEncoder]
  indexed := by simp [ofEncoder, tracks]

end Output

end Transcode

/-
**Outputs.**

An output is the complete configuration of one encoded file: its video, its container, what is
done with the audio, and which tracks it gets.  Bit depth and resolution are those of the source
unless they are overridden.

Main definitions:

* `Transcode.Output` — an output;
* `Transcode.Output.default` — the output where nothing is specified;
* `Transcode.Output.document` — an output as a document.
-/

import Transcode.Output.Video
import Transcode.Setting

set_option relaxedAutoImplicit false
set_option autoImplicit false

namespace Transcode

/-- The configuration of one encoded file. -/
structure Output where
  video : Video
  container : Container
  /-- The bit depth, where it is not that of the source. -/
  bitDepth : Option BitDepth
  /-- The resolution, where it is not that of the source. -/
  resolution : Option Resolution
  audioEncoder : AudioEncoder
  /-- The audio bitrate in kilobits per second and channel. -/
  audioBitrate : Int
  /-- Whether the audio is normalized. -/
  audioNormalize : Bool
  audioTracks : List Track
  subtitleTracks : List Track
  deriving DecidableEq, Repr

namespace Output

/-- The output of an encoder where nothing else is specified: film at the encoder's usual
quantizer in the default container, with the audio copied. -/
def ofEncoder (e : VideoEncoder) : Output where
  video := .default e
  container := .default
  bitDepth := none
  resolution := none
  audioEncoder := .copy
  audioBitrate := AudioEncoder.defaultBitrate
  audioNormalize := false
  audioTracks := []
  subtitleTracks := []

/-- The encoder where none is chosen. -/
def defaultEncoder : VideoEncoder := .x264

/-- The output where nothing is specified. -/
def default : Output := ofEncoder defaultEncoder

instance : Inhabited Output := ⟨default⟩

/-- The tracks of an output, audio before subtitles. -/
def tracks (o : Output) : List Track := o.audioTracks ++ o.subtitleTracks

end Output

/-! ### Outputs as documents -/

/-- A track source as a document. -/
def TrackSource.document : TrackSource → Json
  | video index => .ofFields [("kind", .text "video".toList), ("index", .number index)]
  | external path trackIndex =>
    .ofFields ([("kind", .text "external".toList), ("path", .text path)] ++
      Json.optional "trackIndex" trackIndex .number)

/-- A track as a document. -/
def Track.document (t : Track) : Json :=
  .ofFields [("source", t.source.document), ("enabled", .bool t.enabled),
    ("forced", .bool t.forced)]

/-- A resolution as a document. -/
def Resolution.document (r : Resolution) : Json :=
  .ofFields [("width", .number r.width), ("height", .number r.height)]

namespace Output

/-- The two overrides of an output, which are listed in the order in which they were set. -/
inductive Override where
  | bitDepth
  | resolution
  deriving DecidableEq, Repr

/-- The override that a setting makes, if it makes one. -/
def Override.ofToken? : Token → Option Override
  | .bitDepth _ => some .bitDepth
  | .resolution _ => some .resolution
  | _ => none

/-- The override that some settings make first; the bit depth where they make none. -/
def Override.first (tokens : List Token) : Override :=
  (tokens.findSome? Override.ofToken?).getD .bitDepth

/-- The overrides of an output as fields, beginning with the one that was set first. -/
def overrideFields (o : Output) : Override → List (String × Json)
  | .bitDepth => Json.optional "bitDepthOverride" o.bitDepth (fun d => .number d.bits) ++
      Json.optional "resolutionOverride" o.resolution Resolution.document
  | .resolution => Json.optional "resolutionOverride" o.resolution Resolution.document ++
      Json.optional "bitDepthOverride" o.bitDepth fun d => .number d.bits

/-- The fields of an output, in the order in which they are listed. -/
def fields (o : Output) (first : Override) : List (String × Json) :=
  [("video", o.video.document), ("outputExtension", .text o.container.name),
    ("audio", .ofFields [("encoder", .text o.audioEncoder.name),
      ("kbpsPerChannel", .number o.audioBitrate)]),
    ("audioNormalize", .bool o.audioNormalize),
    ("audioTracks", .list (o.audioTracks.map Track.document)),
    ("subtitleTracks", .list (o.subtitleTracks.map Track.document))] ++ o.overrideFields first

/-- An output as a document. -/
def document (o : Output) : Json := .ofFields (o.fields .bitDepth)

end Output

end Transcode

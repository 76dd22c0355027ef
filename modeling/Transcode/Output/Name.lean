/-
**Names of encoded files.**

An encoded file is named for its source and for how it was encoded: the stem of the source, the
encoder with its quantizer, and the extension of the container, separated by dots.  It lies beside
its source unless a directory is given.  A file whose name carries such an encoder part counts as
processed.

Main definitions:

* `Transcode.Video.suffix` — the encoder part of the name;
* `Transcode.Output.fileName`, `Transcode.Output.path` — name and path of the encoded file;
* `Transcode.Path.isProcessed` — whether a path looks like that of an encoded file.
-/

import Transcode.Output.Basic

set_option relaxedAutoImplicit false
set_option autoImplicit false

namespace Transcode

/-- The encoder part of a name before the quantizer. -/
def VideoEncoder.marker (e : VideoEncoder) : Text := e.name ++ "-q".toList

/-- The encoder part of a name: the encoder and its quantizer, or that the video is copied. -/
def Video.suffix (v : Video) : Text :=
  match v.crf? with
  | some crf => v.encoder.marker ++ Text.ofInt crf
  | none => v.encoder.name

namespace Output

/-- The name of the encoded file of a source. -/
def fileName (source : Text) (o : Output) : Text :=
  Path.stem source ++ '.' :: o.video.suffix ++ '.' :: o.container.name

/-- The path of the encoded file of a source: in the given directory, or beside the source. -/
def path (source : Text) (o : Output) (dir : Option Text) : Text :=
  Path.join (dir.getD (Path.dirname source)) (o.fileName source)

end Output

/-! ### Recognising encoded files -/

/-- The encoder parts, with the dot before them, by which encoded files are recognised. -/
def Path.markers : List Text :=
  (VideoEncoder.all.filter (· != .copy)).map fun e => '.' :: e.marker

/-- Whether a path looks like that of an encoded file: its stem holds the encoder part of a name, or
ends with the one for copied video. -/
def Path.isProcessed (p : Text) : Bool :=
  markers.any (Text.occursIn · (stem p)) ||
    ('.' :: VideoEncoder.copy.name).isSuffixOf (stem p)

end Transcode

/-
**Tracks of an output.**

A track is taken from a stream of the video source, or from a file beside it: the whole file, or
one numbered track of it.  It may be enabled by default and may be forced.

Main definitions:

* `Transcode.TrackSource`, `Transcode.Track` — where a track comes from, and a track;
* `Transcode.Track.shown`, `Transcode.Track.listing` — a track, and several, in a summary.
-/

import Transcode.Path.Name
import Transcode.Text.Decimal

set_option relaxedAutoImplicit false
set_option autoImplicit false

namespace Transcode

/-- Where a track comes from. -/
inductive TrackSource where
  /-- A stream of the video source. -/
  | video (index : Int)
  /-- A file, or the track of it that has the given number. -/
  | external (path : Text) (trackIndex : Option Int)
  deriving DecidableEq, Repr, Inhabited

/-- A track of an output. -/
structure Track where
  source : TrackSource
  /-- Whether the track plays unless another one is chosen. -/
  enabled : Bool
  /-- Whether the track plays even if another one is chosen. -/
  forced : Bool
  deriving DecidableEq, Repr, Inhabited

/-- A track source in a summary: a stream by its number, a file by its name. -/
def TrackSource.shown : TrackSource → Text
  | video index => '#' :: Text.ofInt index
  | external path none => Path.basename path
  | external path (some index) => Path.basename path ++ '#' :: Text.ofInt index

namespace Track

/-- The flags of a track in a summary; nothing if it has none. -/
def flags (t : Track) : Text :=
  match t.enabled, t.forced with
  | false, false => []
  | true, false => " (default)".toList
  | false, true => " (forced)".toList
  | true, true => " (default+forced)".toList

/-- A track in a summary. -/
def shown (t : Track) : Text := t.source.shown ++ t.flags

/-- Several tracks in a summary. -/
def listing (ts : List Track) : Text := " | ".toList.intercalate (ts.map shown)

end Track

end Transcode

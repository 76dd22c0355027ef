/-
**One-line summaries of outputs.**

A summary lists what an output is, part by part: the video with the fields of its encoder, the
container, the overrides, the audio and the tracks.  Parts that say nothing are left out.

Main definitions:

* `Transcode.Video.summary` — the video part;
* `Transcode.Output.summary` — the line.
-/

import Transcode.Output.Basic

set_option relaxedAutoImplicit false
set_option autoImplicit false

namespace Transcode

/-- A field of the video part: a blank, a label and the value; nothing without a value. -/
def Video.shownField {α : Type} (label : String) (shown : α → Text) : Option α → Text
  | none => []
  | some a => ' ' :: label.toList ++ '=' :: shown a

/-- A flag as a digit. -/
def Video.shownFlag (b : Bool) : Text := if b then ['1'] else ['0']

/-- The video part of a summary: the encoder and its fields. -/
def Video.summary (v : Video) : Text :=
  match v.encoder with
  | .copy => "video copy".toList
  | e => e.name ++ shownField "q" Text.ofInt v.crf? ++ shownField "s" Text.ofInt v.speed? ++
      shownField "p" Profile.name v.profile? ++ shownField "grain" Text.ofInt v.grain? ++
      shownField "compat" shownFlag v.compat?

namespace Output

/-- The bitrate is part of a summary where the audio encoder has one. -/
def audioSummary (o : Output) : Text :=
  "audio ".toList ++ o.audioEncoder.name ++
    if o.audioEncoder.hasBitrate then ' ' :: Text.ofInt o.audioBitrate ++ "k/ch".toList else []

/-- A list of tracks with a label; nothing for an empty list. -/
def trackPart (label : String) (ts : List Track) : List Text :=
  if ts = [] then [] else [label.toList ++ ' ' :: Track.listing ts]

/-- The parts of a summary. -/
def summaryParts (o : Output) : List Text :=
  [o.video.summary, o.container.name] ++
    (o.bitDepth.toList.map fun d => d.name ++ "-bit".toList) ++
    (o.resolution.toList.map Resolution.shown) ++
    [o.audioSummary] ++
    (if o.audioNormalize then ["normalized".toList] else []) ++
    trackPart "audio tracks" o.audioTracks ++ trackPart "subtitles" o.subtitleTracks

/-- The summary of an output in one line. -/
def summary (o : Output) : Text := ", ".toList.intercalate o.summaryParts

end Output

end Transcode

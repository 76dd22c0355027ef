/-
**Listings of encoders and filters.**

Main definitions:

* `Transcode.Listing.encodersDocument`, `Transcode.Listing.encoders` — the encoders with their
  quantizers and defaults, as a document and as text;
* `Transcode.Listing.filters` — the clauses that a segment can hold.
-/

import Transcode.CommandLine.Response
import Transcode.Error.Report
import Transcode.Json.Printer
import Transcode.Output.Basic

set_option relaxedAutoImplicit false
set_option autoImplicit false

namespace Transcode.Listing

open Response

/-! ### Encoders -/

/-- A video encoder as a document: what is known about it, and what it starts from. -/
def videoEncoder (e : VideoEncoder) : Json :=
  .ofFields ([("name", .text e.name), ("description", .text e.description),
    ("backendName", .text e.backend)] ++
    Json.optional "quantizerRange" e.quantizerRange? Range.document ++
    [("defaults", (Video.default e).document)])

/-- An audio encoder as a document. -/
def audioEncoder (e : AudioEncoder) : Json :=
  .ofFields [("name", .text e.name), ("description", .text e.description)]

/-- The encoders as a document. -/
def encodersDocument : Json :=
  .ofFields [("video", .list (VideoEncoder.all.map videoEncoder)),
    ("audio", .list (AudioEncoder.all.map audioEncoder))]

/-- A name in the column for names. -/
def nameColumn (paint : Painter) (name : Text) : Text :=
  "  ".toList ++ paint .cyan (name.rightpad 6 ' ') ++ [' ']

/-- The quantizers of an encoder, in parentheses. -/
def quantizers (e : VideoEncoder) : Text :=
  match e.quantizerRange? with
  | some r => "(q ".toList ++ Text.ofInt r.min ++ "..".toList ++ Text.ofInt r.max ++ [')']
  | none => "(no quantizer)".toList

/-- A value in a list of defaults. -/
def plainValue : Json → Text
  | .text s => s
  | document => document.print .compact

/-- What an encoder starts from, field by field. -/
def defaults (e : VideoEncoder) : Text :=
  [' '].intercalate ((Video.default e).fields.map fun f => f.1.toList ++ '=' :: plainValue f.2)

/-- The lines on a video encoder; one without defaults has a single line. -/
def videoLines (paint : Painter) (e : VideoEncoder) : Text :=
  line (nameColumn paint e.name ++ e.description ++
    ' ' :: paint .gray (quantizers e)) ++
  if defaults e = [] then []
  else line (List.replicate 9 ' ' ++ paint .gray (defaults e))

/-- The encoders as text. -/
def encoders (paint : Painter) : Text :=
  header paint "Video Encoders".toList ++
  VideoEncoder.all.flatMap (videoLines paint) ++
  header paint "Audio Encoders".toList ++
  (AudioEncoder.all.flatMap fun e => line (nameColumn paint e.name ++ e.description)) ++
  line [] ++
  line (paint .gray ("Default audio bitrate: ".toList ++
    Text.ofInt AudioEncoder.defaultBitrate ++ " kbps per channel".toList))

/-! ### Filters -/

/-- The lines on a filter: its keys, and what it sets. -/
def filterLines (paint : Painter) (f : Filter) : Text :=
  line ("  ".toList ++ paint .cyan ([' '].intercalate f.keys)) ++
  line ("    ".toList ++ f.description)

/-- A remark with a label. -/
def remark (paint : Painter) (label text : Text) : Text :=
  line (paint .bold label ++ ' ' :: text)

/-- The filters as text, with remarks on their values and on how clauses are put together. -/
def filters (paint : Painter) : Text :=
  header paint "Specification Filters".toList ++
  Filter.all.flatMap (filterLines paint) ++
  line [] ++
  remark paint "Profiles:".toList (", ".toList.intercalate (Profile.all.map Profile.name)) ++
  remark paint "Track tags:".toList "d/e = default (enabled), f = forced".toList ++
  remark paint "Track ids:".toList
    "N = stream of the source, ext = <source>.ext, N.ext = track N of <source>.ext".toList ++
  line [] ++
  line (paint .gray
    "Separate clauses with \",\" and outputs with \";\", e.g.".toList) ++
  line (paint .gray
    "  enc=x264,q=18;enc=aom,q=16,s=4,p=anime,aenc=opus,ab=64".toList)

end Transcode.Listing

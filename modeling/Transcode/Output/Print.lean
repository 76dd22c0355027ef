/-
**Writing outputs as specifications.**

An output is written as a clause for everything it settles, the encoder first.  Its tracks are
written by references; which references name a track beside a source is a matter of what exists
there.

Main definitions:

* `Transcode.TrackRef.Names` — a reference names a track of a source among some files;
* `Transcode.Video.settings`, `Transcode.Output.settings` — the settings of a video configuration,
  and of an output;
* `Transcode.Specification.print` — several outputs as one text.

Main results:

* `Transcode.Video.videoEncoder_mem_settings` — the encoder is written for every video
  configuration.
-/

import Transcode.Clause.Print
import Transcode.Output.Basic

set_option relaxedAutoImplicit false
set_option autoImplicit false

namespace Transcode

/-! ### References to tracks -/

/-- A reference names a track of a source among some files.  A stream is named by its number; a file
by the identifier that is its extension, unless that would be a stream number; a track of a file by
its number, a dot and that identifier, unless a file with that whole extension exists. -/
inductive TrackRef.Names (source : Text) (has : Text → Bool) : TrackRef → Track → Prop where
  | stream {index : Nat} (h : index ≤ Identifier.maxIndex) (enabled forced : Bool) :
      Names source has ⟨Text.ofNat index, enabled, forced⟩ ⟨.video index, enabled, forced⟩
  | file {identifier : Text} (hid : Identifier.IsWellFormed identifier)
      (hstream : Identifier.stream? identifier = none)
      (hfile : has (Path.withExtension source identifier) = true) (enabled forced : Bool) :
      Names source has ⟨identifier, enabled, forced⟩
        ⟨.external (Path.withExtension source identifier) none, enabled, forced⟩
  | numbered {index : Nat} {identifier : Text} (h : index ≤ Identifier.maxIndex)
      (hid : Identifier.IsWellFormed identifier)
      (hfile : has (Path.withExtension source identifier) = true)
      (hfree : has (Path.withExtension source (Text.ofNat index ++ '.' :: identifier)) = false)
      (enabled forced : Bool) :
      Names source has ⟨Text.ofNat index ++ '.' :: identifier, enabled, forced⟩
        ⟨.external (Path.withExtension source identifier) (some index), enabled, forced⟩

/-! ### Outputs -/

/-- The settings of a video configuration: its encoder, and each of its fields. -/
def Video.settings {τ : Type} (v : Video) : List (Setting τ) :=
  [.videoEncoder v.encoder] ++ v.crf?.toList.map .quantizer ++ v.speed?.toList.map .speed ++
    v.profile?.toList.map .profile ++ v.grain?.toList.map .grain ++ v.compat?.toList.map .compat

/-- The encoder is among the settings of every video configuration. -/
theorem Video.videoEncoder_mem_settings {τ : Type} (v : Video) :
    (.videoEncoder v.encoder : Setting τ) ∈ v.settings := by
  simp [settings]

namespace Output

/-- The settings of an output, with its tracks as they are given: references for the clauses that it
is written as, and its own tracks for what these clauses stand for. -/
def settings {τ : Type} (o : Output) (audio subtitles : List τ) : List (Setting τ) :=
  o.video.settings ++ [.container o.container] ++ o.bitDepth.toList.map .bitDepth ++
    o.resolution.toList.map .resolution ++
    [.audioEncoder o.audioEncoder, .audioBitrate o.audioBitrate] ++
    (if o.audioNormalize then [.audioNormalize] else []) ++
    (if audio.isEmpty then [] else [.audioTracks audio]) ++
    if subtitles.isEmpty then [] else [.subtitleTracks subtitles]

end Output

/-- The text of several outputs, each given by its clauses, with semicolons between them. -/
def Specification.print (outputs : List (List Clause)) : Text :=
  [';'].intercalate (outputs.map Segment.print)

end Transcode

/-
**Settings of an output.**

A setting is what a clause says, with its value read.  What a track is given as is a parameter:
reading a clause gives references to tracks, and looking the references up gives tracks.

Main definitions:

* `Transcode.Setting` — a setting over some way of giving tracks;
* `Transcode.Setting.filter` — the filter a setting belongs to;
* `Transcode.Setting.traverse` — a setting with its tracks replaced by a computation;
* `Transcode.Clause`, `Transcode.Token` — settings as they are written, and with their tracks found.
-/

import Transcode.Catalog.AudioEncoder
import Transcode.Catalog.Format
import Transcode.Catalog.Profile
import Transcode.Catalog.VideoEncoder
import Transcode.Filter
import Transcode.Track.Reference

set_option relaxedAutoImplicit false
set_option autoImplicit false

namespace Transcode

/-- A setting of an output; `τ` is what a track is given as. -/
inductive Setting (τ : Type) where
  | videoEncoder (encoder : VideoEncoder)
  | quantizer (value : Int)
  | speed (value : Int)
  | profile (profile : Profile)
  | grain (value : Int)
  | compat (enabled : Bool)
  | container (container : Container)
  | bitDepth (depth : BitDepth)
  | resolution (resolution : Resolution)
  | audioEncoder (encoder : AudioEncoder)
  | audioBitrate (kbps : Int)
  | audioTracks (tracks : List τ)
  | audioNormalize
  | subtitleTracks (tracks : List τ)
  deriving DecidableEq, Repr

/-- A setting as it is written: its tracks are references. -/
abbrev Clause := Setting TrackRef

/-- A setting whose tracks have been found. -/
abbrev Token := Setting Track

namespace Setting

/-- The filter that a setting belongs to. -/
def filter {τ : Type} : Setting τ → Filter
  | videoEncoder _ => .videoEncoder
  | quantizer _ => .quantizer
  | speed _ => .speed
  | profile _ => .profile
  | grain _ => .grain
  | compat _ => .compat
  | container _ => .container
  | bitDepth _ => .bitDepth
  | resolution _ => .resolution
  | audioEncoder _ => .audioEncoder
  | audioBitrate _ => .audioBitrate
  | audioTracks _ => .audioTracks
  | audioNormalize => .audioNormalize
  | subtitleTracks _ => .subtitleTracks

/-- The setting with every track replaced by what a computation makes of it, in order. -/
def traverse {m : Type → Type} [Monad m] {σ τ : Type} (f : σ → m τ) :
    Setting σ → m (Setting τ)
  | videoEncoder e => pure (videoEncoder e)
  | quantizer v => pure (quantizer v)
  | speed v => pure (speed v)
  | profile p => pure (profile p)
  | grain v => pure (grain v)
  | compat b => pure (compat b)
  | container c => pure (container c)
  | bitDepth d => pure (bitDepth d)
  | resolution r => pure (resolution r)
  | audioEncoder e => pure (audioEncoder e)
  | audioBitrate k => pure (audioBitrate k)
  | audioTracks ts => do return audioTracks (← ts.mapM f)
  | audioNormalize => pure audioNormalize
  | subtitleTracks ts => do return subtitleTracks (← ts.mapM f)

/-- The video encoder that a setting chooses, if it chooses one. -/
def videoEncoder? {τ : Type} : Setting τ → Option VideoEncoder
  | videoEncoder e => some e
  | _ => none

/-- The tracks of a setting; only track lists have any. -/
def tracks {τ : Type} : Setting τ → List τ
  | audioTracks ts | subtitleTracks ts => ts
  | _ => []

end Setting

/-- The track references of a clause replaced by the tracks they stand for beside a source. -/
def Clause.find (source : Text) (clause : Clause) : Attempt Token :=
  Setting.traverse (TrackRef.find source) clause

end Transcode

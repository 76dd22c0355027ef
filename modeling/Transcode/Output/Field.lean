/-
**The fields of an output, by filter.**

Every filter is about one field of an output.  What the field holds is given as the setting that
would put it there; a field that the encoder does not have holds nothing, and neither does one that
is as in the source or turned off.  What the fields hold determines the output.

Main definitions:

* `Transcode.VideoEncoder.takes` — which filters have a field that settings are put into;
* `Transcode.Output.held` — what the field of a filter holds.

Main results:

* `Transcode.Output.ext_held` — what the fields hold determines the output.
-/

import Transcode.Output.Basic

set_option relaxedAutoImplicit false
set_option autoImplicit false

namespace Transcode

/-- Whether the outputs of an encoder have a field into which the settings of a filter are put.  The
encoder itself is no such field: it is chosen before settings are put in. -/
def VideoEncoder.takes (e : VideoEncoder) : Filter → Bool
  | .videoEncoder => false
  | .quantizer | .profile => e != .copy
  | .speed | .grain => e == .aom || e == .rav1e || e == .svt
  | .compat => e == .aom || e == .x264 || e == .x265
  | _ => true

namespace Video

theorem isSome_crf? (v : Video) : v.crf?.isSome = v.encoder.takes .quantizer := by cases v <;> rfl

theorem isSome_profile? (v : Video) : v.profile?.isSome = v.encoder.takes .profile := by
  cases v <;> rfl

theorem isSome_compat? (v : Video) : v.compat?.isSome = v.encoder.takes .compat := by
  cases v <;> rfl

end Video

namespace Output

/-- What the field of a filter holds, as the setting that would put it there. -/
def held (o : Output) : Filter → Option Token
  | .videoEncoder => some (.videoEncoder o.video.encoder)
  | .quantizer => o.video.crf?.map .quantizer
  | .speed => o.video.speed?.map .speed
  | .profile => o.video.profile?.map .profile
  | .grain => o.video.grain?.map .grain
  | .compat => o.video.compat?.map .compat
  | .container => some (.container o.container)
  | .bitDepth => o.bitDepth.map .bitDepth
  | .resolution => o.resolution.map .resolution
  | .audioEncoder => some (.audioEncoder o.audioEncoder)
  | .audioBitrate => some (.audioBitrate o.audioBitrate)
  | .audioTracks => some (.audioTracks o.audioTracks)
  | .audioNormalize => if o.audioNormalize then some .audioNormalize else none
  | .subtitleTracks => some (.subtitleTracks o.subtitleTracks)

/-- What the fields hold determines the video configuration. -/
theorem video_eq_of_held {o o' : Output} (h : ∀ f, o.held f = o'.held f) : o.video = o'.video := by
  refine Video.ext_fields ?_ ?_ ?_ ?_ ?_ ?_
  · exact Setting.videoEncoder.inj (Option.some.inj (h .videoEncoder))
  · exact Option.map_injective (fun _ _ => Setting.quantizer.inj) (h .quantizer)
  · exact Option.map_injective (fun _ _ => Setting.speed.inj) (h .speed)
  · exact Option.map_injective (fun _ _ => Setting.profile.inj) (h .profile)
  · exact Option.map_injective (fun _ _ => Setting.grain.inj) (h .grain)
  · exact Option.map_injective (fun _ _ => Setting.compat.inj) (h .compat)

/-- What the fields hold determines the output. -/
theorem ext_held {o o' : Output} (h : ∀ f, o.held f = o'.held f) : o = o' := by
  have hvideo := video_eq_of_held h
  have hcontainer : o.container = o'.container :=
    Setting.container.inj (Option.some.inj (h .container))
  have hdepth : o.bitDepth = o'.bitDepth :=
    Option.map_injective (fun _ _ => Setting.bitDepth.inj) (h .bitDepth)
  have hresolution : o.resolution = o'.resolution :=
    Option.map_injective (fun _ _ => Setting.resolution.inj) (h .resolution)
  have hencoder : o.audioEncoder = o'.audioEncoder :=
    Setting.audioEncoder.inj (Option.some.inj (h .audioEncoder))
  have hbitrate : o.audioBitrate = o'.audioBitrate :=
    Setting.audioBitrate.inj (Option.some.inj (h .audioBitrate))
  have haudio : o.audioTracks = o'.audioTracks :=
    Setting.audioTracks.inj (Option.some.inj (h .audioTracks))
  have hnormalize : o.audioNormalize = o'.audioNormalize := by
    have hheld := h .audioNormalize
    unfold held at hheld
    cases hn : o.audioNormalize <;> cases hn' : o'.audioNormalize <;> simp_all
  have hsubtitles : o.subtitleTracks = o'.subtitleTracks :=
    Setting.subtitleTracks.inj (Option.some.inj (h .subtitleTracks))
  cases o
  cases o'
  simp_all

end Output

end Transcode

/-
**An output is what its settings describe.**

The settings of a sound output are refused by no encoder of it, and put into the output that the
encoder starts from they give the output back.  What has to hold for every setting of an output, be
it as it is written or with its tracks, is a matter of the fields that the output settles.

Main definitions:

* `Transcode.Output.Settles` — an output settles a setting.

Main results:

* `Transcode.Output.settles_of_mem_settings` — an output settles all of its settings;
* `Transcode.Output.related_settings` — settings of one output differ in their tracks only;
* `Transcode.Output.resolve_settings` — **a sound output is what its settings describe**.
-/

import Transcode.Output.Print
import Transcode.Output.Resolve
import Transcode.Proofs.Output.Fold
import Transcode.Proofs.Track.Found

set_option relaxedAutoImplicit false
set_option autoImplicit false

namespace Transcode

namespace Output

/-! ### The settings of an output -/

/-- An output settles a setting: the output has that value in that field, or it is given those
tracks, of which there are some. -/
inductive Settles {τ : Type} (o : Output) (audio subtitles : List τ) : Setting τ → Prop where
  | videoEncoder : Settles o audio subtitles (.videoEncoder o.video.encoder)
  | quantizer {value : Int} (h : o.video.crf? = some value) :
      Settles o audio subtitles (.quantizer value)
  | speed {value : Int} (h : o.video.speed? = some value) :
      Settles o audio subtitles (.speed value)
  | profile {p : Profile} (h : o.video.profile? = some p) : Settles o audio subtitles (.profile p)
  | grain {value : Int} (h : o.video.grain? = some value) :
      Settles o audio subtitles (.grain value)
  | compat {enabled : Bool} (h : o.video.compat? = some enabled) :
      Settles o audio subtitles (.compat enabled)
  | container : Settles o audio subtitles (.container o.container)
  | bitDepth {d : BitDepth} (h : o.bitDepth = some d) : Settles o audio subtitles (.bitDepth d)
  | resolution {r : Resolution} (h : o.resolution = some r) :
      Settles o audio subtitles (.resolution r)
  | audioEncoder : Settles o audio subtitles (.audioEncoder o.audioEncoder)
  | audioBitrate : Settles o audio subtitles (.audioBitrate o.audioBitrate)
  | audioTracks (h : audio ≠ []) : Settles o audio subtitles (.audioTracks audio)
  | audioNormalize (h : o.audioNormalize = true) : Settles o audio subtitles .audioNormalize
  | subtitleTracks (h : subtitles ≠ []) : Settles o audio subtitles (.subtitleTracks subtitles)

/-- An output settles all of its settings. -/
theorem settles_of_mem_settings {τ : Type} {o : Output} {audio subtitles : List τ}
    {setting : Setting τ} (h : setting ∈ o.settings audio subtitles) :
    o.Settles audio subtitles setting := by
  simp only [settings, Video.settings, List.mem_append, List.mem_cons, List.not_mem_nil, or_false,
    List.mem_map, Option.mem_toList, List.mem_ite_nil_left, List.mem_ite_nil_right,
    List.isEmpty_iff] at h
  -- the settings in the order in which they are written, the video configuration first
  rcases h with (((((((hvideo | rfl) | ⟨d, h, rfl⟩) | ⟨r, h, rfl⟩) | rfl | rfl) | ⟨h, rfl⟩) |
    ⟨h, rfl⟩) | ⟨h, rfl⟩)
  · rcases hvideo with (((((rfl | ⟨q, h, rfl⟩) | ⟨s, h, rfl⟩) | ⟨p, h, rfl⟩) | ⟨g, h, rfl⟩) |
      ⟨c, h, rfl⟩)
    · exact .videoEncoder
    · exact .quantizer h
    · exact .speed h
    · exact .profile h
    · exact .grain h
    · exact .compat h
  · exact .container
  · exact .bitDepth h
  · exact .resolution h
  · exact .audioEncoder
  · exact .audioBitrate
  · exact .audioNormalize h
  · exact .audioTracks h
  · exact .subtitleTracks h

/-! ### Settings that differ in their tracks -/

/-- Settings that are made of the same values are related one by one. -/
theorem related_map {α σ τ : Type} {R : σ → τ → Prop} (values : List α) {f : α → Setting σ}
    {g : α → Setting τ} (h : ∀ a, Setting.Related R (f a) (g a)) :
    List.Forall₂ (Setting.Related R) (values.map f) (values.map g) := by
  rw [List.forall₂_map_left_iff, List.forall₂_map_right_iff, List.forall₂_same]
  exact fun a _ => h a

theorem related_settings_video {σ τ : Type} (R : σ → τ → Prop) (v : Video) :
    List.Forall₂ (Setting.Related R) v.settings v.settings := by
  unfold Video.settings
  refine List.rel_append (List.rel_append (List.rel_append (List.rel_append (List.rel_append
    (.cons (.videoEncoder _) .nil) ?_) ?_) ?_) ?_) ?_
  · exact related_map _ .quantizer
  · exact related_map _ .speed
  · exact related_map _ .profile
  · exact related_map _ .grain
  · exact related_map _ .compat

/-- Settings of one output differ in their tracks only. -/
theorem related_settings {σ τ : Type} {R : σ → τ → Prop} (o : Output) {audio subtitles : List σ}
    {audio' subtitles' : List τ} (ha : List.Forall₂ R audio audio')
    (hs : List.Forall₂ R subtitles subtitles') :
    List.Forall₂ (Setting.Related R) (o.settings audio subtitles)
      (o.settings audio' subtitles') := by
  unfold settings
  refine List.rel_append (List.rel_append (List.rel_append (List.rel_append (List.rel_append
    (List.rel_append (List.rel_append (related_settings_video R o.video)
      (.cons (.container _) .nil)) ?_) ?_) ?_) ?_) ?_) ?_
  · exact related_map _ .bitDepth
  · exact related_map _ .resolution
  · exact .cons (.audioEncoder _) (.cons (.audioBitrate _) .nil)
  · cases o.audioNormalize with
    | false => exact .nil
    | true => exact .cons .audioNormalize .nil
  · cases ha with
    | nil => exact .nil
    | cons h ha => exact .cons (.audioTracks (.cons h ha)) .nil
  · cases hs with
    | nil => exact .nil
    | cons h hs => exact .cons (.subtitleTracks (.cons h hs)) .nil

/-! ### The output that the settings describe -/

/-- A sound output settles nothing that its encoder refuses. -/
theorem Settles.refusal?_eq_none {o : Output} (ho : o.IsSound) {audio subtitles : List Track}
    {token : Token} (h : o.Settles audio subtitles token) :
    Token.refusal? o.video.encoder token = none := by
  cases h with
  | quantizer hq =>
      -- an encoder without a range takes any quantizer
      cases hrange : o.video.encoder.quantizerRange? with
      | none => simp [Token.refusal?, hrange]
      | some allowed =>
          rw [Token.refusal?, hrange, Option.bind_some]
          exact Range.refusal?_eq_none_iff.2 (ho.video.crf _ hq _ hrange)
  | speed hs =>
      rw [Token.refusal?]
      split
      · exact Range.refusal?_eq_none_iff.2 (ho.video.speed _ hs)
      · rfl
  | grain hg =>
      rw [Token.refusal?]
      split
      · exact Range.refusal?_eq_none_iff.2 (ho.video.grain _ hg)
      · rfl
  | audioBitrate => exact if_neg (Int.not_lt.2 ho.bitrate)
  | _ => rfl

/-- The settings of a video configuration give it back. -/
theorem foldl_put_video (v : Video) :
    v.settings.foldl put (ofEncoder v.encoder) = { ofEncoder v.encoder with video := v } := by
  cases v <;> rfl

/-- The settings of an output give it back. -/
theorem foldl_put_settings (o : Output) :
    (o.settings o.audioTracks o.subtitleTracks).foldl put (ofEncoder o.video.encoder) = o := by
  unfold settings
  simp only [List.foldl_append, foldl_put_video]
  obtain ⟨video, container, bitDepth, resolution, encoder, kbps, normalize, audio, subtitles⟩ := o
  -- what is optional is put in, or is what the encoder starts from
  cases bitDepth <;> cases resolution <;> cases normalize <;> cases audio <;> cases subtitles <;>
    rfl

/-- **A sound output is what its settings describe.** -/
theorem resolve_settings {o : Output} (h : o.IsSound) :
    resolve (o.settings o.audioTracks o.subtitleTracks) = .ok o := by
  have hstart : start (o.settings o.audioTracks o.subtitleTracks) = ofEncoder o.video.encoder := rfl
  unfold resolve
  rw [hstart]
  refine applyAll_eq_ok_iff.2 ⟨?_, foldl_put_settings o⟩
  intro token htoken
  have hencoder : (ofEncoder o.video.encoder).video.encoder = o.video.encoder :=
    Video.encoder_default _
  rw [hencoder]
  exact (settles_of_mem_settings htoken).refusal?_eq_none h

end Output

end Transcode

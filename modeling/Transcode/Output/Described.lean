/-
**Outputs described without order.**

The output that some settings describe can be said without applying them one by one: the encoder is
the first that is named, and every field holds the value of the last setting for it, or what the
encoder starts from.  It exists unless a setting is inadmissible for the encoder, and then the first
inadmissible one is what is wrong.

Main definitions:

* `Transcode.Token.Inadmissible` — settings that an encoder cannot take, and what is wrong with
  them;
* `Transcode.Token.last?` — the last value of a kind among some settings;
* `Transcode.Output.described` — the output of an encoder with the last values.
-/

import Transcode.Output.Apply

set_option relaxedAutoImplicit false
set_option autoImplicit false

namespace Transcode

/-! ### Inadmissible settings -/

/-- Settings that an encoder cannot take, and what is wrong with them. -/
inductive Token.Inadmissible (e : VideoEncoder) : Token → ParseError → Prop where
  | quantizer {value : Int} {allowed : Range} (h : e.quantizerRange? = some allowed)
      (hv : value < allowed.min ∨ allowed.max < value) :
      Inadmissible e (.quantizer value) (.outOfRange Filter.quantizer.name value allowed none)
  | speed {value : Int} (h : e.isPinned = true) (hv : value < 0 ∨ 10 < value) :
      Inadmissible e (.speed value) (.outOfRange Filter.speed.name value ⟨0, 10⟩ none)
  | grain {value : Int} (h : e.isPinned = true) (hv : value < 0 ∨ 64 < value) :
      Inadmissible e (.grain value) (.outOfRange Filter.grain.name value ⟨0, 64⟩ none)
  | bitrate {kbps : Int} (hv : kbps < 1) :
      Inadmissible e (.audioBitrate kbps) (.bitrateTooLow kbps ⟨1, 4294967295⟩)

/-! ### Last values -/

/-- The value of the last setting of a kind. -/
def Token.last? {α : Type} (value? : Token → Option α) (tokens : List Token) : Option α :=
  tokens.reverse.findSome? value?

namespace Setting

/-- The value of a quantizer setting. -/
def quantizer? : Token → Option Int
  | quantizer value => some value
  | _ => none

/-- The value of a speed setting. -/
def speed? : Token → Option Int
  | speed value => some value
  | _ => none

/-- The value of a profile setting. -/
def profile? : Token → Option Profile
  | profile p => some p
  | _ => none

/-- The value of a grain setting. -/
def grain? : Token → Option Int
  | grain value => some value
  | _ => none

/-- The value of a compatibility setting. -/
def compat? : Token → Option Bool
  | compat enabled => some enabled
  | _ => none

/-- The value of a container setting. -/
def container? : Token → Option Container
  | container c => some c
  | _ => none

/-- The value of a bit depth setting. -/
def bitDepth? : Token → Option BitDepth
  | bitDepth d => some d
  | _ => none

/-- The value of a resolution setting. -/
def resolution? : Token → Option Resolution
  | resolution r => some r
  | _ => none

/-- The value of an audio encoder setting. -/
def audioEncoder? : Token → Option AudioEncoder
  | audioEncoder e => some e
  | _ => none

/-- The value of an audio bitrate setting. -/
def audioBitrate? : Token → Option Int
  | audioBitrate kbps => some kbps
  | _ => none

/-- The value of an audio track setting. -/
def audioTracks? : Token → Option (List Track)
  | audioTracks ts => some ts
  | _ => none

/-- Normalization is only ever turned on. -/
def audioNormalize? : Token → Option Bool
  | audioNormalize => some true
  | _ => none

/-- The value of a subtitle track setting. -/
def subtitleTracks? : Token → Option (List Track)
  | subtitleTracks ts => some ts
  | _ => none

end Setting

/-! ### The described output -/

/-- The video configuration of an encoder with the last values among some settings, for the fields
that the encoder has. -/
def Video.described (e : VideoEncoder) (tokens : List Token) : Video :=
  let crf := (Token.last? Setting.quantizer? tokens).getD
  let speed := (Token.last? Setting.speed? tokens).getD
  let profile := (Token.last? Setting.profile? tokens).getD
  let grain := (Token.last? Setting.grain? tokens).getD
  let compat := (Token.last? Setting.compat? tokens).getD
  match Video.default e with
  | .aom q s p g c => .aom (crf q) (speed s) (profile p) (grain g) (compat c)
  | .rav1e q s p g => .rav1e (crf q) (speed s) (profile p) (grain g)
  | .svt q s p g => .svt (crf q) (speed s) (profile p) (grain g)
  | .x264 q p c => .x264 (crf q) (profile p) (compat c)
  | .x265 q p c => .x265 (crf q) (profile p) (compat c)
  | .copy => .copy

/-- The output of an encoder with the last values among some settings. -/
def Output.described (e : VideoEncoder) (tokens : List Token) : Output where
  video := .described e tokens
  container := (Token.last? Setting.container? tokens).getD .default
  bitDepth := Token.last? Setting.bitDepth? tokens
  resolution := Token.last? Setting.resolution? tokens
  audioEncoder := (Token.last? Setting.audioEncoder? tokens).getD .copy
  audioBitrate := (Token.last? Setting.audioBitrate? tokens).getD AudioEncoder.defaultBitrate
  audioNormalize := (Token.last? Setting.audioNormalize? tokens).getD false
  audioTracks := (Token.last? Setting.audioTracks? tokens).getD []
  subtitleTracks := (Token.last? Setting.subtitleTracks? tokens).getD []

end Transcode

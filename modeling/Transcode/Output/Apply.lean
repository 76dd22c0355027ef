/-
**Applying a setting to an output.**

A setting is refused for a video encoder if the encoder has the field it is for and its value is
outside the range of that field, or if it is an audio bitrate that is not positive.  A setting that
is not refused is put into the output; where the encoder has no field for it, that changes nothing.
No setting changes the encoder: the encoder is chosen before the settings are applied.

Main definitions:

* `Transcode.Token.refusal?` — what is wrong with a setting for an encoder, if anything;
* `Transcode.Output.put` — the output with the value of a setting;
* `Transcode.Output.apply` — the output after a setting, or what is wrong with the setting;
* `Transcode.Output.applyAll` — the output after several settings, up to the first refused one.

Main results:

* `Transcode.Output.encoder_put`, `Transcode.Output.encoder_apply` — the encoder stays.
-/

import Transcode.Error.Basic
import Transcode.Output.Basic

set_option relaxedAutoImplicit false
set_option autoImplicit false

namespace Transcode

/-! ### Refused settings -/

/-- What is wrong with a value of a field: nothing, if it lies in the range of the field. -/
def Range.refusal? (allowed : Range) (filter : Filter) (value : Int) : Option ParseError :=
  if allowed.contains value then none else some (.outOfRange filter.name value allowed none)

/-- What is wrong with a setting for an encoder.  A field that the encoder does not have takes any
value, and an audio bitrate has no upper bound here. -/
def Token.refusal? (e : VideoEncoder) : Token → Option ParseError
  | .quantizer value => e.quantizerRange?.bind fun allowed => allowed.refusal? .quantizer value
  | .speed value => if e.isPinned then Range.speed.refusal? .speed value else none
  | .grain value => if e.isPinned then Range.grain.refusal? .grain value else none
  | .audioBitrate kbps =>
    if kbps < Range.bitrate.min then some (.bitrateTooLow kbps Range.bitrate) else none
  | _ => none

namespace Output

/-! ### Applied settings -/

/-- The output with the value of a setting, where the encoder has a field for it. -/
def put (o : Output) : Token → Output
  | .videoEncoder _ => o
  | .quantizer value => { o with video := o.video.withCrf value }
  | .speed value => { o with video := o.video.withSpeed value }
  | .profile profile => { o with video := o.video.withProfile profile }
  | .grain value => { o with video := o.video.withGrain value }
  | .compat enabled => { o with video := o.video.withCompat enabled }
  | .container container => { o with container := container }
  | .bitDepth depth => { o with bitDepth := some depth }
  | .resolution resolution => { o with resolution := some resolution }
  | .audioEncoder encoder => { o with audioEncoder := encoder }
  | .audioBitrate kbps => { o with audioBitrate := kbps }
  | .audioTracks tracks => { o with audioTracks := tracks }
  | .audioNormalize => { o with audioNormalize := true }
  | .subtitleTracks tracks => { o with subtitleTracks := tracks }

/-- The output after a setting, or what is wrong with the setting. -/
def apply (o : Output) (token : Token) : Except ParseError Output :=
  match Token.refusal? o.video.encoder token with
  | some e => .error e
  | none => .ok (o.put token)

/-- The output after several settings, one after the other. -/
def applyAll (o : Output) (tokens : List Token) : Except ParseError Output := tokens.foldlM apply o

@[simp] theorem encoder_put (o : Output) (token : Token) :
    (o.put token).video.encoder = o.video.encoder := by
  cases token <;> simp [put]

theorem apply_eq_ok_iff {o o' : Output} {token : Token} :
    o.apply token = .ok o' ↔ Token.refusal? o.video.encoder token = none ∧ o.put token = o' := by
  unfold apply
  split <;> simp_all

theorem apply_eq_error_iff {o : Output} {token : Token} {e : ParseError} :
    o.apply token = .error e ↔ Token.refusal? o.video.encoder token = some e := by
  unfold apply
  split <;> simp_all

/-- A setting does not change the encoder. -/
theorem encoder_apply {o o' : Output} {token : Token} (h : o.apply token = .ok o') :
    o'.video.encoder = o.video.encoder := by
  rw [← (apply_eq_ok_iff.1 h).2, encoder_put]

end Output

end Transcode

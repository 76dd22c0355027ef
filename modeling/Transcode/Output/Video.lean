/-
**Video configurations.**

A video configuration has exactly the fields of its encoder.  A field is read as an optional
value, and setting a field that the encoder does not have changes nothing; a configuration is
determined by its encoder and these optional values.

Main definitions:

* `Transcode.Video` — the configurations, with `Video.encoder` and the field readers;
* `Transcode.Video.default` — what an encoder starts from;
* `Transcode.Video.fields` — the fields by name, in the order in which they are listed.

Main results:

* `Transcode.Video.ext_fields` — encoder and fields determine a configuration.
-/

import Transcode.Catalog.Profile
import Transcode.Catalog.VideoEncoder
import Transcode.Json.Basic

set_option relaxedAutoImplicit false
set_option autoImplicit false

namespace Transcode

/-- The configuration of a video encoder. -/
inductive Video where
  | aom (crf speed : Int) (profile : Profile) (grain : Int) (compat : Bool)
  | rav1e (crf speed : Int) (profile : Profile) (grain : Int)
  | svt (crf speed : Int) (profile : Profile) (grain : Int)
  | x264 (crf : Int) (profile : Profile) (compat : Bool)
  | x265 (crf : Int) (profile : Profile) (compat : Bool)
  | copy
  deriving DecidableEq, Repr, Inhabited

namespace Video

/-- The encoder of a configuration. -/
def encoder : Video → VideoEncoder
  | aom .. => .aom
  | rav1e .. => .rav1e
  | svt .. => .svt
  | x264 .. => .x264
  | x265 .. => .x265
  | copy => .copy

/-- The configuration that an encoder starts from. -/
def default : VideoEncoder → Video
  | .aom => aom 16 4 .film 0 false
  | .rav1e => rav1e 40 5 .film 0
  | .svt => svt 16 4 .film 0
  | .x264 => x264 18 .film false
  | .x265 => x265 18 .film false
  | .copy => copy

@[simp] theorem encoder_default (e : VideoEncoder) : (default e).encoder = e := by cases e <;> rfl

/-! ### Fields -/

/-- The quantizer; copying has none. -/
def crf? : Video → Option Int
  | aom crf .. | rav1e crf .. | svt crf .. | x264 crf .. | x265 crf .. => some crf
  | copy => none

/-- The speed of an AV1 encoder. -/
def speed? : Video → Option Int
  | aom _ speed .. | rav1e _ speed .. | svt _ speed .. => some speed
  | x264 .. | x265 .. | copy => none

/-- The tuning profile; copying has none. -/
def profile? : Video → Option Profile
  | aom _ _ profile .. | rav1e _ _ profile _ | svt _ _ profile _ => some profile
  | x264 _ profile _ | x265 _ profile _ => some profile
  | copy => none

/-- The strength of film grain synthesis of an AV1 encoder. -/
def grain? : Video → Option Int
  | aom _ _ _ grain _ | rav1e _ _ _ grain | svt _ _ _ grain => some grain
  | x264 .. | x265 .. | copy => none

/-- Whether the encoder keeps to what common devices can play. -/
def compat? : Video → Option Bool
  | aom _ _ _ _ compat | x264 _ _ compat | x265 _ _ compat => some compat
  | rav1e .. | svt .. | copy => none

/-- Encoder and fields determine a configuration. -/
theorem ext_fields {v w : Video} (he : v.encoder = w.encoder) (hq : v.crf? = w.crf?)
    (hs : v.speed? = w.speed?) (hp : v.profile? = w.profile?) (hg : v.grain? = w.grain?)
    (hc : v.compat? = w.compat?) : v = w := by
  cases v <;> cases w <;> simp_all [encoder, crf?, speed?, profile?, grain?, compat?]

/-! ### Setting fields -/

/-- The configuration with another quantizer, if it has one. -/
def withCrf (crf : Int) : Video → Video
  | aom _ speed profile grain compat => aom crf speed profile grain compat
  | rav1e _ speed profile grain => rav1e crf speed profile grain
  | svt _ speed profile grain => svt crf speed profile grain
  | x264 _ profile compat => x264 crf profile compat
  | x265 _ profile compat => x265 crf profile compat
  | copy => copy

/-- The configuration with another speed, if it has one. -/
def withSpeed (speed : Int) : Video → Video
  | aom crf _ profile grain compat => aom crf speed profile grain compat
  | rav1e crf _ profile grain => rav1e crf speed profile grain
  | svt crf _ profile grain => svt crf speed profile grain
  | v => v

/-- The configuration with another profile, if it has one. -/
def withProfile (profile : Profile) : Video → Video
  | aom crf speed _ grain compat => aom crf speed profile grain compat
  | rav1e crf speed _ grain => rav1e crf speed profile grain
  | svt crf speed _ grain => svt crf speed profile grain
  | x264 crf _ compat => x264 crf profile compat
  | x265 crf _ compat => x265 crf profile compat
  | copy => copy

/-- The configuration with another grain strength, if it has one. -/
def withGrain (grain : Int) : Video → Video
  | aom crf speed profile _ compat => aom crf speed profile grain compat
  | rav1e crf speed profile _ => rav1e crf speed profile grain
  | svt crf speed profile _ => svt crf speed profile grain
  | v => v

/-- The configuration with device compatibility turned on or off, if it can be. -/
def withCompat (compat : Bool) : Video → Video
  | aom crf speed profile grain _ => aom crf speed profile grain compat
  | x264 crf profile _ => x264 crf profile compat
  | x265 crf profile _ => x265 crf profile compat
  | v => v

@[simp] theorem encoder_withCrf (crf : Int) (v : Video) : (v.withCrf crf).encoder = v.encoder := by
  cases v <;> rfl

@[simp] theorem encoder_withSpeed (speed : Int) (v : Video) :
    (v.withSpeed speed).encoder = v.encoder := by cases v <;> rfl

@[simp] theorem encoder_withProfile (profile : Profile) (v : Video) :
    (v.withProfile profile).encoder = v.encoder := by cases v <;> rfl

@[simp] theorem encoder_withGrain (grain : Int) (v : Video) :
    (v.withGrain grain).encoder = v.encoder := by cases v <;> rfl

@[simp] theorem encoder_withCompat (compat : Bool) (v : Video) :
    (v.withCompat compat).encoder = v.encoder := by cases v <;> rfl

/-- A configuration has a speed exactly if its encoder pins threads. -/
theorem isSome_speed? (v : Video) : v.speed?.isSome = v.encoder.isPinned := by cases v <;> rfl

/-- A configuration has a grain strength exactly if its encoder pins threads. -/
theorem isSome_grain? (v : Video) : v.grain?.isSome = v.encoder.isPinned := by cases v <;> rfl

/-! ### Listing -/

/-- The fields of a configuration by name, in the order in which they are listed. -/
def fields (v : Video) : List (String × Json) :=
  Json.optional "crf" v.crf? .number ++ Json.optional "speed" v.speed? .number ++
    Json.optional "profile" v.profile? (fun p => .text p.name) ++
    Json.optional "grain" v.grain? .number ++ Json.optional "compat" v.compat? .bool

/-- A configuration as a document: its encoder and its fields. -/
def document (v : Video) : Json := .ofFields (("encoder", .text v.encoder.name) :: v.fields)

end Video

end Transcode

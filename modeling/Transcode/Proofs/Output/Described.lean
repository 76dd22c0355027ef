/-
**Settings describe an output without order.**

Settings are applied one after the other, to the output of an encoder that was looked up ahead, and
the first refused one ends it.  What comes of that can be said without applying anything: if the
encoder can take every setting, every field holds the last setting for it, and what the encoder
starts from if there is none; otherwise the first setting that the encoder cannot take is what is
wrong.  Settings for fields that the encoder does not have make no difference.

Main definitions:

* `Transcode.Token.FirstInadmissible` — the first setting that an encoder cannot take, and what is
  wrong with it.

Main results:

* `Transcode.Token.refusal?_eq_some_iff` — what is refused is what is inadmissible;
* `Transcode.Output.foldl_put_ofEncoder` — the last values are what is left of the settings;
* `Transcode.Output.applyAll_filter` — settings for fields that are not there may be left out;
* `Transcode.Output.resolve_without_order` — **what settings describe, without order**.
-/

import Transcode.Output.Resolve
import Transcode.Proofs.Output.Field
import Transcode.Proofs.Output.Fold

set_option relaxedAutoImplicit false
set_option autoImplicit false

namespace Transcode

variable {e : VideoEncoder} {tokens : List Token}

/-! ### Settings that are refused -/

theorem Range.refusal?_eq_some_iff {allowed : Range} {filter : Filter} {value : Int}
    {error : ParseError} :
    allowed.refusal? filter value = some error ↔
      (value < allowed.min ∨ allowed.max < value) ∧
        error = .outOfRange filter.name value allowed none := by
  unfold refusal?
  split
  · rename_i hin
    have hin := contains_iff.1 hin
    constructor
    · intro h
      exact absurd h (by simp)
    · rintro ⟨hout, _⟩
      omega
  · rename_i hout
    rw [contains_iff] at hout
    have hout : value < allowed.min ∨ allowed.max < value := by omega
    simp [hout, eq_comm]

/-- What is refused is what is inadmissible. -/
theorem Token.refusal?_eq_some_iff {token : Token} {error : ParseError} :
    Token.refusal? e token = some error ↔ Inadmissible e token error := by
  constructor
  · intro h
    cases token with
    | quantizer value =>
        obtain ⟨allowed, hrange, hrefused⟩ := Option.bind_eq_some_iff.1 h
        obtain ⟨hout, rfl⟩ := Range.refusal?_eq_some_iff.1 hrefused
        exact .quantizer hrange hout
    | speed value =>
        obtain ⟨hpinned, hrefused⟩ := Option.ite_none_right_eq_some.1 h
        obtain ⟨hout, rfl⟩ := Range.refusal?_eq_some_iff.1 hrefused
        exact .speed hpinned hout
    | grain value =>
        obtain ⟨hpinned, hrefused⟩ := Option.ite_none_right_eq_some.1 h
        obtain ⟨hout, rfl⟩ := Range.refusal?_eq_some_iff.1 hrefused
        exact .grain hpinned hout
    | audioBitrate kbps =>
        obtain ⟨hlow, hrefused⟩ := Option.ite_none_right_eq_some.1 h
        obtain rfl := Option.some.inj hrefused
        exact .bitrate hlow
    | _ => exact absurd h (by simp [refusal?])
  · intro h
    cases h with
    | quantizer hrange hout =>
        rw [refusal?, hrange, Option.bind_some]
        exact Range.refusal?_eq_some_iff.2 ⟨hout, rfl⟩
    | speed hpinned hout | grain hpinned hout =>
        rw [refusal?, if_pos hpinned]
        exact Range.refusal?_eq_some_iff.2 ⟨hout, rfl⟩
    | bitrate hlow => exact if_pos hlow

/-- What is not refused is not inadmissible. -/
theorem Token.refusal?_eq_none_iff {token : Token} :
    Token.refusal? e token = none ↔ ∀ error, ¬ Inadmissible e token error := by
  simp only [← refusal?_eq_some_iff, Option.eq_none_iff_forall_ne_some, ne_eq]

/-- The first setting that an encoder cannot take, and what is wrong with it. -/
def Token.FirstInadmissible (e : VideoEncoder) (tokens : List Token) (error : ParseError) : Prop :=
  ∃ front token back, tokens = front ++ token :: back ∧
    (∀ earlier ∈ front, ∀ error', ¬ Inadmissible e earlier error') ∧ Inadmissible e token error

/-! ### Last values -/

/-- The last setting that is put into a field, by the values that settings have for it. -/
theorem Token.last?_puts? {α : Type} {f : Filter} {value? : Token → Option α} {make : α → Token}
    (h : ∀ token, (value? token).map make = if token.filter = f then some token else none) :
    last? (puts? e f) tokens =
      if e.takes f then (last? value? tokens).map make else none := by
  cases htakes : e.takes f with
  | false =>
      refine last?_eq_none ?_ tokens
      intro token
      simp [puts?, htakes]
  | true =>
      rw [if_pos rfl]
      refine (map_last? ?_ tokens).symm
      intro token
      rw [h]
      simp [puts?, htakes]

/-- Normalization is only ever turned on. -/
theorem Token.last?_audioNormalize (tokens : List Token) :
    last? Setting.audioNormalize? tokens = none ∨
      last? Setting.audioNormalize? tokens = some true := by
  have hon : (last? Setting.audioNormalize? tokens).map (fun _ => true) =
      last? Setting.audioNormalize? tokens :=
    map_last? (fun token => by cases token <;> rfl) tokens
  cases hlast : last? Setting.audioNormalize? tokens with
  | none => exact Or.inl rfl
  | some on =>
      rw [hlast] at hon
      exact Or.inr hon.symm

namespace Output

/-- A field of an output holds what is left of the settings if it can be read off the values that
they have for the field. -/
theorem held_eq_of_last? {α : Type} {o : Output} {f : Filter} (value? : Token → Option α)
    (make : α → Token)
    (hvalue : ∀ token, (value? token).map make = if token.filter = f then some token else none)
    (hfield : o.held f =
      (if e.takes f then (Token.last? value? tokens).map make else none).or
        ((ofEncoder e).held f)) :
    (tokens.foldl put (ofEncoder e)).held f = o.held f := by
  have hencoder : (ofEncoder e).video.encoder = e := Video.encoder_default e
  rw [held_foldl_put, hencoder, Token.last?_puts? hvalue, hfield]

/-- The last values are what is left of the settings that are put into the output of an encoder. -/
theorem foldl_put_ofEncoder (e : VideoEncoder) (tokens : List Token) :
    tokens.foldl put (ofEncoder e) = described e tokens := by
  refine ext_held ?_
  intro f
  unfold described Video.described
  -- a field of the video is there or not, by the encoder; there is a last value for a field or not
  cases f with
  | videoEncoder =>
      refine held_eq_of_last? Setting.videoEncoder? .videoEncoder (fun t => by cases t <;> rfl) ?_
      cases e <;> rfl
  | quantizer =>
      refine held_eq_of_last? Setting.quantizer? .quantizer (fun t => by cases t <;> rfl) ?_
      cases e <;> cases Token.last? Setting.quantizer? tokens <;> rfl
  | speed =>
      refine held_eq_of_last? Setting.speed? .speed (fun t => by cases t <;> rfl) ?_
      cases e <;> cases Token.last? Setting.speed? tokens <;> rfl
  | profile =>
      refine held_eq_of_last? Setting.profile? .profile (fun t => by cases t <;> rfl) ?_
      cases e <;> cases Token.last? Setting.profile? tokens <;> rfl
  | grain =>
      refine held_eq_of_last? Setting.grain? .grain (fun t => by cases t <;> rfl) ?_
      cases e <;> cases Token.last? Setting.grain? tokens <;> rfl
  | compat =>
      refine held_eq_of_last? Setting.compat? .compat (fun t => by cases t <;> rfl) ?_
      cases e <;> cases Token.last? Setting.compat? tokens <;> rfl
  | container =>
      refine held_eq_of_last? Setting.container? .container (fun t => by cases t <;> rfl) ?_
      cases Token.last? Setting.container? tokens <;> rfl
  | bitDepth =>
      refine held_eq_of_last? Setting.bitDepth? .bitDepth (fun t => by cases t <;> rfl) ?_
      cases Token.last? Setting.bitDepth? tokens <;> rfl
  | resolution =>
      refine held_eq_of_last? Setting.resolution? .resolution (fun t => by cases t <;> rfl) ?_
      cases Token.last? Setting.resolution? tokens <;> rfl
  | audioEncoder =>
      refine held_eq_of_last? Setting.audioEncoder? .audioEncoder (fun t => by cases t <;> rfl) ?_
      cases Token.last? Setting.audioEncoder? tokens <;> rfl
  | audioBitrate =>
      refine held_eq_of_last? Setting.audioBitrate? .audioBitrate (fun t => by cases t <;> rfl) ?_
      cases Token.last? Setting.audioBitrate? tokens <;> rfl
  | audioTracks =>
      refine held_eq_of_last? Setting.audioTracks? .audioTracks (fun t => by cases t <;> rfl) ?_
      cases Token.last? Setting.audioTracks? tokens <;> rfl
  | audioNormalize =>
      refine held_eq_of_last? Setting.audioNormalize? (fun _ => .audioNormalize)
        (fun t => by cases t <;> rfl) ?_
      rcases Token.last?_audioNormalize tokens with hlast | hlast <;> rw [hlast] <;> rfl
  | subtitleTracks =>
      refine held_eq_of_last? Setting.subtitleTracks? .subtitleTracks
        (fun t => by cases t <;> rfl) ?_
      cases Token.last? Setting.subtitleTracks? tokens <;> rfl

/-! ### Settings for fields that are not there -/

/-- A setting for a field that the encoder does not have is taken and changes nothing. -/
theorem apply_of_not_takes {o : Output} {token : Token}
    (h : o.video.encoder.takes token.filter = false) : o.apply token = .ok o := by
  refine apply_eq_ok_iff.2 ⟨?_, ext_held ?_⟩
  · cases token <;> cases he : o.video.encoder <;> rw [he] at h <;> first | rfl | contradiction
  · intro f
    have hputs : token.puts? o.video.encoder f = none := by
      unfold Token.puts?
      rw [if_neg]
      rintro ⟨rfl, htakes⟩
      rw [h] at htakes
      exact absurd htakes (by simp)
    rw [held_put, hputs, Option.none_or]

/-- Settings for fields that the encoder does not have may be left out. -/
theorem applyAll_filter {o : Output} {p : Token → Bool}
    (hp : ∀ token, p token = false → o.video.encoder.takes token.filter = false)
    (tokens : List Token) : o.applyAll (tokens.filter p) = o.applyAll tokens := by
  induction tokens generalizing o with
  | nil => rfl
  | cons token tokens ih =>
      rw [applyAll_cons]
      cases hkept : p token with
      | true =>
          rw [List.filter_cons_of_pos hkept, applyAll_cons]
          cases ha : o.apply token with
          | error error => rfl
          | ok next =>
              refine ih ?_
              rw [encoder_apply ha]
              exact hp
      | false =>
          rw [List.filter_cons_of_neg (by simp [hkept]), apply_of_not_takes (hp token hkept)]
          exact ih hp

/-- The encoder is chosen by the settings that name one. -/
theorem start_filter {p : Token → Bool} (hp : ∀ e, p (.videoEncoder e) = true)
    (tokens : List Token) : start (tokens.filter p) = start tokens := by
  have hfirst : Token.firstEncoder? (tokens.filter p) = Token.firstEncoder? tokens := by
    unfold Token.firstEncoder?
    induction tokens with
    | nil => rfl
    | cons token tokens ih =>
        cases hkept : p token with
        | true =>
            rw [List.filter_cons_of_pos hkept, List.findSome?_cons, List.findSome?_cons, ih]
        | false =>
            have hother : token.videoEncoder? = none := by
              cases token with
              | videoEncoder e => exact absurd hkept (by simp [hp e])
              | _ => rfl
            rw [List.filter_cons_of_neg (by simp [hkept]), List.findSome?_cons, hother, ih]
  rw [start, start, hfirst]

/-! ### Without order -/

/-- **What settings describe, without order.**  The encoder is the first that is named, or `x264`.
If some setting is inadmissible for it, the first such setting is what is wrong.  Otherwise every
field of the encoder's output holds the value of the last setting for it, or what the encoder starts
from.  Settings for fields that the encoder does not have may as well be left out. -/
theorem resolve_without_order (tokens : List Token) :
    let e := (Token.firstEncoder? tokens).getD .x264
    (∀ error, resolve tokens = .error error ↔ Token.FirstInadmissible e tokens error) ∧
      (∀ o, resolve tokens = .ok o ↔
        (∀ token ∈ tokens, ∀ error, ¬ Token.Inadmissible e token error) ∧ o = described e tokens) ∧
      resolve (tokens.filter fun token => token.filter == .videoEncoder || e.takes token.filter) =
        resolve tokens := by
  intro e
  have hencoder : (start tokens).video.encoder = e := Video.encoder_default e
  refine ⟨?_, ?_, ?_⟩
  · intro error
    rw [resolve, applyAll_eq_error_iff, hencoder]
    simp only [Token.refusal?_eq_none_iff, Token.refusal?_eq_some_iff, Token.FirstInadmissible]
  · intro o
    have hdescribed : tokens.foldl put (start tokens) = described e tokens :=
      foldl_put_ofEncoder e tokens
    rw [resolve, applyAll_eq_ok_iff, hencoder, hdescribed, eq_comm (a := described e tokens)]
    simp only [Token.refusal?_eq_none_iff]
  · rw [resolve, start_filter (fun _ => rfl)]
    refine applyAll_filter ?_ tokens
    intro token hdropped
    rw [hencoder]
    exact (Bool.or_eq_false_iff.1 hdropped).2

/-- An encoder that is named late: the quantizer before it suits it, the speed does not, and the
grain, which does not either, is not the first. -/
theorem resolve_without_order_late :
    resolve [.quantizer 60, .videoEncoder .svt, .compat true, .speed 11, .grain 65] =
      .error (.outOfRange "s".toList 11 ⟨0, 10⟩ none) := by
  refine ((resolve_without_order _).1 _).2 ⟨[.quantizer 60, .videoEncoder .svt, .compat true],
    .speed 11, [.grain 65], rfl, ?_, .speed rfl (by decide)⟩
  intro earlier hearlier error hinadmissible
  cases hinadmissible with
  | quantizer hrange hout =>
      obtain rfl := Option.some.inj hrange
      obtain rfl : _ = (60 : Int) := by simpa using hearlier
      exact absurd hout (by decide)
  | speed | grain | bitrate => simp at hearlier

end Output

end Transcode

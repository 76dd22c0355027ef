/-
**Settings applied one after the other.**

No setting changes the encoder, so several settings are applied exactly if the encoder that an
output starts with refuses none of them, and then they are put in one by one.  What every setting
that is not refused keeps is kept by all of them.  Soundness is kept by any such setting; validity
and the existence of the files need that the values of the settings fit, which applying them does
not check.

Main definitions:

* `Transcode.Token.Fits` — the value of a setting fits where it is stored, and its files exist.

Main results:

* `Transcode.Output.applyAll_eq_ok_iff` — **when several settings are applied, and to what
  effect**;
* `Transcode.Output.applyAll_eq_error_iff` — when one of them is refused, and why;
* `Transcode.Output.applyAll_induction` — what every setting keeps is kept by all of them;
* `Transcode.Output.isRangeError_of_applyAll` — settings are refused for their ranges only;
* `Transcode.Output.IsSound.put`, `Transcode.Output.IsValid.put`, `Transcode.Output.ReadsFrom.put`
  — what a setting keeps.
-/

import Transcode.Output.Apply
import Transcode.Output.Valid

set_option relaxedAutoImplicit false
set_option autoImplicit false

namespace Transcode

namespace Output

variable {o o' : Output} {token : Token} {tokens : List Token}

/-! ### Several settings -/

theorem applyAll_cons : o.applyAll (token :: tokens) = (o.apply token).bind (·.applyAll tokens) :=
  List.foldlM_cons

/-- **When several settings are applied, and to what effect.** -/
theorem applyAll_eq_ok_iff :
    o.applyAll tokens = .ok o' ↔
      (∀ token ∈ tokens, Token.refusal? o.video.encoder token = none) ∧
        tokens.foldl put o = o' := by
  induction tokens generalizing o with
  | nil => simp [applyAll, pure, Except.pure]
  | cons token tokens ih =>
      rw [applyAll_cons]
      cases ha : o.apply token with
      | error e =>
          have hrefused := apply_eq_error_iff.1 ha
          constructor
          · intro h
            exact absurd h (by simp [Except.bind])
          · rintro ⟨hall, _⟩
            exact absurd (hall token (by simp)) (by simp [hrefused])
      | ok next =>
          obtain ⟨hnone, rfl⟩ := apply_eq_ok_iff.1 ha
          -- the encoder stays, and with it what is refused
          change (o.put token).applyAll tokens = .ok o' ↔ _
          rw [ih, encoder_put, List.foldl_cons]
          simp [hnone]

/-- Several settings are refused for the first one that the encoder refuses. -/
theorem applyAll_eq_error_iff {e : ParseError} :
    o.applyAll tokens = .error e ↔
      ∃ front token back, tokens = front ++ token :: back ∧
        (∀ earlier ∈ front, Token.refusal? o.video.encoder earlier = none) ∧
        Token.refusal? o.video.encoder token = some e := by
  induction tokens generalizing o with
  | nil => simp [applyAll, pure, Except.pure]
  | cons token tokens ih =>
      rw [applyAll_cons]
      cases ha : o.apply token with
      | error e' =>
          have hrefused := apply_eq_error_iff.1 ha
          constructor
          · intro h
            obtain rfl : e' = e := Except.error.inj h
            exact ⟨[], token, tokens, rfl, by simp, hrefused⟩
          · rintro ⟨front, first, back, hsplit, hearlier, hfirst⟩
            cases front with
            | nil =>
                obtain ⟨rfl, rfl⟩ := List.cons.inj hsplit
                rw [hrefused] at hfirst
                exact congrArg Except.error (Option.some.inj hfirst)
            | cons earlier front =>
                -- a refused setting is not in front of the first refused one
                obtain ⟨rfl, _⟩ := List.cons.inj hsplit
                exact absurd (hearlier token (by simp)) (by simp [hrefused])
      | ok next =>
          obtain ⟨hnone, rfl⟩ := apply_eq_ok_iff.1 ha
          change (o.put token).applyAll tokens = .error e ↔ _
          rw [ih, encoder_put]
          constructor
          · rintro ⟨front, first, back, rfl, hearlier, hfirst⟩
            refine ⟨token :: front, first, back, rfl, ?_, hfirst⟩
            intro earlier hmem
            rcases List.mem_cons.1 hmem with rfl | hmem
            · exact hnone
            · exact hearlier earlier hmem
          · rintro ⟨front, first, back, hsplit, hearlier, hfirst⟩
            cases front with
            | nil =>
                obtain ⟨rfl, _⟩ := List.cons.inj hsplit
                exact absurd hnone (by simp [hfirst])
            | cons earlier front =>
                obtain ⟨rfl, rfl⟩ := List.cons.inj hsplit
                exact ⟨front, first, back, rfl, fun t ht => hearlier t (by simp [ht]), hfirst⟩

/-- What every setting that is not refused keeps is kept by all of them. -/
theorem applyAll_induction {P : Output → Prop} (h : P o) (ha : o.applyAll tokens = .ok o')
    (hstep : ∀ o token, token ∈ tokens → P o → Token.refusal? o.video.encoder token = none →
      P (o.put token)) : P o' := by
  induction tokens generalizing o with
  | nil =>
      obtain rfl : o = o' := Except.ok.inj ha
      exact h
  | cons token tokens ih =>
      obtain ⟨hnone, hfold⟩ := applyAll_eq_ok_iff.1 ha
      have hput := hstep o token (by simp) h (hnone token (by simp))
      refine ih hput (applyAll_eq_ok_iff.2 ⟨?_, hfold⟩) ?_
      · intro next hnext
        rw [encoder_put]
        exact hnone next (by simp [hnext])
      · intro o next hnext
        exact hstep o next (by simp [hnext])

end Output

/-! ### Refused settings -/

theorem Range.isRangeError_of_refusal? {allowed : Range} {filter : Filter} {value : Int}
    {e : ParseError} (h : allowed.refusal? filter value = some e) : e.isRangeError = true := by
  unfold refusal? at h
  split at h
  · exact absurd h (by simp)
  · obtain rfl := Option.some.inj h
    rfl

/-- A setting is refused for its range only. -/
theorem Token.isRangeError_of_refusal? {encoder : VideoEncoder} {token : Token} {e : ParseError}
    (h : Token.refusal? encoder token = some e) : e.isRangeError = true := by
  cases token with
  | quantizer value =>
      obtain ⟨allowed, _, hrefused⟩ := Option.bind_eq_some_iff.1 h
      exact Range.isRangeError_of_refusal? hrefused
  | speed value | grain value =>
      rw [Token.refusal?] at h
      split at h
      · exact Range.isRangeError_of_refusal? h
      · exact absurd h (by simp)
  | audioBitrate kbps =>
      rw [Token.refusal?] at h
      split at h
      · obtain rfl := Option.some.inj h
        rfl
      · exact absurd h (by simp)
  | _ => exact absurd h (by simp [Token.refusal?])

/-- Settings are refused for the range of one of them. -/
theorem Output.isRangeError_of_applyAll {o : Output} {tokens : List Token} {e : ParseError}
    (h : o.applyAll tokens = .error e) : e.isRangeError = true := by
  obtain ⟨_, _, _, _, _, hrefused⟩ := applyAll_eq_error_iff.1 h
  exact Token.isRangeError_of_refusal? hrefused

/-! ### Soundness -/

theorem Range.refusal?_eq_none_iff {allowed : Range} {filter : Filter} {value : Int} :
    allowed.refusal? filter value = none ↔ allowed.contains value = true := by
  unfold refusal?
  split <;> simp_all

namespace Video.IsSound

variable {v : Video}

theorem withCrf (h : v.IsSound) {crf : Int}
    (hcrf : ∀ r ∈ v.encoder.quantizerRange?, r.contains crf = true) : (v.withCrf crf).IsSound := by
  cases v with
  | copy => exact h
  | _ =>
      refine ⟨?_, h.speed, h.grain⟩
      rintro _ ⟨⟩ r hr
      exact hcrf r hr

theorem withSpeed (h : v.IsSound) {speed : Int}
    (hspeed : v.encoder.isPinned = true → Range.speed.contains speed = true) :
    (v.withSpeed speed).IsSound := by
  cases v with
  | aom | rav1e | svt =>
      refine ⟨h.crf, ?_, h.grain⟩
      rintro _ ⟨⟩
      exact hspeed rfl
  | x264 | x265 | copy => exact h

theorem withGrain (h : v.IsSound) {grain : Int}
    (hgrain : v.encoder.isPinned = true → Range.grain.contains grain = true) :
    (v.withGrain grain).IsSound := by
  cases v with
  | aom | rav1e | svt =>
      refine ⟨h.crf, h.speed, ?_⟩
      rintro _ ⟨⟩
      exact hgrain rfl
  | x264 | x265 | copy => exact h

theorem withProfile (h : v.IsSound) (profile : Profile) : (v.withProfile profile).IsSound := by
  cases v <;> exact ⟨h.crf, h.speed, h.grain⟩

theorem withCompat (h : v.IsSound) (compat : Bool) : (v.withCompat compat).IsSound := by
  cases v <;> exact ⟨h.crf, h.speed, h.grain⟩

end Video.IsSound

namespace Output

variable {o : Output} {token : Token}

/-- A setting that is not refused keeps an output sound. -/
theorem IsSound.put (h : o.IsSound) (ht : Token.refusal? o.video.encoder token = none) :
    (o.put token).IsSound := by
  cases token with
  | quantizer value =>
      refine ⟨h.video.withCrf ?_, h.bitrate⟩
      intro r hr
      have hrange : o.video.encoder.quantizerRange? = some r := hr
      rw [Token.refusal?, hrange, Option.bind_some] at ht
      exact Range.refusal?_eq_none_iff.1 ht
  | speed value =>
      refine ⟨h.video.withSpeed ?_, h.bitrate⟩
      intro hpinned
      rw [Token.refusal?, if_pos hpinned] at ht
      exact Range.refusal?_eq_none_iff.1 ht
  | grain value =>
      refine ⟨h.video.withGrain ?_, h.bitrate⟩
      intro hpinned
      rw [Token.refusal?, if_pos hpinned] at ht
      exact Range.refusal?_eq_none_iff.1 ht
  | profile p => exact ⟨h.video.withProfile p, h.bitrate⟩
  | compat enabled => exact ⟨h.video.withCompat enabled, h.bitrate⟩
  | audioBitrate kbps =>
      refine ⟨h.video, Int.not_lt.1 ?_⟩
      intro (hlow : kbps < Range.bitrate.min)
      rw [Token.refusal?, if_pos hlow] at ht
      exact absurd ht (by simp)
  | _ => exact ⟨h.video, h.bitrate⟩

end Output

/-! ### Validity -/

/-- The value of a setting fits where it is stored, and the files of its tracks are among the given
ones. -/
def Token.Fits (has : Text → Bool) : Token → Prop
  | .resolution r => r.IsEncodable
  | .audioBitrate kbps => kbps ≤ Range.bitrate.max
  | .audioTracks tracks | .subtitleTracks tracks =>
    ∀ t ∈ tracks, t.source.IsIndexed ∧ t.source.ReadsFrom has
  | _ => True

theorem Token.Fits.of_mem_tracks {has : Text → Bool} {token : Token} (h : token.Fits has)
    {t : Track} (ht : t ∈ token.tracks) : t.source.IsIndexed ∧ t.source.ReadsFrom has := by
  cases token with
  | audioTracks tracks | subtitleTracks tracks => exact h t ht
  | _ => exact absurd ht (by simp [Setting.tracks])

namespace Output

variable {o : Output} {token : Token} {has : Text → Bool}

/-- The tracks of an output after a setting are tracks of the setting or were there before. -/
theorem mem_tracks_put {t : Track} (h : t ∈ (o.put token).tracks) :
    t ∈ token.tracks ∨ t ∈ o.tracks := by
  cases token with
  | audioTracks ts =>
      rcases List.mem_append.1 h with hnew | hold
      · exact Or.inl hnew
      · exact Or.inr (List.mem_append_right _ hold)
  | subtitleTracks ts =>
      rcases List.mem_append.1 h with hold | hnew
      · exact Or.inr (List.mem_append_left _ hold)
      · exact Or.inl hnew
  | _ => exact Or.inr h

/-- A setting that fits and is not refused keeps an output valid. -/
theorem IsValid.put (h : o.IsValid) (ht : Token.refusal? o.video.encoder token = none)
    (hfits : token.Fits has) : (o.put token).IsValid := by
  -- each part is what it was before, unless the setting is for it; then the setting fits
  refine ⟨h.sound.put ht, ?_, ?_, ?_⟩
  · cases token with
    | audioBitrate kbps => exact hfits
    | _ => exact h.bitrate
  · cases token with
    | resolution r =>
        rintro _ ⟨⟩
        exact hfits
    | _ => exact h.resolution
  · intro t htrack
    rcases mem_tracks_put htrack with hnew | hold
    · exact (hfits.of_mem_tracks hnew).1
    · exact h.indexed t hold

/-- A setting that fits brings in no files but the given ones. -/
theorem ReadsFrom.put (h : o.ReadsFrom has) (hfits : token.Fits has) :
    (o.put token).ReadsFrom has := by
  intro t htrack
  rcases mem_tracks_put htrack with hnew | hold
  · exact (hfits.of_mem_tracks hnew).2
  · exact h t hold

end Output

end Transcode

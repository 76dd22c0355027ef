/-
**What a summary tells.**

The parts of a summary stand in a fixed order with commas between them.  The parts up to the audio
hold no comma, and each of them shows which one it is: a bit depth is no resolution, and neither is
an audio part.  So these parts are read off from the left, whatever follows.  What follows are the
tracks, which are listed by the names of their files.  A name may hold anything, commas included, so
the tracks are not told by their listing; but it comes last, and whether the audio is normalized is
told before.

Main definitions:

* `Transcode.Video.shownFields`, `Transcode.Output.laterParts` — a video part behind the encoder,
  and a summary behind the container;
* `Transcode.Output.trackParts` — the parts that list the tracks.

Main results:

* `Transcode.Video.summary_injective` — the video part tells the video configuration;
* `Transcode.Output.audioSummary_eq_iff` — the audio part tells the encoder, and the bitrate where
  the encoder has one;
* `Transcode.Output.summary_eq_summary_iff` — **when two outputs have the same summary**.
-/

import Transcode.Output.Field
import Transcode.Output.Summary
import Transcode.Proofs.Text.Line

set_option relaxedAutoImplicit false
set_option autoImplicit false

namespace Transcode

/-! ### The video part -/

namespace Video

section Field

variable {α : Type} {label : String} {shown : α → Text} {a b : Option α} {s t : Text}

/-- A field begins with a blank, and one without a value leaves the start to what follows. -/
theorem stops_shownField (hs : Text.Stops (· != ' ') s) :
    Text.Stops (· != ' ') (shownField label shown a ++ s) := by
  cases a with
  | none => exact hs
  | some a => simp [shownField]

theorem comma_not_mem_shownField (hlabel : ',' ∉ label.toList) (hshown : ∀ a, ',' ∉ shown a) :
    ',' ∉ shownField label shown a := by
  cases a with
  | none => simp [shownField]
  | some a => simp [shownField, hlabel, hshown a]

/-- A field is known from the fields of an encoder that has it. -/
theorem shownField_append_inj (hshown : ∀ a, ' ' ∉ shown a)
    (hinj : ∀ {a b}, shown a = shown b → a = b) (hsome : a.isSome = b.isSome)
    (hs : Text.Stops (· != ' ') s) (ht : Text.Stops (· != ' ') t)
    (h : shownField label shown a ++ s = shownField label shown b ++ t) : a = b ∧ s = t := by
  cases a with
  | none =>
      cases b with
      | none => exact ⟨rfl, h⟩
      | some b => simp at hsome
  | some a =>
      cases b with
      | none => simp at hsome
      | some b =>
          have hvalue : shown a ++ s = shown b ++ t := by simpa [shownField] using h
          obtain ⟨hab, hst⟩ := Text.append_inj_of_not_mem (hshown a) (hshown b) hs ht hvalue
          exact ⟨congrArg some (hinj hab), hst⟩

end Field

theorem shownFlag_injective {a b : Bool} (h : shownFlag a = shownFlag b) : a = b := by
  revert h
  cases a <;> cases b <;> decide

/-- What a video part begins with: the encoder. -/
def title : VideoEncoder → Text
  | .copy => "video copy".toList
  | e => e.name

/-- What follows in a video part: the fields. -/
def shownFields (v : Video) : Text :=
  shownField "q" Text.ofInt v.crf? ++ (shownField "s" Text.ofInt v.speed? ++
    (shownField "p" Profile.name v.profile? ++ (shownField "grain" Text.ofInt v.grain? ++
      shownField "compat" shownFlag v.compat?)))

theorem summary_eq_append (v : Video) : v.summary = title v.encoder ++ v.shownFields := by
  have hassoc : ∀ name : Text, name ++ shownField "q" Text.ofInt v.crf? ++
      shownField "s" Text.ofInt v.speed? ++ shownField "p" Profile.name v.profile? ++
      shownField "grain" Text.ofInt v.grain? ++ shownField "compat" shownFlag v.compat? =
        name ++ v.shownFields := by
    intro name
    simp only [shownFields, List.append_assoc]
  cases v with
  | copy => rfl
  | aom | rav1e | svt | x264 | x265 => exact hassoc _

/-- The first word of a video part. -/
def firstWord : VideoEncoder → Text
  | .copy => "video".toList
  | e => e.name

theorem takeWhile_summary (v : Video) : v.summary.takeWhile (· != ' ') = firstWord v.encoder := by
  cases v <;> rfl

theorem firstWord_injective {d e : VideoEncoder} (h : firstWord d = firstWord e) : d = e := by
  revert h
  cases d <;> cases e <;> decide

/-- The fields of a video part tell the fields of the configuration. -/
theorem fields_eq_of_shownFields {v w : Video} (hencoder : v.encoder = w.encoder)
    (h : v.shownFields = w.shownFields) :
    (v.crf? = w.crf? ∧ v.speed? = w.speed?) ∧ v.profile? = w.profile? ∧ v.grain? = w.grain? ∧
      v.compat? = w.compat? := by
  have hnumber : ∀ n, ' ' ∉ Text.ofInt n := Text.not_mem_ofInt rfl (by decide)
  have hprofile : ∀ p : Profile, ' ' ∉ p.name := Profile.not_mem_name rfl
  have hflag : ∀ b, ' ' ∉ shownFlag b := by decide
  have hend : ∀ v : Video, Text.Stops (· != ' ') (shownField "compat" shownFlag v.compat?) := by
    intro v
    simpa using stops_shownField (Text.stops_nil _)
  unfold shownFields at h
  obtain ⟨hcrf, h⟩ := shownField_append_inj hnumber Text.ofInt_injective
    (by rw [isSome_crf?, isSome_crf?, hencoder])
    (stops_shownField (stops_shownField (stops_shownField (hend v))))
    (stops_shownField (stops_shownField (stops_shownField (hend w)))) h
  obtain ⟨hspeed, h⟩ := shownField_append_inj hnumber Text.ofInt_injective
    (by rw [isSome_speed?, isSome_speed?, hencoder])
    (stops_shownField (stops_shownField (hend v))) (stops_shownField (stops_shownField (hend w))) h
  obtain ⟨hprofile, h⟩ := shownField_append_inj hprofile Profile.name_injective
    (by rw [isSome_profile?, isSome_profile?, hencoder]) (stops_shownField (hend v))
    (stops_shownField (hend w)) h
  obtain ⟨hgrain, h⟩ := shownField_append_inj hnumber Text.ofInt_injective
    (by rw [isSome_grain?, isSome_grain?, hencoder]) (hend v) (hend w) h
  have hlast : shownField "compat" shownFlag v.compat? ++ [] =
      shownField "compat" shownFlag w.compat? ++ [] := by rw [h]
  obtain ⟨hcompat, _⟩ := shownField_append_inj hflag shownFlag_injective
    (by rw [isSome_compat?, isSome_compat?, hencoder]) (Text.stops_nil _) (Text.stops_nil _) hlast
  exact ⟨⟨hcrf, hspeed⟩, hprofile, hgrain, hcompat⟩

/-- The video part tells the video configuration. -/
theorem summary_injective {v w : Video} (h : v.summary = w.summary) : v = w := by
  have hencoder : v.encoder = w.encoder := by
    apply firstWord_injective
    rw [← takeWhile_summary, ← takeWhile_summary, h]
  have hfields : v.shownFields = w.shownFields := by
    rw [summary_eq_append, summary_eq_append, hencoder] at h
    exact List.append_cancel_left h
  obtain ⟨⟨hcrf, hspeed⟩, hprofile, hgrain, hcompat⟩ := fields_eq_of_shownFields hencoder hfields
  exact ext_fields hencoder hcrf hspeed hprofile hgrain hcompat

theorem comma_not_mem_summary (v : Video) : ',' ∉ v.summary := by
  have hnumber : ∀ n, ',' ∉ Text.ofInt n := Text.not_mem_ofInt rfl (by decide)
  have hprofile : ∀ p : Profile, ',' ∉ p.name := Profile.not_mem_name rfl
  have hflag : ∀ b, ',' ∉ shownFlag b := by decide
  have htitle : ',' ∉ title v.encoder := by cases v.encoder <;> decide
  rw [summary_eq_append, shownFields]
  simp only [List.mem_append, not_or]
  exact ⟨htitle, comma_not_mem_shownField (by decide) hnumber,
    comma_not_mem_shownField (by decide) hnumber, comma_not_mem_shownField (by decide) hprofile,
    comma_not_mem_shownField (by decide) hnumber, comma_not_mem_shownField (by decide) hflag⟩

end Video

/-! ### The other parts before the tracks -/

/-- The part that shows a bit depth. -/
def BitDepth.shown (d : BitDepth) : Text := d.name ++ "-bit".toList

theorem BitDepth.shown_injective {d e : BitDepth} (h : d.shown = e.shown) : d = e :=
  name_injective (List.append_cancel_right h)

theorem BitDepth.not_mem_shown {c : Char} (h : c = ',' ∨ c = 'x' ∨ c = ' ') (d : BitDepth) :
    c ∉ d.shown := by
  rcases h with rfl | rfl | rfl <;> cases d <;> decide

namespace Resolution

theorem not_mem_shown {c : Char} (h : c = ',' ∨ c = ' ') (r : Resolution) : c ∉ r.shown := by
  rcases h with rfl | rfl <;> simp [shown, Text.not_mem_ofInt]

/-- The width ends at the first letter, so a resolution is known from its part. -/
theorem shown_injective {r s : Resolution} (h : r.shown = s.shown) : r = s := by
  have hside : ∀ n, 'x' ∉ Text.ofInt n := Text.not_mem_ofInt rfl (by decide)
  obtain ⟨hwidth, hheight⟩ :=
    Text.append_inj_of_not_mem (hside _) (hside _) (by simp) (by simp) h
  have hsides : r.width = s.width ∧ r.height = s.height :=
    ⟨Text.ofInt_injective hwidth, Text.ofInt_injective (List.cons.inj hheight).2⟩
  cases r
  cases s
  simp_all

end Resolution

namespace Output

variable {o₁ o₂ : Output}

/-- What an audio part holds behind the encoder. -/
def shownBitrate (o : Output) : Text :=
  if o.audioEncoder.hasBitrate then ' ' :: Text.ofInt o.audioBitrate ++ "k/ch".toList else []

theorem audioSummary_eq_append (o : Output) :
    o.audioSummary = "audio ".toList ++ (o.audioEncoder.name ++ o.shownBitrate) :=
  List.append_assoc ..

theorem space_mem_audioSummary (o : Output) : ' ' ∈ o.audioSummary := by
  rw [audioSummary_eq_append]
  exact List.mem_append_left _ (by decide)

theorem comma_not_mem_audioSummary (o : Output) : ',' ∉ o.audioSummary := by
  have hname : ',' ∉ o.audioEncoder.name := by cases o.audioEncoder <;> decide
  have hbitrate : ',' ∉ o.shownBitrate := by
    unfold shownBitrate
    split
    · simp [Text.not_mem_ofInt]
    · exact List.not_mem_nil
  rw [audioSummary_eq_append]
  simp [hname, hbitrate]

theorem hasBitrate_eq_true_iff {e : AudioEncoder} : e.hasBitrate = true ↔ e = .aac ∨ e = .opus := by
  cases e <;> decide

/-- The audio part tells the encoder, and the bitrate where the encoder has one. -/
theorem audioSummary_eq_iff :
    o₁.audioSummary = o₂.audioSummary ↔
      o₁.audioEncoder = o₂.audioEncoder ∧
        (o₁.audioEncoder = .aac ∨ o₁.audioEncoder = .opus → o₁.audioBitrate = o₂.audioBitrate) := by
  have hname : ∀ e : AudioEncoder, ' ' ∉ e.name := by
    intro e
    cases e <;> decide
  have hstops : ∀ o : Output, Text.Stops (· != ' ') o.shownBitrate := by
    intro o
    unfold shownBitrate
    split <;> simp
  rw [audioSummary_eq_append, audioSummary_eq_append, List.append_cancel_left_eq,
    ← hasBitrate_eq_true_iff]
  constructor
  · intro h
    obtain ⟨hsame, hbitrate⟩ :=
      Text.append_inj_of_not_mem (hname _) (hname _) (hstops o₁) (hstops o₂) h
    have hencoder := AudioEncoder.name_injective hsame
    refine ⟨hencoder, fun hhas => ?_⟩
    unfold shownBitrate at hbitrate
    rw [← hencoder, if_pos hhas, if_pos hhas, List.append_cancel_right_eq] at hbitrate
    exact Text.ofInt_injective (List.cons.inj hbitrate).2
  · rintro ⟨hencoder, hbitrate⟩
    rw [hencoder, List.append_cancel_left_eq]
    unfold shownBitrate
    rw [← hencoder]
    split
    · rename_i hhas
      rw [hbitrate hhas]
    · rfl

/-! ### The parts behind the audio -/

/-- The part that says that the audio is normalized. -/
def normalizePart (o : Output) : List Text := if o.audioNormalize then ["normalized".toList] else []

/-- The parts that list the tracks. -/
def trackParts (o : Output) : List Text :=
  trackPart "audio tracks" o.audioTracks ++ trackPart "subtitles" o.subtitleTracks

/-- Tracks are not listed like something that is normalized. -/
theorem further_trackParts_ne (o : Output) (parts : List Text) :
    Text.further o.trackParts ≠ Text.further ("normalized".toList :: parts) := by
  intro h
  -- the letter behind the first comma and blank tells them apart
  have hletter : ((Text.further o.trackParts).drop 2).head? = some 'n' := by
    rw [h]
    rfl
  unfold trackParts trackPart at hletter
  by_cases haudio : o.audioTracks = []
  · by_cases hsubtitles : o.subtitleTracks = []
    · rw [if_pos haudio, if_pos hsubtitles] at hletter
      exact absurd hletter (by decide)
    · rw [if_pos haudio, if_neg hsubtitles] at hletter
      have hsame : some 's' = some 'n' := hletter
      exact absurd hsame (by decide)
  · rw [if_neg haudio] at hletter
    have hsame : some 'a' = some 'n' := hletter
    exact absurd hsame (by decide)

/-- Whether the audio is normalized is known from the parts behind the audio. -/
theorem further_normalizePart_inj
    (h : Text.further (o₁.normalizePart ++ o₁.trackParts) =
      Text.further (o₂.normalizePart ++ o₂.trackParts)) :
    o₁.audioNormalize = o₂.audioNormalize ∧
      Text.further o₁.trackParts = Text.further o₂.trackParts := by
  unfold normalizePart at h
  cases h₁ : o₁.audioNormalize <;> cases h₂ : o₂.audioNormalize <;> rw [h₁, h₂] at h
  case false.false => exact ⟨rfl, h⟩
  case false.true => exact absurd h (further_trackParts_ne o₁ _)
  case true.false => exact absurd h.symm (further_trackParts_ne o₂ _)
  case true.true =>
    rw [Text.further_append, Text.further_append] at h
    exact ⟨rfl, List.append_cancel_left h⟩

/-! ### The whole summary -/

/-- The parts of a summary behind the container. -/
def laterParts (o : Output) : List Text :=
  o.bitDepth.toList.map BitDepth.shown ++ (o.resolution.toList.map Resolution.shown ++
    (o.audioSummary :: (o.normalizePart ++ o.trackParts)))

theorem summary_eq_append (o : Output) :
    o.summary = o.video.summary ++ Text.further (o.container.name :: o.laterParts) := by
  have hparts : o.summaryParts = o.video.summary :: o.container.name :: o.laterParts := by
    simp only [summaryParts, laterParts, normalizePart, trackParts, List.append_assoc,
      List.cons_append, List.nil_append]
    rfl
  rw [summary, hparts, Text.intercalate_cons_eq]

theorem beginOtherwise_audioSummary {α : Type} {shown : α → Text} (hshown : ∀ x, ' ' ∉ shown x)
    (o : Output) (parts : List Text) : Text.BeginOtherwise shown (o.audioSummary :: parts) := by
  refine ⟨_, _, rfl, o.comma_not_mem_audioSummary, ?_⟩
  intro x hx
  exact hshown x (hx ▸ o.space_mem_audioSummary)

/-- What may follow a bit depth shows none. -/
theorem beginOtherwise_resolution (o : Output) (parts : List Text) :
    Text.BeginOtherwise BitDepth.shown
      (o.resolution.toList.map Resolution.shown ++ (o.audioSummary :: parts)) := by
  cases o.resolution with
  | none => exact beginOtherwise_audioSummary (BitDepth.not_mem_shown (by simp)) o parts
  | some r =>
      refine ⟨r.shown, _, rfl, Resolution.not_mem_shown (by simp) r, ?_⟩
      intro d hd
      have hx : 'x' ∈ r.shown := by simp [Resolution.shown]
      exact BitDepth.not_mem_shown (by simp) d (hd ▸ hx)

/-- **When two outputs have the same summary**: exactly if they agree in everything that stands
before the tracks, and list their tracks by the same text.  The bitrate stands there where the audio
encoder has one. -/
theorem summary_eq_summary_iff :
    o₁.summary = o₂.summary ↔
      o₁.video = o₂.video ∧ o₁.container = o₂.container ∧ o₁.bitDepth = o₂.bitDepth ∧
        o₁.resolution = o₂.resolution ∧ o₁.audioEncoder = o₂.audioEncoder ∧
          o₁.audioNormalize = o₂.audioNormalize ∧
            (o₁.audioEncoder = .aac ∨ o₁.audioEncoder = .opus →
              o₁.audioBitrate = o₂.audioBitrate) ∧
            Text.further o₁.trackParts = Text.further o₂.trackParts := by
  rw [summary_eq_append, summary_eq_append]
  constructor
  · intro h
    have hcontainer : ∀ c : Container, ',' ∉ c.name := by
      intro c
      cases c <;> decide
    obtain ⟨hvideo, h⟩ := Text.append_further_inj (Video.comma_not_mem_summary _)
      (Video.comma_not_mem_summary _) h
    obtain ⟨hname, h⟩ := Text.further_cons_inj (hcontainer _) (hcontainer _) h
    obtain ⟨hdepth, h⟩ := Text.further_optional_inj BitDepth.shown_injective
      (BitDepth.not_mem_shown (by simp)) (beginOtherwise_resolution _ _)
      (beginOtherwise_resolution _ _) h
    obtain ⟨hresolution, h⟩ := Text.further_optional_inj Resolution.shown_injective
      (Resolution.not_mem_shown (by simp))
      (beginOtherwise_audioSummary (Resolution.not_mem_shown (by simp)) _ _)
      (beginOtherwise_audioSummary (Resolution.not_mem_shown (by simp)) _ _) h
    obtain ⟨haudio, h⟩ := Text.further_cons_inj (comma_not_mem_audioSummary _)
      (comma_not_mem_audioSummary _) h
    obtain ⟨hencoder, hbitrate⟩ := audioSummary_eq_iff.1 haudio
    obtain ⟨hnormalize, htracks⟩ := further_normalizePart_inj h
    exact ⟨Video.summary_injective hvideo, Container.name_injective hname, hdepth, hresolution,
      hencoder, hnormalize, hbitrate, htracks⟩
  · rintro ⟨hvideo, hcontainer, hdepth, hresolution, hencoder, hnormalize, hbitrate, htracks⟩
    have haudio : o₁.audioSummary = o₂.audioSummary := audioSummary_eq_iff.2 ⟨hencoder, hbitrate⟩
    have hpart : o₁.normalizePart = o₂.normalizePart := by
      unfold normalizePart
      rw [hnormalize]
    unfold laterParts
    simp only [Text.further_cons, Text.further_append, hvideo, hcontainer, hdepth, hresolution,
      haudio, hpart, htracks]

/-- The tracks are not told: one of a file with a comma in its name reads like two. -/
example :
    let one := { ofEncoder .copy with
      audioTracks := [⟨.external "a.ac3, subtitles b.srt".toList none, false, false⟩] }
    let two := { ofEncoder .copy with
      audioTracks := [⟨.external "a.ac3".toList none, false, false⟩]
      subtitleTracks := [⟨.external "b.srt".toList none, false, false⟩] }
    one ≠ two ∧ one.summary = two.summary := by
  decide

end Output

end Transcode

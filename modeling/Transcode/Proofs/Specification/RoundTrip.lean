/-
**Every valid configuration can be written down and read back.**

An output is written as its settings, with references for its tracks.  Commas and semicolons put
clauses and outputs together in a way that reading undoes; every clause is read back as itself; the
references stand for the tracks that they name; and the settings are applied to give the output.

Main definitions:

* `Transcode.Output.IsWritable` — the outputs that can be written beside a source;
* `Transcode.Output.IsWrittenAs` — the clauses that an output is written as.

Main results:

* `Transcode.Output.IsWritable.exists_isWrittenAs` — an output that can be written is written as
  some clauses;
* `Transcode.Specification.segments_print` — the segments of written outputs;
* `Transcode.Output.IsWritable.describes` — what an output is written as describes it;
* `Transcode.Specification.yields_resolve_print` — **every valid configuration can be written down
  and read back**.
-/

import Transcode.Proofs.Clause.Printed
import Transcode.Proofs.Output.Settled
import Transcode.Proofs.Specification.Outcome
import Transcode.Proofs.Track.Named

set_option relaxedAutoImplicit false
set_option autoImplicit false

namespace Transcode

variable {source : Text} {has : Text → Bool}

namespace Output

/-! ### Outputs that can be written -/

/-- An output that can be written beside a source: its encoders accept its settings, everything fits
where it is stored, and every track is named by a reference. -/
structure IsWritable (source : Text) (has : Text → Bool) (o : Output) : Prop where
  sound : o.IsSound
  bitrate : o.audioBitrate ≤ Range.bitrate.max
  resolution : ∀ r ∈ o.resolution, r.IsEncodable
  named : ∀ t ∈ o.tracks, ∃ ref, TrackRef.Names source has ref t

/-- The clauses that an output is written as: its settings, with references that name its
tracks. -/
def IsWrittenAs (source : Text) (has : Text → Bool) (o : Output) (clauses : List Clause) : Prop :=
  ∃ audio subtitles, List.Forall₂ (TrackRef.Names source has) audio o.audioTracks ∧
    List.Forall₂ (TrackRef.Names source has) subtitles o.subtitleTracks ∧
    clauses = o.settings audio subtitles

/-- An output that can be written is written as some clauses. -/
theorem IsWritable.exists_isWrittenAs {o : Output} (h : o.IsWritable source has) :
    ∃ clauses, o.IsWrittenAs source has clauses := by
  obtain ⟨audio, haudio⟩ := exists_forall₂_of_forall_mem fun t ht =>
    h.named t (List.mem_append_left _ ht)
  obtain ⟨subtitles, hsubtitles⟩ := exists_forall₂_of_forall_mem fun t ht =>
    h.named t (List.mem_append_right _ ht)
  exact ⟨_, audio, subtitles, haudio, hsubtitles, rfl⟩

/-! ### The clauses of an output -/

/-- The quantizers of every encoder fit sixteen bits. -/
theorem contains_signed16_of_isSound {v : Video} (h : v.IsSound) {q : Int}
    (hq : v.crf? = some q) : Range.signed16.contains q = true := by
  cases v with
  | copy => exact absurd hq (by simp [Video.crf?])
  | _ =>
      have hrange := Range.contains_iff.1 (h.crf q hq _ rfl)
      rw [Range.contains_iff]
      simp only [Range.signed16]
      dsimp only at hrange
      omega

/-- References that name tracks have proper identifiers. -/
theorem isWellFormed_of_names {refs : List TrackRef} {tracks : List Track}
    (h : List.Forall₂ (TrackRef.Names source has) refs tracks) :
    ∀ ref ∈ refs, Identifier.IsWellFormed ref.identifier := by
  intro ref href
  obtain ⟨t, _, hnames⟩ := exists_of_mem_of_forall₂ (List.Forall₂.flip (R := flip _) h) href
  exact TrackRef.Names.isWellFormed hnames

/-- Every clause that an output is written as can be written. -/
theorem IsWritable.isWritable_clause {o : Output} (h : o.IsWritable source has)
    {clauses : List Clause} (hwritten : o.IsWrittenAs source has clauses) :
    ∀ clause ∈ clauses, clause.IsWritable := by
  obtain ⟨audio, subtitles, haudio, hsubtitles, rfl⟩ := hwritten
  intro clause hclause
  cases settles_of_mem_settings hclause with
  | quantizer hq => exact contains_signed16_of_isSound h.sound.video hq
  | speed hs =>
      have hspeed := Range.contains_iff.1 (h.sound.video.speed _ hs)
      simp only [Range.speed] at hspeed
      simp only [Clause.IsWritable, Range.contains_iff, Range.unsigned8]
      omega
  | grain hg =>
      have hgrain := Range.contains_iff.1 (h.sound.video.grain _ hg)
      simp only [Range.grain] at hgrain
      simp only [Clause.IsWritable, Range.contains_iff, Range.unsigned8]
      omega
  | resolution hr => exact h.resolution _ hr
  | audioBitrate =>
      have hmin := h.sound.bitrate
      have hmax := h.bitrate
      simp only [Range.bitrate] at hmin hmax
      simp only [Clause.IsWritable, Range.contains_iff, Range.unsigned32]
      omega
  | audioTracks hne => exact ⟨hne, isWellFormed_of_names haudio⟩
  | subtitleTracks hne => exact ⟨hne, isWellFormed_of_names hsubtitles⟩
  | _ => exact trivial

theorem IsWrittenAs.ne_nil {o : Output} {clauses : List Clause}
    (h : o.IsWrittenAs source has clauses) : clauses ≠ [] := by
  obtain ⟨audio, subtitles, _, _, rfl⟩ := h
  have hencoder : .videoEncoder o.video.encoder ∈ o.settings audio subtitles := by
    simp [settings, Video.videoEncoder_mem_settings]
  exact List.ne_nil_of_mem hencoder

/-- What an output is written as describes it. -/
theorem IsWritable.describes {o : Output} (h : o.IsWritable source has) {clauses : List Clause}
    (hwritten : o.IsWrittenAs source has clauses) :
    Specification.Describes source (FileSystem.ofFiles has) (Segment.print clauses) o := by
  refine ⟨o.settings o.audioTracks o.subtitleTracks, ?_, resolve_settings h.sound⟩
  rw [Segment.yields_settings_iff, Segment.scan_print (h.isWritable_clause hwritten)]
  obtain ⟨audio, subtitles, haudio, hsubtitles, rfl⟩ := hwritten
  -- clauses and settings differ in the tracks only, and there references stand for what they name
  refine ⟨rfl, related_settings o ?_ ?_⟩
  · exact haudio.imp fun _ _ hnames => hnames.standsFor
  · exact hsubtitles.imp fun _ _ hnames => hnames.standsFor

end Output

/-! ### Several outputs -/

namespace Specification

/-- The segments of written outputs are what each of them is written as. -/
theorem segments_print {written : List (List Clause)} (hwritten : written ≠ [])
    (hne : ∀ clauses ∈ written, clauses ≠ [])
    (h : ∀ clauses ∈ written, ∀ clause ∈ clauses, clause.IsWritable) :
    segments (print written) = written.map Segment.print := by
  have hparts : ∀ part ∈ written.map Segment.print, ';' ∉ part ∧ part.isBlank = false := by
    intro part hpart
    obtain ⟨clauses, hclauses, rfl⟩ := List.mem_map.1 hpart
    exact ⟨Segment.semicolon_not_mem_print (h clauses hclauses),
      Segment.not_isBlank_print (hne clauses hclauses) (h clauses hclauses)⟩
  exact segments_joined (by simpa using hwritten) hparts

theorem describes_of_written {outputs : List Output} {written : List (List Clause)}
    (hwritten : List.Forall₂ (Output.IsWrittenAs source has) outputs written)
    (h : ∀ o ∈ outputs, o.IsWritable source has) :
    List.Forall₂ (Describes source (FileSystem.ofFiles has)) (written.map Segment.print)
      outputs := by
  induction hwritten with
  | nil => exact .nil
  | cons hfirst _ ih =>
      exact .cons ((h _ (by simp)).describes hfirst) (ih fun o ho => h o (by simp [ho]))

/-- **Every valid configuration can be written down and read back.**  Outputs that can be written
are written in some way, and however they are written, resolving the text gives them back. -/
theorem yields_resolve_print {outputs : List Output} (hne : outputs ≠ [])
    (h : ∀ o ∈ outputs, o.IsWritable source has) :
    (∃ written, List.Forall₂ (Output.IsWrittenAs source has) outputs written) ∧
      ∀ written, List.Forall₂ (Output.IsWrittenAs source has) outputs written →
        (resolve source (some (print written))).Yields (FileSystem.ofFiles has) outputs := by
  constructor
  · obtain ⟨written, hwritten⟩ := exists_forall₂_of_forall_mem fun o ho =>
      (h o ho).exists_isWrittenAs
    exact ⟨written, hwritten.flip⟩
  · intro written hwritten
    -- each part of the text is what one of the outputs is written as
    have hparts : ∀ clauses ∈ written, clauses ≠ [] ∧ ∀ clause ∈ clauses, clause.IsWritable := by
      intro clauses hclauses
      obtain ⟨o, ho, hw⟩ := exists_of_mem_of_forall₂ hwritten hclauses
      exact ⟨hw.ne_nil, (h o ho).isWritable_clause hw⟩
    have hsome : written ≠ [] := by
      rintro rfl
      exact hne (List.forall₂_nil_right_iff.1 hwritten)
    have hsegments := segments_print hsome (fun c hc => (hparts c hc).1) fun c hc => (hparts c hc).2
    have hresolved : resolvedSegments (some (print written)) = written.map Segment.print := by
      unfold resolvedSegments
      rw [Option.getD_some, hsegments]
      split
      · rename_i hnil
        exact absurd (List.map_eq_nil_iff.1 hnil) hsome
      · rename_i segment rest hcons
        exact hcons.symm
    rw [yields_resolve_iff, hresolved]
    exact describes_of_written hwritten h

/-- An output with a numbered track of a file beside the source, written down and read back. -/
theorem yields_resolve_print_numbered :
    ∃ o : Output, o.audioTracks = [⟨.external "film.ac3".toList (some 1), true, false⟩] ∧
      (resolve "film.mkv".toList
        (some "enc=svt,q=16,s=4,p=film,grain=0,ext=mkv,aenc=copy,ab=80,at=1.ac3-e".toList)).Yields
          (FileSystem.ofFiles fun path => path == "film.ac3".toList) [o] := by
  have hid : Identifier.IsWellFormed "ac3".toList := by
    refine ⟨["ac3".toList], by decide, ?_, rfl⟩
    intro r hr
    obtain rfl := List.mem_singleton.1 hr
    exact ⟨by decide, List.all_eq_true.1 (by decide)⟩
  have hnames : TrackRef.Names "film.mkv".toList (fun path => path == "film.ac3".toList)
      ⟨Text.ofNat 1 ++ '.' :: "ac3".toList, true, false⟩
      ⟨.external (Path.withExtension "film.mkv".toList "ac3".toList) (some 1), true, false⟩ :=
    .numbered (by decide) hid (by decide) (by decide) true false
  have hwritable : ∀ o ∈ [{ Output.ofEncoder .svt with
      audioTracks := [⟨.external "film.ac3".toList (some 1), true, false⟩] }],
      o.IsWritable "film.mkv".toList fun path => path == "film.ac3".toList := by
    intro o ho
    obtain rfl := List.mem_singleton.1 ho
    have hsound := Output.isSound_ofEncoder .svt
    refine ⟨⟨hsound.video, hsound.bitrate⟩, by decide, by simp [Output.ofEncoder], ?_⟩
    intro t ht
    obtain rfl := List.mem_singleton.1 ht
    exact ⟨_, hnames⟩
  obtain ⟨_, hread⟩ := yields_resolve_print (by simp) hwritable
  exact ⟨_, rfl, hread _ (.cons ⟨_, [], .cons hnames .nil, .nil, rfl⟩ .nil)⟩

end Specification

end Transcode

/-
**What identifiers, references and clauses stand for.**

Looking an identifier up is a computation with at most two questions.  What it stands for can be
said without asking: it is a stream number, or the extension of a file, or, if there is no such
file, a track number and the extension of another.  This module proves that a look-up ends with
exactly what the identifier stands for, in every file system, and lifts that to references and to
the settings of a clause.

Main definitions:

* `Transcode.Identifier.IsStream` — identifiers that are stream numbers;
* `Transcode.TrackSource.StandsFor`, `Transcode.TrackRef.StandsFor` — what an identifier and a
  reference stand for beside a source;
* `Transcode.Setting.Related`, `Transcode.Clause.StandsFor` — settings that differ in their tracks
  only, and the setting that a clause stands for.

Main results:

* `Transcode.TrackSource.yields_find_iff` — **a look-up ends with what the identifier stands for**;
* `Transcode.Clause.yields_find_iff` — the same for the settings of a clause.
-/

import Transcode.Clause.Grammar
import Transcode.Proofs.Lookup.Outcome

set_option relaxedAutoImplicit false
set_option autoImplicit false

namespace Transcode

/-! ### Readings of an identifier -/

namespace Identifier

/-- Identifiers that are the number of a stream: digits only, and not too large. -/
def IsStream (identifier : Text) : Prop :=
  Text.IsNatural identifier ∧ Text.natural identifier ≤ maxIndex

theorem index?_eq_some_iff {digits : Text} {n : Nat} :
    index? digits = some n ↔ Text.natural digits ≤ maxIndex ∧ Text.natural digits = n := by
  unfold index?
  split
  · rename_i h
    simp [h]
  · rename_i h
    simp [h]

theorem stream?_eq_some_iff {identifier : Text} {n : Nat} :
    stream? identifier = some n ↔ IsStream identifier ∧ Text.natural identifier = n := by
  unfold stream? IsStream Text.IsNatural
  split
  · rename_i h
    rw [index?_eq_some_iff]
    simp_all
  · rename_i h
    simp only [List.all_eq_true] at h
    simp [h]

theorem stream?_eq_none_iff {identifier : Text} :
    stream? identifier = none ↔ ¬ IsStream identifier := by
  constructor
  · intro h hs
    rw [stream?_eq_some_iff.2 ⟨hs, rfl⟩] at h
    exact absurd h (by simp)
  · intro h
    cases hs : stream? identifier with
    | none => rfl
    | some n => exact absurd (stream?_eq_some_iff.1 hs).1 h

/-- A text with digits, a dot and something after the dot falls apart there. -/
theorem digits_dot {digits : Text} (h : ∀ c ∈ digits, c.isDigit = true) (suffix : Text) :
    Text.leadingNatural (digits ++ '.' :: suffix) = digits ∧
      (digits ++ '.' :: suffix).dropWhile Char.isDigit = '.' :: suffix := by
  have hdot : Text.Stops Char.isDigit ('.' :: suffix) := by simp
  exact ⟨Text.takeWhile_append_of_stops h hdot, Text.dropWhile_append_of_stops h hdot⟩

theorem numbered?_eq_some_iff {identifier suffix : Text} {n : Nat} :
    numbered? identifier = some (n, suffix) ↔
      ∃ digits, identifier = digits ++ '.' :: suffix ∧ IsStream digits ∧ Text.natural digits = n ∧
        suffix ≠ [] ∧ ∀ c ∈ suffix, Text.isLineEnd c = false := by
  constructor
  · intro h
    unfold numbered? at h
    split at h
    · rename_i c digits suffix' hdigits hext
      split at h
      · simp at h
      · rename_i hline
        obtain ⟨m, hm, hpair⟩ := Option.map_eq_some_iff.1 h
        obtain ⟨rfl, rfl⟩ := Prod.mk.inj hpair
        obtain ⟨hmax, hm⟩ := index?_eq_some_iff.1 hm
        have hall := Text.all_takeWhile Char.isDigit identifier
        rw [← Text.leadingNatural, hdigits] at hall
        refine ⟨c :: digits, ?_, ⟨⟨by simp, hall⟩, hmax⟩, hm, ?_, ?_⟩
        · rw [← hdigits, ← hext, Text.leadingNatural, List.takeWhile_append_dropWhile]
        · exact fun h => hline (Or.inl h)
        · simpa using fun h => hline (Or.inr h)
    · simp at h
  · rintro ⟨digits, rfl, ⟨⟨hne, hall⟩, hmax⟩, rfl, hext, hline⟩
    obtain ⟨hread, hrest⟩ := digits_dot hall suffix
    obtain ⟨c, digits, rfl⟩ := List.exists_cons_of_ne_nil hne
    have hclean : ¬ (suffix = [] ∨ suffix.any Text.isLineEnd = true) := by
      simpa [hext] using hline
    simp only [numbered?, hread, hrest, if_neg hclean, index?_eq_some_iff.2 ⟨hmax, rfl⟩,
      Option.map_some]

/-- A number with an extension is no stream number. -/
theorem not_isStream_numbered (digits suffix : Text) : ¬ IsStream (digits ++ '.' :: suffix) := by
  intro h
  exact absurd (h.1.2 '.' (by simp)) (by decide)

end Identifier

/-! ### Identifiers -/

/-- What an identifier stands for beside a source: the stream of its number; else the file with the
identifier as its extension; else, if that file does not exist, a numbered track of another file. -/
inductive TrackSource.StandsFor (source : Text) (fs : FileSystem) : Text → TrackSource → Prop where
  | stream {identifier : Text} (h : Identifier.IsStream identifier) :
      StandsFor source fs identifier (.video (Text.natural identifier))
  | file {identifier : Text} (hstream : ¬ Identifier.IsStream identifier)
      (hfile : fs (Path.withExtension source identifier) = .ok true) :
      StandsFor source fs identifier (.external (Path.withExtension source identifier) none)
  | numbered {digits suffix : Text} (h : Identifier.IsStream digits) (hext : suffix ≠ [])
      (hline : ∀ c ∈ suffix, Text.isLineEnd c = false)
      (hfree : fs (Path.withExtension source (digits ++ '.' :: suffix)) = .ok false)
      (hfile : fs (Path.withExtension source suffix) = .ok true) :
      StandsFor source fs (digits ++ '.' :: suffix)
        (.external (Path.withExtension source suffix) (some (Text.natural digits)))

namespace TrackSource

variable {source identifier : Text} {fs : FileSystem}

/-- **A look-up ends with what the identifier stands for.** -/
theorem yields_find_iff {found : TrackSource} :
    (find source identifier).Yields fs found ↔ StandsFor source fs identifier found := by
  unfold find
  cases hs : Identifier.stream? identifier with
  | some index =>
      obtain ⟨hstream, rfl⟩ := Identifier.stream?_eq_some_iff.1 hs
      simp only [Attempt.yields_pure]
      constructor
      · rintro rfl
        exact .stream hstream
      · intro h
        cases h with
        | stream => rfl
        | file hno => exact absurd hstream hno
        | numbered => exact absurd hstream (Identifier.not_isStream_numbered _ _)
  | none =>
      have hstream := Identifier.stream?_eq_none_iff.1 hs
      simp only
      rw [Attempt.yields_ifFile, Attempt.yields_pure]
      constructor
      · rintro (⟨hfile, rfl⟩ | ⟨hfree, hsecond⟩)
        · exact .file hstream hfile
        · -- the second look, after the file with the whole identifier was not found
          cases hnum : Identifier.numbered? identifier with
          | none => simp [hnum] at hsecond
          | some entry =>
              obtain ⟨index, suffix⟩ := entry
              obtain ⟨digits, rfl, hdigits, rfl, hext, hline⟩ :=
                Identifier.numbered?_eq_some_iff.1 hnum
              simp only [hnum, Attempt.yields_ifFile, Attempt.yields_pure, Attempt.yields_throw,
                and_false, or_false] at hsecond
              obtain ⟨hfile, rfl⟩ := hsecond
              exact .numbered hdigits hext hline hfree hfile
      · intro h
        cases h with
        | stream h => exact absurd h hstream
        | file _ hfile => exact Or.inl ⟨hfile, rfl⟩
        | numbered h hext hline hfree hfile =>
            have hnum := Identifier.numbered?_eq_some_iff.2 ⟨_, rfl, h, rfl, hext, hline⟩
            refine Or.inr ⟨hfree, ?_⟩
            simp only [hnum]
            exact Attempt.yields_ifFile.2 (Or.inl ⟨hfile, Attempt.yields_pure.2 rfl⟩)

end TrackSource

/-! ### References -/

/-- What a reference stands for: what its identifier stands for, with its tags. -/
structure TrackRef.StandsFor (source : Text) (fs : FileSystem) (ref : TrackRef) (track : Track) :
    Prop where
  found : TrackSource.StandsFor source fs ref.identifier track.source
  enabled : track.enabled = ref.enabled
  forced : track.forced = ref.forced

theorem TrackRef.yields_find_iff {source : Text} {fs : FileSystem} {ref : TrackRef}
    {track : Track} : (find source ref).Yields fs track ↔ StandsFor source fs ref track := by
  unfold find
  rw [Attempt.yields_map]
  simp only [TrackSource.yields_find_iff]
  constructor
  · rintro ⟨found, hfound, rfl⟩
    exact ⟨hfound, rfl, rfl⟩
  · rintro ⟨hfound, henabled, hforced⟩
    exact ⟨track.source, hfound, by rw [← henabled, ← hforced]⟩

/-! ### Settings -/

namespace Setting

variable {σ τ : Type}

/-- Settings of the same kind and value, whose tracks are related one by one. -/
inductive Related (R : σ → τ → Prop) : Setting σ → Setting τ → Prop where
  | videoEncoder (e : VideoEncoder) : Related R (.videoEncoder e) (.videoEncoder e)
  | quantizer (value : Int) : Related R (.quantizer value) (.quantizer value)
  | speed (value : Int) : Related R (.speed value) (.speed value)
  | profile (p : Profile) : Related R (.profile p) (.profile p)
  | grain (value : Int) : Related R (.grain value) (.grain value)
  | compat (enabled : Bool) : Related R (.compat enabled) (.compat enabled)
  | container (c : Container) : Related R (.container c) (.container c)
  | bitDepth (d : BitDepth) : Related R (.bitDepth d) (.bitDepth d)
  | resolution (r : Resolution) : Related R (.resolution r) (.resolution r)
  | audioEncoder (e : AudioEncoder) : Related R (.audioEncoder e) (.audioEncoder e)
  | audioBitrate (kbps : Int) : Related R (.audioBitrate kbps) (.audioBitrate kbps)
  | audioTracks {ss : List σ} {ts : List τ} (h : List.Forall₂ R ss ts) :
      Related R (.audioTracks ss) (.audioTracks ts)
  | audioNormalize : Related R .audioNormalize .audioNormalize
  | subtitleTracks {ss : List σ} {ts : List τ} (h : List.Forall₂ R ss ts) :
      Related R (.subtitleTracks ss) (.subtitleTracks ts)

/-- Replacing the tracks of a setting by what a computation makes of them yields the settings that
are related to it in that way. -/
theorem yields_traverse_iff {fs : FileSystem} {f : σ → Attempt τ} {s : Setting σ}
    {t : Setting τ} :
    (traverse f s).Yields fs t ↔ Related (fun a b => (f a).Yields fs b) s t := by
  constructor
  · intro h
    cases s with
    | audioTracks ts =>
        obtain ⟨ts, hts, h⟩ := Attempt.yields_bind.1 h
        obtain rfl := Attempt.yields_pure.1 h
        exact .audioTracks (Attempt.yields_mapM.1 hts)
    | subtitleTracks ts =>
        obtain ⟨ts, hts, h⟩ := Attempt.yields_bind.1 h
        obtain rfl := Attempt.yields_pure.1 h
        exact .subtitleTracks (Attempt.yields_mapM.1 hts)
    | _ =>
        obtain rfl := Attempt.yields_pure.1 h
        constructor
  · intro h
    cases h with
    | audioTracks h | subtitleTracks h =>
        exact Attempt.yields_bind.2 ⟨_, Attempt.yields_mapM.2 h, Attempt.yields_pure.2 rfl⟩
    | _ => exact Attempt.yields_pure.2 rfl

end Setting

/-- What a clause stands for: the setting with every reference replaced by its track. -/
def Clause.StandsFor (source : Text) (fs : FileSystem) : Clause → Token → Prop :=
  Setting.Related (TrackRef.StandsFor source fs)

/-- Looking up the tracks of a clause ends with the setting that the clause stands for. -/
theorem Clause.yields_find_iff {source : Text} {fs : FileSystem} {clause : Clause}
    {token : Token} : (find source clause).Yields fs token ↔ StandsFor source fs clause token := by
  unfold find StandsFor
  rw [Setting.yields_traverse_iff]
  simp only [TrackRef.yields_find_iff]

end Transcode

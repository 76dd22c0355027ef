/-
**Why a clause is refused.**

An error about a clause is determined by the clause.  Without a key at its front the text is
unrecognized.  A track list that is broken off leaves the text unrecognized too, and a track that
is not found is reported as missing.  Any other filter reports what it quotes of the value, with
the kind of error and the name that belong to the filter; a resolution reports its sides, first
whether they are numbers of 32 bits, one after the other, then whether they are even, and then
whether they are large enough.

Main definitions:

* `Transcode.Filter.complaint?` — the error of a filter about what it quotes;
* `Transcode.Value.SidesRefusal`, `Transcode.Clause.ValueRefusal` — the errors about two sides, and
  about a value;
* `Transcode.TrackRef.IsListed` — the identifiers of a list, which may be broken off;
* `Transcode.Clause.Unreadable`, `Transcode.Clause.Refusal` — why a clause cannot be read, and the
  errors about a clause.

Main results:

* `Transcode.Value.sidesRefusal_of_ofSides`, `Transcode.Clause.valueRefusal_of_scanValue` — what
  the readers of values report;
* `Transcode.Clause.unreadable_of_scan` — why a clause cannot be read;
* `Transcode.Clause.refusal_of_refuses_parse` — **why a clause is refused**.
-/

import Transcode.Proofs.Clause.Acceptance
import Transcode.Proofs.Clause.Locality
import Transcode.Proofs.Clause.Quoted
import Transcode.Proofs.Track.Missing

set_option relaxedAutoImplicit false
set_option autoImplicit false

namespace Transcode

/-! ### Values -/

/-- The error of a filter about what it quotes of a value.  It carries the name of the filter, or
the names that would have been accepted.  Track lists and the key that is a whole clause have no
such error. -/
def Filter.complaint? (f : Filter) (w : Text) : Option ParseError :=
  match f with
  | videoEncoder => some (.unknownVideoEncoder w (VideoEncoder.all.map VideoEncoder.name))
  | profile => some (.unknownProfile w (Profile.all.map Profile.name))
  | container => some (.unsupportedExtension w (Container.all.map Container.name))
  | bitDepth => some (.unsupportedBitDepth w (BitDepth.all.map fun d => (d.bits : Int)))
  | audioEncoder => some (.unknownAudioEncoder w (AudioEncoder.all.map AudioEncoder.name))
  | quantizer | speed | grain | compat | resolution | audioBitrate =>
    some (.invalidNumber f.name w)
  | audioTracks | audioNormalize | subtitleTracks => none

namespace Value

/-- What an error about a name quotes. -/
theorem quotes_of_name {α : Type} {isNameChar : Char → Bool} {ofName? : Text → Option α}
    {unknown : Text → ParseError} {value : Text} {e : ParseError}
    (h : name isNameChar ofName? unknown value = .error e) :
    ∃ w, Quotes (Text.IsRun isNameChar) value w ∧ unknown w = e :=
  ⟨_, quotes_of_takesLongest (Text.takesLongest_takeWhile isNameChar) value, (error_of_name h).symm⟩

/-- What an error about a number quotes. -/
theorem quotes_of_number {filter : Filter} {numeral : Text → Text} {IsNumeral : Text → Prop}
    {allowed : Range} {value : Text} {e : ParseError} (hread : Text.TakesLongest numeral IsNumeral)
    (h : number filter numeral allowed value = .error e) :
    ∃ w, Quotes IsNumeral value w ∧ .invalidNumber filter.name w = e := by
  refine ⟨_, quotes_of_takesLongest hread value, ?_⟩
  unfold number at h
  split at h
  · rename_i hnone
    rw [if_pos hnone]
    exact Except.error.inj h
  · rename_i hsome
    split at h
    · simp at h
    · rw [if_neg hsome]
      exact Except.error.inj h

/-! ### Sides -/

/-- A side of a resolution is a number of 32 bits. -/
def Fits (side : Text) : Prop := Text.natural side ≤ 4294967295

/-- The errors about the two sides of a resolution. -/
inductive SidesRefusal (width height : Text) : ParseError → Prop where
  | wideWidth (hw : ¬ Fits width) :
      SidesRefusal width height (.invalidNumber Filter.resolution.name width)
  | wideHeight (hw : Fits width) (hh : ¬ Fits height) :
      SidesRefusal width height (.invalidNumber Filter.resolution.name height)
  | odd (hw : Fits width) (hh : Fits height)
      (hodd : ¬ (Text.natural width % 2 = 0 ∧ Text.natural height % 2 = 0)) :
      SidesRefusal width height (.outOfRange Filter.resolution.name
        (if Text.natural width % 2 = 0 then Text.natural height else Text.natural width)
        Range.side (some (oddSide (width ++ 'x' :: height))))
  | small (hw : Fits width) (hh : Fits height)
      (heven : Text.natural width % 2 = 0 ∧ Text.natural height % 2 = 0)
      (hsmall : ¬ (64 ≤ Text.natural width ∧ 64 ≤ Text.natural height)) :
      SidesRefusal width height (.outOfRange Filter.resolution.name
        (min (Text.natural width : Int) (Text.natural height)) Range.side
        (some (smallSide (width ++ 'x' :: height))))

theorem contains_unsigned32_iff (side : Text) :
    Range.unsigned32.contains (Text.natural side) = true ↔ Fits side := by
  simp only [Range.contains_iff, Fits, Range.unsigned32]
  omega

theorem side_of_fits {numeral : Text} (h : Fits numeral) :
    side numeral = .ok (Text.natural numeral : Int) :=
  if_pos ((contains_unsigned32_iff numeral).2 h)

theorem side_of_not_fits {numeral : Text} (h : ¬ Fits numeral) :
    side numeral = .error (.invalidNumber Filter.resolution.name numeral) :=
  if_neg (mt (contains_unsigned32_iff numeral).1 h)

/-- An error about two numbers of 32 bits as the sides of a resolution. -/
theorem sidesRefusal_of_check {width height : Text} {e : ParseError} (hw : Fits width)
    (hh : Fits height)
    (h : check ⟨Text.natural width, Text.natural height⟩ (width ++ 'x' :: height) = .error e) :
    SidesRefusal width height e := by
  unfold check at h
  dsimp only at h
  split at h
  · rename_i hodd
    have hodd : ¬ (Text.natural width % 2 = 0 ∧ Text.natural height % 2 = 0) := by omega
    have hside : (if (Text.natural width : Int) % 2 ≠ 0 then (Text.natural width : Int)
        else Text.natural height) =
        if Text.natural width % 2 = 0 then (Text.natural height : Int)
        else Text.natural width := by
      split <;> split <;> omega
    rw [hside] at h
    obtain rfl := Except.error.inj h
    exact .odd hw hh hodd
  · rename_i heven
    split at h
    · rename_i hsmall
      have hsmall : ¬ (64 ≤ Text.natural width ∧ 64 ≤ Text.natural height) := by
        simp only [Range.side] at hsmall
        omega
      obtain rfl := Except.error.inj h
      exact .small hw hh (by omega) hsmall
    · simp at h

/-- An error about the sides of a resolution is what is wrong with them. -/
theorem sidesRefusal_of_ofSides {width height : Text} {e : ParseError}
    (h : ofSides width height = .error e) : SidesRefusal width height e := by
  unfold ofSides at h
  by_cases hw : Fits width
  · rw [side_of_fits hw] at h
    by_cases hh : Fits height
    · rw [side_of_fits hh] at h
      exact sidesRefusal_of_check hw hh h
    · rw [side_of_not_fits hh] at h
      obtain rfl := Except.error.inj h
      exact .wideHeight hw hh
  · rw [side_of_not_fits hw] at h
    obtain rfl := Except.error.inj h
    exact .wideWidth hw

/-- What an error about a resolution is about: a value without two sides, or the two sides. -/
theorem refusal_of_resolution {value : Text} {e : ParseError} (h : resolution value = .error e) :
    (sides? value = none ∧ e = .invalidNumber Filter.resolution.name (raw value)) ∨
      ∃ width height rest, sides? value = some (width, height, rest) ∧
        SidesRefusal width height e := by
  unfold resolution at h
  split at h
  · rename_i hnone
    exact Or.inl ⟨hnone, (Except.error.inj h).symm⟩
  · rename_i width height rest hsome
    refine Or.inr ⟨width, height, rest, hsome, ?_⟩
    cases hsides : ofSides width height with
    | ok r => simp [hsides, Except.map] at h
    | error e' =>
        rw [hsides] at h
        obtain rfl := Except.error.inj h
        exact sidesRefusal_of_ofSides hsides

end Value

namespace Clause

/-- The errors about the value of a filter.  A resolution has a lexical grammar like the others, but
where a value matches it the error is about the sides. -/
inductive ValueRefusal (value : Text) : Filter → ParseError → Prop where
  | quoted {f : Filter} {w : Text} {e : ParseError} (hf : f ≠ .resolution)
      (hw : Value.Quotes f.IsLexical value w) (he : f.complaint? w = some e) :
      ValueRefusal value f e
  | shapeless {w : Text} {e : ParseError}
      (hnone : ∀ v, v <+: value → ¬ Filter.resolution.IsLexical v) (hw : Value.IsRaw value w)
      (he : Filter.resolution.complaint? w = some e) : ValueRefusal value .resolution e
  | sides {width height : Text} {e : ParseError} (hw : Text.IsNatural width)
      (hh : Text.IsNatural height)
      (hfront : Text.IsLongestFront Filter.resolution.IsLexical value (width ++ 'x' :: height))
      (he : Value.SidesRefusal width height e) : ValueRefusal value .resolution e

theorem ofReading_eq_error {α : Type} {make : α → Clause} {reading : Value.Reading α}
    {fault : Fault} (h : ofReading make reading = .error fault) :
    ∃ e, reading = .error e ∧ fault = ⟨[], e⟩ := by
  unfold ofReading at h
  split at h
  · simp at h
  · rename_i e
    exact ⟨e, rfl, (Except.error.inj h).symm⟩

theorem valueRefusal_of_name {α : Type} {make : α → Clause} {isNameChar : Char → Bool}
    {ofName? : Text → Option α} {unknown : Text → ParseError} {f : Filter} {value : Text}
    {fault : Fault} (hf : f ≠ .resolution) (hlexical : f.IsLexical = Text.IsRun isNameChar)
    (hcomplaint : ∀ w, f.complaint? w = some (unknown w))
    (h : ofReading make (Value.name isNameChar ofName? unknown value) = .error fault) :
    ∃ e, ValueRefusal value f e ∧ fault = ⟨[], e⟩ := by
  obtain ⟨e, he, rfl⟩ := ofReading_eq_error h
  obtain ⟨w, hw, rfl⟩ := Value.quotes_of_name he
  exact ⟨_, .quoted hf (hlexical ▸ hw) (hcomplaint w), rfl⟩

theorem valueRefusal_of_number {make : Int → Clause} {numeral : Text → Text} {allowed : Range}
    {f : Filter} {value : Text} {fault : Fault} (hf : f ≠ .resolution)
    (hread : Text.TakesLongest numeral f.IsLexical)
    (hcomplaint : ∀ w, f.complaint? w = some (.invalidNumber f.name w))
    (h : ofReading make (Value.number f numeral allowed value) = .error fault) :
    ∃ e, ValueRefusal value f e ∧ fault = ⟨[], e⟩ := by
  obtain ⟨e, he, rfl⟩ := ofReading_eq_error h
  obtain ⟨w, hw, rfl⟩ := Value.quotes_of_number hread he
  exact ⟨_, .quoted hf hw (hcomplaint w), rfl⟩

theorem valueRefusal_of_resolution {make : Resolution → Clause} {value : Text} {fault : Fault}
    (h : ofReading make (Value.resolution value) = .error fault) :
    ∃ e, ValueRefusal value .resolution e ∧ fault = ⟨[], e⟩ := by
  obtain ⟨e, he, rfl⟩ := ofReading_eq_error h
  refine ⟨e, ?_, rfl⟩
  rcases Value.refusal_of_resolution he with ⟨hnone, rfl⟩ | ⟨width, height, rest, hsome, hsides⟩
  · exact .shapeless (Value.not_isLexical_of_sides? hnone) (Value.isRaw_raw value) rfl
  · obtain ⟨_, hw, hh, _⟩ := Value.sides?_eq_some_iff.1 hsome
    exact .sides hw hh (Value.isLongestFront_sides hsome) hsides

end Clause

/-- The filters whose values are track lists. -/
def Filter.IsTrackList (f : Filter) : Prop := f = .audioTracks ∨ f = .subtitleTracks

/-- What is wrong with a value that is no track list, and nothing is looked up before that shows. -/
theorem Clause.valueRefusal_of_scanValue {text value : Text} {f : Filter} {fault : Fault}
    (hf : ¬ f.IsTrackList) (h : scanValue text value f = .error fault) :
    ∃ e, ValueRefusal value f e ∧ fault = ⟨[], e⟩ := by
  cases f with
  | videoEncoder | container | audioEncoder | profile | bitDepth =>
      exact valueRefusal_of_name (by decide) rfl (fun _ => rfl) h
  | quantizer =>
      exact valueRefusal_of_number (by decide) Text.takesLongest_leadingInteger (fun _ => rfl) h
  | speed | grain | compat | audioBitrate =>
      exact valueRefusal_of_number (by decide) Text.takesLongest_leadingNatural (fun _ => rfl) h
  | resolution => exact valueRefusal_of_resolution h
  | audioTracks => exact absurd (Or.inl rfl) hf
  | audioNormalize => simp [scanValue] at h
  | subtitleTracks => exact absurd (Or.inr rfl) hf

/-! ### Track lists -/

namespace TrackRef

/-- An identifier is one of a list at the front of a text.  The list may be broken off after a
bar, but not within a reference. -/
def IsListed (value identifier : Text) : Prop :=
  ∃ written refs rest, value = written ++ rest ∧ DenotesList written refs ∧
    (∀ ref ∈ refs.getLast?, ref.EndsBefore rest) ∧ ∃ ref ∈ refs, ref.identifier = identifier

/-- The references that are read are a list, also where it is broken off after them. -/
theorem denotesList_of_scanList_ne_nil {s : Text} (h : (scanList s).1 ≠ []) :
    ∃ written rest, s = written ++ rest ∧ DenotesList written (scanList s).1 ∧
      ∀ ref ∈ (scanList s).1.getLast?, ref.EndsBefore rest := by
  fun_induction scanList s with
  | case1 => exact absurd rfl h
  | case2 s ref after hs more ih =>
      obtain ⟨written, rfl, href, _⟩ := denotes_of_scan hs
      by_cases hmore : more.1 = []
      · -- nothing is read after the bar, so the reference before it is the last one
        refine ⟨written, '|' :: after, rfl, ?_, ?_⟩
        · rw [hmore]
          exact .single href
        · intro last hlast
          obtain rfl : ref = last := by simpa [hmore] using hlast
          exact endsBefore_bar ref after
      · obtain ⟨tail, rest, rfl, htail, hlast⟩ := ih hmore
        refine ⟨written ++ '|' :: tail, rest, by simp, .cons href htail, ?_⟩
        rw [htail.getLast?_cons]
        exact hlast
  | case3 s ref after hbar hs =>
      obtain ⟨written, rfl, href, hend⟩ := denotes_of_scan hs
      refine ⟨written, after, rfl, .single href, ?_⟩
      intro last hlast
      obtain rfl : ref = last := by simpa using hlast
      exact hend

theorem isListed_of_mem_scanList {value : Text} {ref : TrackRef} (h : ref ∈ (scanList value).1) :
    IsListed value ref.identifier := by
  obtain ⟨written, rest, happend, hlist, hlast⟩ :=
    denotesList_of_scanList_ne_nil (List.ne_nil_of_mem h)
  exact ⟨written, (scanList value).1, rest, happend, hlist, hlast, ref, h, rfl⟩

end TrackRef

/-! ### Clauses that cannot be read -/

namespace Clause

/-- A text starts with a value of a filter that nothing continues. -/
def StartsValue (f : Filter) (text : Text) : Prop :=
  ∃ clause w rest, clause.filter = f ∧ text = w ++ rest ∧ ValueDenotes w clause ∧
    clause.StopsBefore rest

theorem not_startsValue_of_scanValue {text value : Text} {f : Filter} {fault : Fault}
    (h : scanValue text value f = .error fault) : ¬ StartsValue f value := by
  rintro ⟨clause, w, rest, hf, happend, hw, hstops⟩
  rw [scanValue_eq_ok_iff.2 ⟨hf, w, happend, hw, hstops⟩] at h
  exact absurd h (by simp)

/-- Why no clause can be read at the front of a text, and what is looked up before that shows. -/
inductive Unreadable : Text → Fault → Prop where
  | unkeyed {r : Text} (h : ∀ f : Filter, ∀ key ∈ f.keys, ¬ key <+: r) :
      Unreadable r ⟨[], .unrecognizedFilter r⟩
  | brokenList {f : Filter} {key value : Text} {pending : List TrackRef} (hf : f.IsTrackList)
      (hkey : key ∈ f.keys) (hbroken : ¬ StartsValue f value)
      (hlisted : ∀ ref ∈ pending, TrackRef.IsListed value ref.identifier) :
      Unreadable (key ++ value) ⟨pending, .unrecognizedFilter (key ++ value)⟩
  | value {f : Filter} {key value : Text} {e : ParseError} (hf : ¬ f.IsTrackList)
      (hkey : key ∈ f.keys) (hwrong : ¬ StartsValue f value) (hvalue : ValueRefusal value f e) :
      Unreadable (key ++ value) ⟨[], e⟩

/-- A text without a key at its front. -/
theorem not_prefix_of_keyed? {r : Text} (h : Filter.keyed? r = none) :
    ∀ f : Filter, ∀ key ∈ f.keys, ¬ key <+: r := by
  rintro f key hkey ⟨value, rfl⟩
  rw [Filter.keyed?_eq_some_iff.2 ⟨key, hkey, rfl⟩] at h
  exact absurd h (by simp)

/-- Before a track list turns out to be broken off, its references are looked up. -/
theorem unrecognized_of_tracks {make : List TrackRef → Clause} {text value : Text} {fault : Fault}
    (h : ofTracks make text (TrackRef.scanList value) = .error fault) :
    fault.error = .unrecognizedFilter text ∧
      ∀ ref ∈ fault.pending, TrackRef.IsListed value ref.identifier := by
  unfold ofTracks at h
  split at h
  · simp at h
  · obtain rfl := Except.error.inj h
    exact ⟨rfl, fun ref href => TrackRef.isListed_of_mem_scanList href⟩

/-- **Why a clause cannot be read.** -/
theorem unreadable_of_scan {r : Text} {fault : Fault} (h : scan r = .error fault) :
    Unreadable r fault := by
  unfold scan at h
  split at h
  · rename_i hnone
    obtain rfl := Except.error.inj h
    exact .unkeyed (not_prefix_of_keyed? hnone)
  · rename_i f value hkeyed
    obtain ⟨key, hkey, rfl⟩ := Filter.keyed?_eq_some_iff.1 hkeyed
    have hwrong := not_startsValue_of_scanValue h
    by_cases hf : f.IsTrackList
    · obtain ⟨pending, e⟩ := fault
      have htracks : e = .unrecognizedFilter (key ++ value) ∧
          ∀ ref ∈ pending, TrackRef.IsListed value ref.identifier := by
        rcases hf with rfl | rfl <;> exact unrecognized_of_tracks h
      obtain ⟨rfl, hlisted⟩ := htracks
      exact .brokenList hf hkey hwrong hlisted
    · obtain ⟨e, hvalue, rfl⟩ := valueRefusal_of_scanValue hf h
      exact .value hf hkey hwrong hvalue

/-! ### Clauses that are refused -/

/-- An identifier is one of a track list in the clause at the front of a text. -/
def HasListed (s identifier : Text) : Prop :=
  ∃ f : Filter, ∃ key ∈ f.keys, ∃ value, s = key ++ value ∧ f.IsTrackList ∧
    TrackRef.IsListed value identifier

/-- The errors about the clause at the front of a text: why it cannot be read, or that a track of
its list is missing. -/
inductive Refusal (source : Text) (fs : FileSystem) (r : Text) : ParseError → Prop where
  | unreadable {fault : Fault} (h : Unreadable r fault) : Refusal source fs r fault.error
  | missing {identifier : Text} (hlisted : HasListed r identifier)
      (hmissing : TrackSource.Missing source fs identifier) :
      Refusal source fs r (.missing source identifier)

variable {source : Text} {fs : FileSystem} {e : ParseError}

/-- A fault is raised because a track before it is not found, or for its own error. -/
theorem refuses_raise {α : Type} {fault : Fault}
    (h : (fault.raise source : Attempt α).Refuses fs e) :
    (∃ ref ∈ fault.pending,
        TrackSource.Missing source fs ref.identifier ∧ e = .missing source ref.identifier) ∨
      fault.error = e := by
  rcases Attempt.refuses_bind.1 h with hpending | ⟨_, _, hthrow⟩
  · obtain ⟨ref, href, hfind⟩ := Attempt.exists_refuses_of_mapM hpending
    exact Or.inl ⟨ref, href, TrackRef.refuses_find_iff.1 hfind⟩
  · exact Or.inr (Attempt.refuses_throw.1 hthrow)

/-- What is looked up before a fault shows is of a track list. -/
theorem Unreadable.hasListed {r : Text} {fault : Fault} {ref : TrackRef} (h : Unreadable r fault)
    (href : ref ∈ fault.pending) : HasListed r ref.identifier := by
  cases h with
  | unkeyed | value => exact absurd href (by simp)
  | @brokenList f key value _ hf hkey _ hlisted =>
      exact ⟨f, key, hkey, value, rfl, hf, hlisted ref href⟩

/-- The tracks of a clause that can be read are of a track list. -/
theorem hasListed_of_mem_tracks {s rest : Text} {clause : Clause} {ref : TrackRef}
    (hscan : scan s = .ok (clause, rest)) (href : ref ∈ clause.tracks) :
    HasListed s ref.identifier := by
  obtain ⟨_, rfl, ⟨key, hkey, value, rfl, hvalue⟩, hstops⟩ := scan_eq_ok_iff.1 hscan
  refine ⟨clause.filter, key, hkey, value ++ rest, List.append_assoc key value rest, ?_⟩
  cases hvalue with
  | audioTracks hlist =>
      exact ⟨Or.inl rfl, value, _, rest, rfl, hlist,
        fun last hlast => (TrackRef.stopsBefore_iff.1 (hstops last hlast)).2, ref, href, rfl⟩
  | subtitleTracks hlist =>
      exact ⟨Or.inr rfl, value, _, rest, rfl, hlist,
        fun last hlast => (TrackRef.stopsBefore_iff.1 (hstops last hlast)).2, ref, href, rfl⟩
  | _ => exact absurd href (by simp [Setting.tracks])

/-- **Why a clause is refused.**  In every file system the error about the clause at the front of a
text is one of those that belong to the text. -/
theorem refusal_of_refuses_parse {r : Text} (h : (parse source r).Refuses fs e) :
    Refusal source fs r e := by
  unfold parse at h
  split at h
  · rename_i fault hscan
    have hunreadable := unreadable_of_scan hscan
    rcases refuses_raise h with ⟨ref, href, hmissing, rfl⟩ | rfl
    · exact .missing (hunreadable.hasListed href) hmissing
    · exact .unreadable hunreadable
  · rename_i clause rest hscan
    rcases Attempt.refuses_bind.1 h with hfind | ⟨_, _, hend⟩
    · obtain ⟨ref, href, hmissing, rfl⟩ := exists_refuses_of_find hfind
      exact .missing (hasListed_of_mem_tracks hscan href) hmissing
    · exact absurd hend Attempt.refuses_pure

end Clause

end Transcode

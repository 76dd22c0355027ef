/-
**Reading a clause does not look past a separator.**

A comma or a white space character belongs to no key, no value and no reference, and it ends what
an error quotes of a value.  So when a text goes on with one, the clause at its front is read as
before: the same setting or the same fault, where the only thing that grows is what is left over,
or what is left unrecognized.  This holds for every reader on the way, including lists that are
broken off after a bar or a dash.

Main definitions:

* `Transcode.Segment.IsBoundary` — a text begins with a separator, or is empty;
* `Transcode.ParseError.followedBy`, `Transcode.Fault.followedBy` — an error, and a fault, of a
  text that goes on;
* `Transcode.Clause.readingFollowedBy` — what reading gives for a text that goes on.

Main results:

* `Transcode.Value.name_append`, `Transcode.Value.number_append`,
  `Transcode.Value.resolution_append`, `Transcode.TrackRef.scanList_append` — the readers of values;
* `Transcode.Clause.scan_append` — **reading a clause does not look past a separator**.
-/

import Transcode.Proofs.Clause.Characters

set_option relaxedAutoImplicit false
set_option autoImplicit false

namespace Transcode

/-! ### Separators -/

namespace Segment

/-- A text that begins with a separator, or is empty. -/
def IsBoundary (t : Text) : Prop := ∀ c ∈ t.head?, isSeparator c = true

@[simp] theorem isBoundary_cons {c : Char} {t : Text} :
    IsBoundary (c :: t) ↔ isSeparator c = true := by simp [IsBoundary]

/-- A boundary ends every run of a class that holds no separator. -/
theorem IsBoundary.stops {t : Text} (ht : IsBoundary t) {p : Char → Bool}
    (hp : ∀ c, p c = true → isSeparator c = false) : Text.Stops p t := by
  intro c hc
  have hsep := ht c hc
  cases hpc : p c with
  | false => rfl
  | true => exact absurd hsep (by simp [hp c hpc])

/-- A boundary begins with no character that is not a separator. -/
theorem IsBoundary.head?_ne {t : Text} (ht : IsBoundary t) {c : Char}
    (hc : isSeparator c = false) : t.head? ≠ some c := by
  intro h
  have hsep := ht c h
  exact absurd hsep (by simp [hc])

/-- What follows a text in front of a boundary begins as the text does, or is the boundary. -/
theorem IsBoundary.stops_append {s t : Text} (ht : IsBoundary t) {p : Char → Bool}
    (hp : ∀ c, p c = true → isSeparator c = false) (hs : Text.Stops p s) :
    Text.Stops p (s ++ t) := by
  cases s with
  | nil => exact ht.stops hp
  | cons c s => exact hs

end Segment

namespace Text

/-! ### Longest runs -/

theorem takeWhile_append_of_stops_right {p : Char → Bool} {t : Text} (ht : Stops p t) (s : Text) :
    (s ++ t).takeWhile p = s.takeWhile p := by
  induction s with
  | nil =>
      cases t with
      | nil => rfl
      | cons c t => simp [stops_cons.1 ht]
  | cons c s ih =>
      by_cases hc : p c = true
      · simp [hc, ih]
      · simp [hc]

theorem dropWhile_append_of_stops_right {p : Char → Bool} {t : Text} (ht : Stops p t) (s : Text) :
    (s ++ t).dropWhile p = s.dropWhile p ++ t := by
  induction s with
  | nil =>
      cases t with
      | nil => rfl
      | cons c t => simp [stops_cons.1 ht]
  | cons c s ih =>
      by_cases hc : p c = true
      · simp [hc, ih]
      · simp [hc]

end Text

/-! ### Errors of a text that goes on -/

/-- An error of a text that goes on.  What is left unrecognized goes on with it; anything else an
error quotes is of the text itself. -/
def ParseError.followedBy (t : Text) : ParseError → ParseError
  | unrecognizedFilter remainder => unrecognizedFilter (remainder ++ t)
  | e => e

/-- A fault of a text that goes on.  The references before it stay those of the text. -/
def Fault.followedBy (t : Text) (fault : Fault) : Fault :=
  ⟨fault.pending, fault.error.followedBy t⟩

/-- What a reader of values gives for a text that goes on: the rest goes on. -/
def Value.readingFollowedBy {α : Type} (t : Text) (reading : Reading α) : Reading α :=
  reading.map fun r => (r.1, r.2 ++ t)

/-- What reading a clause gives for a text that goes on: the rest goes on, or the fault does. -/
def Clause.readingFollowedBy (t : Text) :
    Except Fault (Clause × Text) → Except Fault (Clause × Text)
  | .ok (clause, rest) => .ok (clause, rest ++ t)
  | .error fault => .error (fault.followedBy t)

/-! ### Values -/

namespace Value

open Segment

variable {t : Text}

/-- What an error quotes of a value ends at a separator. -/
theorem raw_append (ht : IsBoundary t) (s : Text) : raw (s ++ t) = raw s := by
  refine Text.takeWhile_append_of_stops_right (ht.stops ?_) s
  intro c hc
  simp only [endsRaw, Bool.not_eq_true', Bool.or_eq_false_iff] at hc
  simp only [isSeparator, hc.1.1.1, hc.2, Bool.or_false]

theorem name_append {α : Type} {isNameChar : Char → Bool} {ofName? : Text → Option α}
    {unknown : Text → ParseError} (hname : ∀ c, isNameChar c = true → isSeparator c = false)
    (ht : IsBoundary t) (s : Text) :
    name isNameChar ofName? unknown (s ++ t) =
      readingFollowedBy t (name isNameChar ofName? unknown s) := by
  have hstops := ht.stops hname
  have htake := Text.takeWhile_append_of_stops_right hstops s
  unfold name quoted
  rw [htake, Text.dropWhile_append_of_stops_right hstops, raw_append ht]
  cases ofName? (s.takeWhile isNameChar) <;> rfl

theorem error_of_name {α : Type} {isNameChar : Char → Bool} {ofName? : Text → Option α}
    {unknown : Text → ParseError} {s : Text} {e : ParseError}
    (h : name isNameChar ofName? unknown s = .error e) : e = unknown (quoted isNameChar s) := by
  unfold name at h
  split at h
  · simp at h
  · exact (Except.error.inj h).symm

theorem leadingNatural_append (ht : IsBoundary t) (s : Text) :
    Text.leadingNatural (s ++ t) = Text.leadingNatural s :=
  Text.takeWhile_append_of_stops_right (ht.stops isSeparator_of_isDigit) s

theorem leadingInteger_append (ht : IsBoundary t) (s : Text) :
    Text.leadingInteger (s ++ t) = Text.leadingInteger s := by
  cases s with
  | nil =>
      have hminus : ∀ rest, t ≠ '-' :: rest := by
        rintro rest rfl
        exact ht.head?_ne (c := '-') (by decide) rfl
      rw [List.nil_append, Text.leadingInteger_of_ne hminus]
      exact leadingNatural_append ht []
  | cons c s =>
      by_cases hc : c = '-'
      · subst hc
        rw [List.cons_append, Text.leadingInteger, Text.leadingInteger, leadingNatural_append ht]
      · have hs : ∀ rest, c :: s ≠ '-' :: rest := fun rest h => hc (List.cons.inj h).1
        have hst : ∀ rest, c :: s ++ t ≠ '-' :: rest := fun rest h => hc (List.cons.inj h).1
        rw [Text.leadingInteger_of_ne hs, Text.leadingInteger_of_ne hst, leadingNatural_append ht]

theorem number_append {filter : Filter} {numeral : Text → Text} {IsNumeral : Text → Prop}
    {allowed : Range} (hread : Text.ReadsLongest numeral IsNumeral)
    (hnumeral : ∀ s, numeral (s ++ t) = numeral s) (ht : IsBoundary t) (s : Text) :
    number filter numeral allowed (s ++ t) =
      readingFollowedBy t (number filter numeral allowed s) := by
  unfold number
  rw [hnumeral, raw_append ht]
  split
  · rfl
  · rename_i hsome
    obtain ⟨_, rest, hrest, _⟩ := hread.sound hsome
    have hle : (numeral s).length ≤ s.length := by
      conv_rhs => rw [hrest]
      simp
    rw [List.drop_append_of_le_length hle]
    split <;> rfl

theorem error_of_number {filter : Filter} {numeral : Text → Text} {allowed : Range} {s : Text}
    {e : ParseError} (h : number filter numeral allowed s = .error e) :
    ∃ literal, e = .invalidNumber filter.name literal := by
  unfold number at h
  split at h
  · exact ⟨_, (Except.error.inj h).symm⟩
  · split at h
    · simp at h
    · exact ⟨_, (Except.error.inj h).symm⟩

theorem sides?_append_boundary (ht : IsBoundary t) (s : Text) :
    sides? (s ++ t) = (sides? s).map fun r => (r.1, r.2.1, r.2.2 ++ t) := by
  have hdrop := Text.dropWhile_append_of_stops_right (ht.stops isSeparator_of_isDigit)
  unfold sides?
  rw [leadingNatural_append ht, hdrop]
  cases Text.leadingNatural s with
  | nil => rfl
  | cons c width =>
      cases s.dropWhile Char.isDigit with
      | nil =>
          -- a width without more: the boundary does not begin with the letter between the sides
          cases t with
          | nil => rfl
          | cons d t =>
              have hd : d ≠ 'x' := by
                rintro rfl
                exact ht.head?_ne (by decide) rfl
              simp [hd]
      | cons d rest =>
          by_cases hd : d = 'x'
          · subst hd
            simp only [List.cons_append, leadingNatural_append ht, hdrop]
            split <;> rfl
          · simp [hd]

theorem error_of_side {numeral : Text} {e : ParseError} (h : side numeral = .error e) :
    e = .invalidNumber Filter.resolution.name numeral := by
  unfold side at h
  split at h
  · simp at h
  · exact (Except.error.inj h).symm

theorem error_of_check {r : Resolution} {written : Text} {e : ParseError}
    (h : check r written = .error e) :
    ∃ n wording, e = .outOfRange Filter.resolution.name n Range.side wording := by
  unfold check at h
  split at h
  · exact ⟨_, _, (Except.error.inj h).symm⟩
  · split at h
    · exact ⟨_, _, (Except.error.inj h).symm⟩
    · simp at h

theorem error_of_ofSides {width height : Text} {e : ParseError}
    (h : ofSides width height = .error e) :
    (∃ literal, e = .invalidNumber Filter.resolution.name literal) ∨
      ∃ n wording, e = .outOfRange Filter.resolution.name n Range.side wording := by
  unfold ofSides at h
  cases hw : side width with
  | error e' =>
      rw [hw] at h
      obtain rfl : e' = e := Except.error.inj h
      exact Or.inl ⟨_, error_of_side hw⟩
  | ok w =>
      cases hh : side height with
      | error e' =>
          rw [hw, hh] at h
          obtain rfl : e' = e := Except.error.inj h
          exact Or.inl ⟨_, error_of_side hh⟩
      | ok v =>
          rw [hw, hh] at h
          exact Or.inr (error_of_check h)

theorem error_of_resolution {s : Text} {e : ParseError} (h : resolution s = .error e) :
    (∃ literal, e = .invalidNumber Filter.resolution.name literal) ∨
      ∃ n wording, e = .outOfRange Filter.resolution.name n Range.side wording := by
  unfold resolution at h
  split at h
  · exact Or.inl ⟨_, (Except.error.inj h).symm⟩
  · rename_i width height rest _
    cases hsides : ofSides width height with
    | ok r => simp [hsides, Except.map] at h
    | error e' =>
        rw [hsides] at h
        rw [← Except.error.inj h]
        exact error_of_ofSides hsides

theorem resolution_append (ht : IsBoundary t) (s : Text) :
    resolution (s ++ t) = readingFollowedBy t (resolution s) := by
  unfold resolution
  rw [sides?_append_boundary ht, raw_append ht]
  cases sides? s with
  | none => rfl
  | some sides =>
      obtain ⟨width, height, rest⟩ := sides
      simp only [Option.map_some]
      cases ofSides width height <;> rfl

end Value

/-! ### References -/

namespace TrackRef

open Segment

variable {t : Text}

/-- A boundary does not continue an identifier, and neither does a text that does not continue it
and goes on with a boundary. -/
theorem stopsBefore_append {s : Text} (hs : Identifier.StopsBefore s) (ht : IsBoundary t) :
    Identifier.StopsBefore (s ++ t) := by
  refine ⟨ht.stops_append isSeparator_of_isAlphanum hs.1, ?_⟩
  intro tail htail
  cases s with
  | nil =>
      rw [List.nil_append] at htail
      exact absurd (congrArg List.head? htail) (ht.head?_ne (by decide))
  | cons c s =>
      obtain ⟨rfl, rfl⟩ := List.cons.inj htail
      exact ht.stops_append isSeparator_of_isAlphanum (hs.2 s rfl)

theorem leading?_append_boundary (ht : IsBoundary t) (s : Text) :
    Identifier.leading? (s ++ t) = (Identifier.leading? s).map fun r => (r.1, r.2 ++ t) := by
  cases hread : Identifier.leading? s with
  | some r =>
      obtain ⟨rfl, hid, hstops⟩ := Identifier.leading?_eq_some_iff.1 hread
      rw [Option.map_some, List.append_assoc]
      exact Identifier.leading?_eq_some_iff.2 ⟨rfl, hid, stopsBefore_append hstops ht⟩
  | none =>
      cases s with
      | nil =>
          cases t with
          | nil => rfl
          | cons c t =>
              have hc : c.isAlphanum = false := ht.stops isSeparator_of_isAlphanum c rfl
              simp [Identifier.leading?, hc]
      | cons c s =>
          have hc : ¬ c.isAlphanum = true := by
            intro hc
            simp [Identifier.leading?, hc] at hread
          simp [Identifier.leading?, hc]

theorem scanTags_append (ht : IsBoundary t) (s : Text) :
    scanTags (s ++ t) = ((scanTags s).1, (scanTags s).2 ++ t) := by
  rcases scanTags_cases s with ⟨hnone, hrest, hdash⟩ | ⟨⟨hsome, halpha⟩, hs, hstops⟩
  · rw [hnone, hrest]
    refine scanTags_of_stops ?_
    intro tail htail
    cases s with
    | nil =>
        rw [List.nil_append] at htail
        exact absurd (congrArg List.head? htail) (ht.head?_ne (by decide))
    | cons c s =>
        obtain ⟨rfl, rfl⟩ := List.cons.inj htail
        exact ht.stops_append isSeparator_of_isAlpha (hdash s rfl)
  · have hread := scanTags_dash hsome halpha (ht.stops_append isSeparator_of_isAlpha hstops)
    rw [← List.append_assoc, ← List.cons_append, ← hs] at hread
    exact hread

theorem scan?_append (ht : IsBoundary t) (s : Text) :
    scan? (s ++ t) = (scan? s).map fun r => (r.1, r.2 ++ t) := by
  unfold scan?
  rw [leading?_append_boundary ht]
  cases Identifier.leading? s with
  | none => rfl
  | some r =>
      obtain ⟨identifier, rest⟩ := r
      simp only [Option.map_some, scanTags_append ht]
      split <;> rfl

/-- A list of references is read as before, up to where it is broken off. -/
theorem scanList_append (ht : IsBoundary t) (s : Text) :
    scanList (s ++ t) = ((scanList s).1, (scanList s).2.map (· ++ t)) := by
  fun_induction scanList s with
  | case1 s hs =>
      have hst : scan? (s ++ t) = none := by rw [scan?_append ht, hs]; rfl
      rw [scanList_of_none hst]
      rfl
  | case2 s ref rest hs more ih =>
      have hst : scan? (s ++ t) = some (ref, '|' :: (rest ++ t)) := by rw [scan?_append ht, hs]; rfl
      rw [scanList_of_bar hst, ih]
  | case3 s ref rest hbar hs =>
      have hst : scan? (s ++ t) = some (ref, rest ++ t) := by rw [scan?_append ht, hs]; rfl
      refine scanList_of_end hst ?_
      cases rest with
      | nil => exact ht.head?_ne (by decide)
      | cons c rest =>
          intro hc
          exact hbar rest (by rw [Option.some.inj hc])

end TrackRef

/-! ### Clauses -/

namespace Clause

open Segment

variable {t : Text}

/-- A reader of values whose errors leave nothing unrecognized makes a reader of clauses. -/
theorem ofReading_followedBy {α : Type} {make : α → Clause} {reading : Value.Reading α}
    (herror : ∀ e, reading = .error e → e.followedBy t = e) :
    ofReading make (Value.readingFollowedBy t reading) =
      readingFollowedBy t (ofReading make reading) := by
  cases reading with
  | ok r => rfl
  | error e =>
      simp only [Value.readingFollowedBy, Except.map, ofReading, readingFollowedBy,
        Fault.followedBy, herror e rfl]

theorem ofReading_name_append {α : Type} {make : α → Clause} {isNameChar : Char → Bool}
    {ofName? : Text → Option α} {unknown : Text → ParseError}
    (hname : ∀ c, isNameChar c = true → isSeparator c = false)
    (hunknown : ∀ w, (unknown w).followedBy t = unknown w) (ht : IsBoundary t) (s : Text) :
    ofReading make (Value.name isNameChar ofName? unknown (s ++ t)) =
      readingFollowedBy t (ofReading make (Value.name isNameChar ofName? unknown s)) := by
  rw [Value.name_append hname ht, ofReading_followedBy]
  intro e he
  rw [Value.error_of_name he, hunknown]

theorem ofReading_number_append {make : Int → Clause} {filter : Filter} {numeral : Text → Text}
    {IsNumeral : Text → Prop} {allowed : Range} (hread : Text.ReadsLongest numeral IsNumeral)
    (hnumeral : ∀ s, numeral (s ++ t) = numeral s) (ht : IsBoundary t) (s : Text) :
    ofReading make (Value.number filter numeral allowed (s ++ t)) =
      readingFollowedBy t (ofReading make (Value.number filter numeral allowed s)) := by
  rw [Value.number_append hread hnumeral ht, ofReading_followedBy]
  intro e he
  obtain ⟨literal, rfl⟩ := Value.error_of_number he
  rfl

theorem ofReading_resolution_append {make : Resolution → Clause} (ht : IsBoundary t) (s : Text) :
    ofReading make (Value.resolution (s ++ t)) =
      readingFollowedBy t (ofReading make (Value.resolution s)) := by
  rw [Value.resolution_append ht, ofReading_followedBy]
  intro e he
  rcases Value.error_of_resolution he with ⟨literal, rfl⟩ | ⟨n, wording, rfl⟩ <;> rfl

theorem ofTracks_scanList_append (make : List TrackRef → Clause) (text : Text) (ht : IsBoundary t)
    (s : Text) :
    ofTracks make (text ++ t) (TrackRef.scanList (s ++ t)) =
      readingFollowedBy t (ofTracks make text (TrackRef.scanList s)) := by
  rw [TrackRef.scanList_append ht]
  unfold ofTracks
  cases (TrackRef.scanList s).2 <;> rfl

/-- A text starts with the key that it starts with when it goes on. -/
theorem keyed?_append (ht : IsBoundary t) (s : Text) :
    Filter.keyed? (s ++ t) = (Filter.keyed? s).map fun r => (r.1, r.2 ++ t) := by
  cases hs : Filter.keyed? s with
  | some r =>
      obtain ⟨key, hkey, rfl⟩ := Filter.keyed?_eq_some_iff.1 hs
      exact Filter.keyed?_eq_some_iff.2 ⟨key, hkey, List.append_assoc key r.2 t⟩
  | none =>
      cases hst : Filter.keyed? (s ++ t) with
      | none => rfl
      | some r =>
          -- a key that reaches into the boundary would hold a separator
          obtain ⟨key, hkey, happend⟩ := Filter.keyed?_eq_some_iff.1 hst
          rcases List.append_eq_append_iff.1 happend with ⟨beyond, rfl, rfl⟩ | ⟨value, rfl, _⟩
          · cases beyond with
            | nil =>
                have hread := Filter.keyed?_eq_some_iff.2 ⟨s ++ [], hkey, (List.append_nil _).symm⟩
                rw [List.append_nil, hs] at hread
                exact absurd hread (by simp)
            | cons c beyond =>
                have hc := (not_separator_of_isWritten (isWritten_of_mem_key hkey c (by simp))).1
                exact absurd (ht c rfl) (by simp [hc])
          · have hread : Filter.keyed? (key ++ value) = some (r.1, value) :=
              Filter.keyed?_eq_some_iff.2 ⟨key, hkey, rfl⟩
            rw [hs] at hread
            exact absurd hread (by simp)

theorem scanValue_append (ht : IsBoundary t) (text value : Text) (filter : Filter) :
    scanValue (text ++ t) (value ++ t) filter =
      readingFollowedBy t (scanValue text value filter) := by
  have hnatural := Value.leadingNatural_append ht
  cases filter with
  | videoEncoder | container | audioEncoder =>
      exact ofReading_name_append isSeparator_of_isAlphanum (fun _ => rfl) ht value
  | profile => exact ofReading_name_append isSeparator_of_isAlpha (fun _ => rfl) ht value
  | bitDepth => exact ofReading_name_append isSeparator_of_isDigit (fun _ => rfl) ht value
  | quantizer =>
      exact ofReading_number_append Text.readsLongest_leadingInteger
        (Value.leadingInteger_append ht) ht value
  | speed | grain | compat | audioBitrate =>
      exact ofReading_number_append Text.readsLongest_leadingNatural hnatural ht value
  | resolution => exact ofReading_resolution_append ht value
  | audioTracks | subtitleTracks => exact ofTracks_scanList_append _ text ht value
  | audioNormalize => rfl

/-- **Reading a clause does not look past a separator.** -/
theorem scan_append (ht : IsBoundary t) (s : Text) :
    scan (s ++ t) = readingFollowedBy t (scan s) := by
  unfold scan
  rw [keyed?_append ht]
  cases Filter.keyed? s with
  | none => rfl
  | some r => exact scanValue_append ht s r.2 r.1

end Clause

end Transcode

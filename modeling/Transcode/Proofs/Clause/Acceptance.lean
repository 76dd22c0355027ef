/-
**The reader of clauses accepts exactly the clause grammar.**

A clause is read by the key it starts with and by a reader for the value of that key's filter.  The
grammar says what each filter's values are written as and which texts continue them, without
reading.  This module proves that the two agree in both directions, first for the readers of
values, then for clauses as they are written, and then for clauses with their tracks looked up: a
text is read as a setting and a rest exactly when it is a clause that stands for the setting and a
rest that does not continue the clause.

Main results:

* `Transcode.Clause.scanValue_eq_ok_iff` — exactly the values of a filter;
* `Transcode.Clause.scan_eq_ok_iff` — exactly the clauses as they are written;
* `Transcode.Clause.yields_parse_iff` — **exactly the clauses with the tracks they stand for**.
-/

import Transcode.Proofs.Clause.Value
import Transcode.Proofs.Track.Found
import Transcode.Proofs.Track.Reference

set_option relaxedAutoImplicit false
set_option autoImplicit false

namespace Transcode

/-! ### What names are made of -/

theorem VideoEncoder.isAlphanum_of_mem_name (e : VideoEncoder) :
    ∀ c ∈ e.name, c.isAlphanum = true := by
  have hall : e.name.all Char.isAlphanum = true := by cases e <;> decide
  exact List.all_eq_true.1 hall

theorem AudioEncoder.isAlphanum_of_mem_name (e : AudioEncoder) :
    ∀ c ∈ e.name, c.isAlphanum = true := by
  have hall : e.name.all Char.isAlphanum = true := by cases e <;> decide
  exact List.all_eq_true.1 hall

theorem Container.isAlphanum_of_mem_name (c : Container) :
    ∀ d ∈ c.name, d.isAlphanum = true := by
  have hall : c.name.all Char.isAlphanum = true := by cases c <;> decide
  exact List.all_eq_true.1 hall

theorem BitDepth.isDigit_of_mem_name (d : BitDepth) : ∀ c ∈ d.name, c.isDigit = true :=
  fun _ => Text.isDigit_of_mem_ofNat

namespace Clause

/-! ### Values -/

theorem ofReading_eq_ok_iff {α : Type} {make : α → Clause} {reading : Value.Reading α}
    {clause : Clause} {rest : Text} :
    ofReading make reading = .ok (clause, rest) ↔
      ∃ a, reading = .ok (a, rest) ∧ clause = make a := by
  constructor
  · exact ofReading_eq_ok
  · rintro ⟨a, rfl, rfl⟩
    rfl

theorem ofTracks_eq_ok_iff {make : List TrackRef → Clause} {text : Text}
    {list : List TrackRef × Option Text} {clause : Clause} {rest : Text} :
    ofTracks make text list = .ok (clause, rest) ↔
      ∃ refs, list = (refs, some rest) ∧ clause = make refs := by
  constructor
  · intro h
    obtain ⟨hrest, rfl⟩ := ofTracks_eq_ok h
    exact ⟨list.1, Prod.ext rfl hrest, rfl⟩
  · rintro ⟨refs, rfl, rfl⟩
    rfl

/-- What the reader of a filter makes of a text is a setting of that filter, and the text is what
the setting is written as and a rest that does not continue it. -/
theorem denotes_of_scanValue {text value rest : Text} {filter : Filter} {clause : Clause}
    (h : scanValue text value filter = .ok (clause, rest)) :
    clause.filter = filter ∧
      ∃ w, value = w ++ rest ∧ ValueDenotes w clause ∧ clause.StopsBefore rest := by
  cases filter with
  | videoEncoder =>
      obtain ⟨e, he, rfl⟩ := ofReading_eq_ok h
      obtain ⟨w, rfl, _, hname, hstops⟩ := Value.name_eq_ok_iff.1 he
      obtain rfl := VideoEncoder.ofName?_eq_some_iff.1 hname
      exact ⟨rfl, _, rfl, .videoEncoder e, hstops⟩
  | quantizer =>
      obtain ⟨n, hn, rfl⟩ := ofReading_eq_ok h
      obtain ⟨w, rfl, hw, hrange, rfl, hstops⟩ :=
        (Value.number_eq_ok_iff Text.readsLongest_leadingInteger Text.IsInteger.ne_nil).1 hn
      exact ⟨rfl, w, rfl, .quantizer hw hrange, hstops⟩
  | speed =>
      obtain ⟨n, hn, rfl⟩ := ofReading_eq_ok h
      obtain ⟨w, rfl, hw, hrange, rfl, hstops⟩ := Value.number_natural_eq_ok_iff.1 hn
      exact ⟨rfl, w, rfl, .speed hw hrange, hstops⟩
  | profile =>
      obtain ⟨p, hp, rfl⟩ := ofReading_eq_ok h
      obtain ⟨w, rfl, hall, hname, hstops⟩ := Value.name_eq_ok_iff.1 hp
      exact ⟨rfl, w, rfl, .profile hall (Profile.ofName?_eq_some_iff.1 hname), hstops⟩
  | grain =>
      obtain ⟨n, hn, rfl⟩ := ofReading_eq_ok h
      obtain ⟨w, rfl, hw, hrange, rfl, hstops⟩ := Value.number_natural_eq_ok_iff.1 hn
      exact ⟨rfl, w, rfl, .grain hw hrange, hstops⟩
  | compat =>
      obtain ⟨n, hn, rfl⟩ := ofReading_eq_ok h
      obtain ⟨w, rfl, hw, hrange, rfl, hstops⟩ := Value.number_natural_eq_ok_iff.1 hn
      -- the flag is the sign of an integer for the reader, and of a natural number for the grammar
      have hpositive : decide ((0 : Int) < Text.natural w) = decide (0 < Text.natural w) := by simp
      rw [hpositive]
      exact ⟨rfl, w, rfl, .compat hw hrange, hstops⟩
  | container =>
      obtain ⟨c, hc, rfl⟩ := ofReading_eq_ok h
      obtain ⟨w, rfl, _, hname, hstops⟩ := Value.name_eq_ok_iff.1 hc
      obtain rfl := Container.ofName?_eq_some_iff.1 hname
      exact ⟨rfl, _, rfl, .container c, hstops⟩
  | bitDepth =>
      obtain ⟨d, hd, rfl⟩ := ofReading_eq_ok h
      obtain ⟨w, rfl, _, hname, hstops⟩ := Value.name_eq_ok_iff.1 hd
      obtain rfl := BitDepth.ofName?_eq_some_iff.1 hname
      exact ⟨rfl, _, rfl, .bitDepth d, hstops⟩
  | resolution =>
      obtain ⟨r, hr, rfl⟩ := ofReading_eq_ok h
      obtain ⟨width, height, rfl, hw, hh, rfl, henc, hstops⟩ := Value.resolution_eq_ok_iff.1 hr
      exact ⟨rfl, _, rfl, .resolution hw hh henc, hstops⟩
  | audioEncoder =>
      obtain ⟨e, he, rfl⟩ := ofReading_eq_ok h
      obtain ⟨w, rfl, _, hname, hstops⟩ := Value.name_eq_ok_iff.1 he
      obtain rfl := AudioEncoder.ofName?_eq_some_iff.1 hname
      exact ⟨rfl, _, rfl, .audioEncoder e, hstops⟩
  | audioBitrate =>
      obtain ⟨n, hn, rfl⟩ := ofReading_eq_ok h
      obtain ⟨w, rfl, hw, hrange, rfl, hstops⟩ := Value.number_natural_eq_ok_iff.1 hn
      exact ⟨rfl, w, rfl, .audioBitrate hw hrange, hstops⟩
  | audioTracks =>
      obtain ⟨refs, hrefs, rfl⟩ := ofTracks_eq_ok_iff.1 h
      obtain ⟨w, rfl, hw, hstops⟩ := TrackRef.scanList_eq_some_iff.1 hrefs
      exact ⟨rfl, w, rfl, .audioTracks hw, hstops⟩
  | audioNormalize =>
      obtain ⟨rfl, rfl⟩ := Prod.mk.inj (Except.ok.inj h)
      exact ⟨rfl, [], rfl, .audioNormalize, trivial⟩
  | subtitleTracks =>
      obtain ⟨refs, hrefs, rfl⟩ := ofTracks_eq_ok_iff.1 h
      obtain ⟨w, rfl, hw, hstops⟩ := TrackRef.scanList_eq_some_iff.1 hrefs
      exact ⟨rfl, w, rfl, .subtitleTracks hw, hstops⟩

/-- What a setting is written as, in front of a text that does not continue it, is read back by the
reader of its filter. -/
theorem ValueDenotes.scanValue {w rest : Text} {clause : Clause} (h : ValueDenotes w clause)
    (hstops : clause.StopsBefore rest) (text : Text) :
    Clause.scanValue text (w ++ rest) clause.filter = .ok (clause, rest) := by
  cases h with
  | videoEncoder e =>
      exact ofReading_eq_ok_iff.2 ⟨e, Value.name_eq_ok_iff.2
        ⟨_, rfl, e.isAlphanum_of_mem_name, VideoEncoder.ofName?_name e, hstops⟩, rfl⟩
  | quantizer hw hr =>
      exact ofReading_eq_ok_iff.2 ⟨_, (Value.number_eq_ok_iff Text.readsLongest_leadingInteger
        Text.IsInteger.ne_nil).2 ⟨w, rfl, hw, hr, rfl, hstops⟩, rfl⟩
  | speed hw hr =>
      exact ofReading_eq_ok_iff.2 ⟨_, Value.number_natural_eq_ok_iff.2
        ⟨w, rfl, hw, hr, rfl, hstops⟩, rfl⟩
  | profile hall hp =>
      exact ofReading_eq_ok_iff.2 ⟨_, Value.name_eq_ok_iff.2
        ⟨_, rfl, hall, Profile.ofName?_eq_some_iff.2 hp, hstops⟩, rfl⟩
  | grain hw hr =>
      exact ofReading_eq_ok_iff.2 ⟨_, Value.number_natural_eq_ok_iff.2
        ⟨w, rfl, hw, hr, rfl, hstops⟩, rfl⟩
  | compat hw hr =>
      refine ofReading_eq_ok_iff.2 ⟨_, Value.number_natural_eq_ok_iff.2
        ⟨w, rfl, hw, hr, rfl, hstops⟩, ?_⟩
      simp
  | container c =>
      exact ofReading_eq_ok_iff.2 ⟨c, Value.name_eq_ok_iff.2
        ⟨_, rfl, c.isAlphanum_of_mem_name, Container.ofName?_name c, hstops⟩, rfl⟩
  | bitDepth d =>
      exact ofReading_eq_ok_iff.2 ⟨d, Value.name_eq_ok_iff.2
        ⟨_, rfl, d.isDigit_of_mem_name, BitDepth.ofName?_name d, hstops⟩, rfl⟩
  | resolution hw hh hr =>
      exact ofReading_eq_ok_iff.2 ⟨_, Value.resolution_eq_ok_iff.2
        ⟨_, _, rfl, hw, hh, rfl, hr, hstops⟩, rfl⟩
  | audioEncoder e =>
      exact ofReading_eq_ok_iff.2 ⟨e, Value.name_eq_ok_iff.2
        ⟨_, rfl, e.isAlphanum_of_mem_name, AudioEncoder.ofName?_name e, hstops⟩, rfl⟩
  | audioBitrate hw hr =>
      exact ofReading_eq_ok_iff.2 ⟨_, Value.number_natural_eq_ok_iff.2
        ⟨w, rfl, hw, hr, rfl, hstops⟩, rfl⟩
  | audioTracks hw =>
      exact ofTracks_eq_ok_iff.2 ⟨_, TrackRef.scanList_eq_some_iff.2 ⟨w, rfl, hw, hstops⟩, rfl⟩
  | audioNormalize => rfl
  | subtitleTracks hw =>
      exact ofTracks_eq_ok_iff.2 ⟨_, TrackRef.scanList_eq_some_iff.2 ⟨w, rfl, hw, hstops⟩, rfl⟩

/-- Exactly the values of a filter are read by the reader of that filter. -/
theorem scanValue_eq_ok_iff {text value rest : Text} {filter : Filter} {clause : Clause} :
    scanValue text value filter = .ok (clause, rest) ↔
      clause.filter = filter ∧
        ∃ w, value = w ++ rest ∧ ValueDenotes w clause ∧ clause.StopsBefore rest := by
  constructor
  · exact denotes_of_scanValue
  · rintro ⟨rfl, w, rfl, hw, hstops⟩
    exact hw.scanValue hstops text

/-! ### Clauses -/

/-- A text starts with a clause exactly when it is what the clause is written as and a rest that
does not continue it. -/
theorem scan_eq_ok_iff {s rest : Text} {clause : Clause} :
    scan s = .ok (clause, rest) ↔
      ∃ written, s = written ++ rest ∧ Denotes written clause ∧ clause.StopsBefore rest := by
  constructor
  · intro h
    unfold scan at h
    split at h
    · simp at h
    · rename_i filter value hkeyed
      obtain ⟨key, hkey, rfl⟩ := Filter.keyed?_eq_some_iff.1 hkeyed
      obtain ⟨rfl, w, rfl, hw, hstops⟩ := scanValue_eq_ok_iff.1 h
      exact ⟨key ++ w, by rw [List.append_assoc], ⟨key, hkey, w, rfl, hw⟩, hstops⟩
  · rintro ⟨written, rfl, ⟨key, hkey, w, rfl, hw⟩, hstops⟩
    have hkeyed : Filter.keyed? (key ++ w ++ rest) = some (clause.filter, w ++ rest) :=
      Filter.keyed?_eq_some_iff.2 ⟨key, hkey, List.append_assoc key w rest⟩
    unfold scan
    rw [hkeyed]
    exact hw.scanValue hstops _

/-! ### Clauses with their tracks -/

/-- A clause that cannot be read does not end with a value, whatever is found before that shows. -/
theorem not_yields_raise {α : Type} {source : Text} {fs : FileSystem} {fault : Fault} {a : α} :
    ¬ (fault.raise source : Attempt α).Yields fs a := by
  intro h
  obtain ⟨_, _, hthrow⟩ := Attempt.yields_bind.1 h
  exact Attempt.yields_throw hthrow

/-- A text that yields a setting is read as a clause that stands for it. -/
theorem exists_scan_of_yields {source s rest : Text} {fs : FileSystem} {token : Token}
    (h : (parse source s).Yields fs (token, rest)) :
    ∃ clause, scan s = .ok (clause, rest) ∧ clause.StandsFor source fs token := by
  unfold parse at h
  split at h
  · exact absurd h not_yields_raise
  · rename_i clause after hscan
    obtain ⟨found, hfound, hpair⟩ := Attempt.yields_bind.1 h
    obtain ⟨rfl, rfl⟩ := Prod.mk.inj (Attempt.yields_pure.1 hpair)
    exact ⟨clause, hscan, yields_find_iff.1 hfound⟩

end Clause

end Transcode

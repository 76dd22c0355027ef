/-
**What an error quotes of a value.**

An error about the value of a clause quotes the longest text at the front of the value that is in
the lexical grammar of the filter; where there is none, it quotes the value up to the first
separator of clauses, outputs or tracks.  This module says so without mentioning how values are
read, and proves that the readers of names and numbers quote that.

Main definitions:

* `Transcode.Text.IsLongestFront` — the longest text of some kind at the front of another;
* `Transcode.Filter.IsLexical` — the lexical grammar of the values of a filter;
* `Transcode.Value.Quotes` — what an error quotes of a value.

Main results:

* `Transcode.Text.takesLongest_takeWhile`, `Transcode.Text.takesLongest_leadingInteger` — longest
  runs and longest numerals are longest fronts;
* `Transcode.Value.quotes_of_takesLongest` — **what the readers quote**;
* `Transcode.Value.isLongestFront_sides`, `Transcode.Value.not_isLexical_of_sides?` — the same for
  the sides of a resolution.
-/

import Transcode.Proofs.Clause.Value

set_option relaxedAutoImplicit false
set_option autoImplicit false

namespace Transcode

/-! ### Longest fronts -/

namespace Text

/-- The longest text of the kind `P` at the front of another. -/
structure IsLongestFront (P : Text → Prop) (s w : Text) : Prop where
  front : w <+: s
  holds : P w
  longest : ∀ v, v <+: s → P v → v.length ≤ w.length

/-- Runs of a class of characters; they are not empty. -/
def IsRun (p : Char → Bool) (w : Text) : Prop := w ≠ [] ∧ ∀ c ∈ w, p c = true

/-- A reader takes the longest text of a kind at the front of another, and nothing if there is
none. -/
structure TakesLongest (reader : Text → Text) (P : Text → Prop) : Prop where
  some : ∀ s, reader s ≠ [] → IsLongestFront P s (reader s)
  none : ∀ s, reader s = [] → ∀ v, v <+: s → ¬ P v

/-- A text of characters of a class is no longer than the longest one at the same place. -/
theorem length_le_takeWhile {p : Char → Bool} {s v : Text} (hv : v <+: s)
    (hp : ∀ c ∈ v, p c = true) : v.length ≤ (s.takeWhile p).length := by
  obtain ⟨rest, rfl⟩ := hv
  rw [List.takeWhile_append_of_pos hp, List.length_append]
  omega

/-- A longest text of characters of a class, which may be empty. -/
theorem isLongestFront_takeWhile (p : Char → Bool) (s : Text) :
    IsLongestFront (fun w => ∀ c ∈ w, p c = true) s (s.takeWhile p) where
  front := List.takeWhile_prefix p
  holds := all_takeWhile p s
  longest := fun _ hv hp => length_le_takeWhile hv hp

theorem takesLongest_takeWhile (p : Char → Bool) :
    TakesLongest (fun s => s.takeWhile p) (IsRun p) where
  some := by
    intro s hsome
    have hall := isLongestFront_takeWhile p s
    exact ⟨hall.front, ⟨hsome, hall.holds⟩, fun v hv hrun => hall.longest v hv hrun.2⟩
  none := by
    intro s hnone v hv hrun
    have hle := length_le_takeWhile hv hrun.2
    rw [hnone, List.length_nil] at hle
    exact hrun.1 (List.eq_nil_of_length_eq_zero (Nat.le_zero.1 hle))

theorem takesLongest_leadingNatural : TakesLongest leadingNatural IsNatural :=
  takesLongest_takeWhile Char.isDigit

/-- A natural number has no sign. -/
theorem not_isNatural_minus (digits : Text) : ¬ IsNatural ('-' :: digits) := by
  intro h
  exact absurd (h.2 '-' (by simp)) (by decide)

/-- The numerals at the front of a text with a minus sign are those of what follows it. -/
theorem isInteger_front_minus {rest v : Text} (hv : v <+: '-' :: rest) (h : IsInteger v) :
    ∃ digits, v = '-' :: digits ∧ digits <+: rest ∧ IsNatural digits := by
  rcases h with h | ⟨digits, rfl, h⟩
  · obtain ⟨c, v, rfl⟩ := List.exists_cons_of_ne_nil h.ne_nil
    obtain ⟨rfl, _⟩ := List.cons_prefix_cons.1 hv
    exact absurd h (not_isNatural_minus v)
  · exact ⟨digits, rfl, (List.cons_prefix_cons.1 hv).2, h⟩

/-- The numerals at the front of a text without a minus sign have none either. -/
theorem isInteger_front {s v : Text} (hs : ∀ rest, s ≠ '-' :: rest) (hv : v <+: s)
    (h : IsInteger v) : IsNatural v := by
  rcases h with h | ⟨digits, rfl, _⟩
  · exact h
  · obtain ⟨rest, hrest⟩ := hv
    exact absurd hrest.symm (hs _)

theorem takesLongest_leadingInteger : TakesLongest leadingInteger IsInteger where
  some := by
    intro s hsome
    by_cases hminus : ∃ rest, s = '-' :: rest
    · obtain ⟨rest, rfl⟩ := hminus
      have hrest : leadingNatural rest ≠ [] := by
        intro hrest
        simp [leadingInteger, hrest] at hsome
      have hread : leadingInteger ('-' :: rest) = '-' :: leadingNatural rest := by
        rw [leadingInteger, if_neg hrest]
      have hdigits := takesLongest_leadingNatural.some rest hrest
      rw [hread]
      refine ⟨List.cons_prefix_cons.2 ⟨rfl, hdigits.front⟩, Or.inr ⟨_, rfl, hdigits.holds⟩, ?_⟩
      intro v hv hinteger
      obtain ⟨digits, rfl, hfront, hnatural⟩ := isInteger_front_minus hv hinteger
      have hle := hdigits.longest digits hfront hnatural
      simp only [List.length_cons]
      omega
    · have hs : ∀ rest, s ≠ '-' :: rest := fun rest hrest => hminus ⟨rest, hrest⟩
      rw [leadingInteger_of_ne hs] at hsome ⊢
      have hdigits := takesLongest_leadingNatural.some s hsome
      refine ⟨hdigits.front, Or.inl hdigits.holds, ?_⟩
      intro v hv hinteger
      exact hdigits.longest v hv (isInteger_front hs hv hinteger)
  none := by
    intro s hnone v hv hinteger
    by_cases hminus : ∃ rest, s = '-' :: rest
    · obtain ⟨rest, rfl⟩ := hminus
      have hrest : leadingNatural rest = [] := by
        cases hread : leadingNatural rest with
        | nil => rfl
        | cons c digits => simp [leadingInteger, hread] at hnone
      obtain ⟨digits, _, hfront, hnatural⟩ := isInteger_front_minus hv hinteger
      exact takesLongest_leadingNatural.none rest hrest digits hfront hnatural
    · have hs : ∀ rest, s ≠ '-' :: rest := fun rest hrest => hminus ⟨rest, hrest⟩
      rw [leadingInteger_of_ne hs] at hnone
      exact takesLongest_leadingNatural.none s hnone v hv (isInteger_front hs hv hinteger)

end Text

/-! ### Lexical grammars -/

/-- The lexical grammar of the values of a filter, whatever they mean. -/
def Filter.IsLexical : Filter → Text → Prop
  | videoEncoder | container | audioEncoder => Text.IsRun Char.isAlphanum
  | profile => Text.IsRun Char.isAlpha
  | quantizer => Text.IsInteger
  | speed | grain | compat | bitDepth | audioBitrate => Text.IsNatural
  | resolution => fun w =>
    ∃ width height, w = width ++ 'x' :: height ∧ Text.IsNatural width ∧ Text.IsNatural height
  | audioTracks | subtitleTracks => fun w => ∃ refs, TrackRef.DenotesList w refs
  | audioNormalize => fun w => w = []

namespace Value

/-- The value up to the first separator of clauses, outputs or tracks. -/
def IsRaw (value w : Text) : Prop :=
  Text.IsLongestFront (fun w => ∀ c ∈ w, endsRaw c = false) value w

/-- What an error quotes of a value: the longest front in the lexical grammar, or the raw value
where no front is in it. -/
inductive Quotes (IsLexical : Text → Prop) (value : Text) : Text → Prop where
  | lexical {w : Text} (hne : w ≠ []) (h : Text.IsLongestFront IsLexical value w) :
      Quotes IsLexical value w
  | raw {w : Text} (hnone : ∀ v, v <+: value → v ≠ [] → ¬ IsLexical v) (h : IsRaw value w) :
      Quotes IsLexical value w

theorem isRaw_raw (value : Text) : IsRaw value (raw value) := by
  have h := Text.isLongestFront_takeWhile (fun c => !endsRaw c) value
  simpa only [IsRaw, raw, Bool.not_eq_true'] using h

/-- **What the readers quote**: what they take, or the raw value if they take nothing. -/
theorem quotes_of_takesLongest {reader : Text → Text} {IsLexical : Text → Prop}
    (h : Text.TakesLongest reader IsLexical) (value : Text) :
    Quotes IsLexical value (if reader value = [] then raw value else reader value) := by
  split
  · rename_i hnone
    exact .raw (fun v hv _ => h.none value hnone v hv) (isRaw_raw value)
  · rename_i hsome
    exact .lexical hsome (h.some value hsome)

/-! ### Resolutions -/

/-- Two sides at the front of a value are read; the second one goes on as far as there are
digits. -/
theorem sides?_append_of_isNatural {width height : Text} (hw : Text.IsNatural width)
    (hh : Text.IsNatural height) (rest : Text) :
    sides? (width ++ 'x' :: height ++ rest) =
      some (width, height ++ rest.takeWhile Char.isDigit, rest.dropWhile Char.isDigit) := by
  have hsplit := List.takeWhile_append_dropWhile (p := Char.isDigit) (l := rest)
  have hheight : Text.IsNatural (height ++ rest.takeWhile Char.isDigit) := by
    refine ⟨by simp [hh.ne_nil], ?_⟩
    intro c hc
    rcases List.mem_append.1 hc with hc | hc
    · exact hh.2 c hc
    · exact Text.all_takeWhile Char.isDigit rest c hc
  refine sides?_eq_some_iff.2 ⟨?_, hw, hheight, Text.stops_dropWhile Char.isDigit rest⟩
  simp only [List.append_assoc, List.cons_append, hsplit]

/-- A value without two sides at its front is no resolution, lexically. -/
theorem not_isLexical_of_sides? {value : Text} (h : sides? value = none) :
    ∀ v, v <+: value → ¬ Filter.resolution.IsLexical v := by
  rintro v ⟨rest, rfl⟩ ⟨width, height, rfl, hw, hh⟩
  rw [sides?_append_of_isNatural hw hh] at h
  exact absurd h (by simp)

/-- The two sides that are read are the longest front that is a resolution, lexically. -/
theorem isLongestFront_sides {value width height rest : Text}
    (h : sides? value = some (width, height, rest)) :
    Text.IsLongestFront Filter.resolution.IsLexical value (width ++ 'x' :: height) where
  front := ⟨rest, (sides?_append h).symm⟩
  holds := by
    obtain ⟨_, hw, hh, _⟩ := sides?_eq_some_iff.1 h
    exact ⟨width, height, rfl, hw, hh⟩
  longest := by
    rintro v ⟨more, rfl⟩ ⟨width', height', rfl, hw, hh⟩
    rw [sides?_append_of_isNatural hw hh] at h
    obtain ⟨rfl, hread⟩ := Prod.mk.inj (Option.some.inj h)
    obtain ⟨rfl, _⟩ := Prod.mk.inj hread
    simp only [List.length_append, List.length_cons]
    omega

end Value

end Transcode

/-
**Which texts start with a number or a resolution.**

Numbers are read as longest numerals and then checked; a resolution is two numerals and two checks.
This module proves what the readers accept without mentioning how they read: a numeral in front of
a text that begins with no digit, with a value in range.

Main definitions:

* `Transcode.Text.ReadsLongest` — a reader of numerals takes as much as there is.

Main results:

* `Transcode.Value.number_eq_ok_iff`, `Transcode.Value.number_natural_eq_ok_iff` — **exactly the
  texts that start with a number of a range**;
* `Transcode.Value.resolution_eq_ok_iff` — **exactly the texts that start with an encodable
  resolution**.
-/

import Transcode.Clause.Grammar

set_option relaxedAutoImplicit false
set_option autoImplicit false

namespace Transcode

/-! ### Longest numerals -/

namespace Text

/-- A reader of numerals takes the longest one at the start of a text, and nothing if there is
none. -/
structure ReadsLongest (numeral : Text → Text) (IsNumeral : Text → Prop) : Prop where
  sound {s : Text} (h : numeral s ≠ []) :
    IsNumeral (numeral s) ∧ ∃ rest, s = numeral s ++ rest ∧ Stops Char.isDigit rest
  complete {w rest : Text} (h : IsNumeral w) (hrest : Stops Char.isDigit rest) :
    numeral (w ++ rest) = w

theorem IsNatural.ne_nil {w : Text} (h : IsNatural w) : w ≠ [] := h.1

theorem IsInteger.ne_nil {w : Text} (h : IsInteger w) : w ≠ [] := by
  rcases h with h | ⟨digits, rfl, _⟩
  · exact h.ne_nil
  · simp

theorem IsNatural.integer_eq {w : Text} (h : IsNatural w) : integer w = natural w :=
  integer_of_isDigit h.2

theorem isNatural_ofNat (n : Nat) : IsNatural (ofNat n) :=
  ⟨ofNat_ne_nil n, fun _ => isDigit_of_mem_ofNat⟩

theorem isInteger_ofInt (n : Int) : IsInteger (ofInt n) := by
  cases n with
  | ofNat n => exact Or.inl (isNatural_ofNat n)
  | negSucc n => exact Or.inr ⟨ofNat (n + 1), rfl, isNatural_ofNat (n + 1)⟩

/-- A text that does not start with a minus sign is read for its digits. -/
theorem leadingInteger_of_ne {s : Text} (h : ∀ rest, s ≠ '-' :: rest) :
    leadingInteger s = leadingNatural s := by
  unfold leadingInteger
  split
  · rename_i rest
    exact absurd rfl (h rest)
  · rfl

theorem readsLongest_leadingNatural : ReadsLongest leadingNatural IsNatural where
  sound {s} h :=
    ⟨⟨h, all_takeWhile Char.isDigit s⟩, s.dropWhile Char.isDigit,
      List.takeWhile_append_dropWhile.symm, stops_dropWhile Char.isDigit s⟩
  complete h hrest := takeWhile_append_of_stops h.2 hrest

theorem readsLongest_leadingInteger : ReadsLongest leadingInteger IsInteger where
  sound {s} h := by
    by_cases hminus : ∃ rest, s = '-' :: rest
    · obtain ⟨rest, rfl⟩ := hminus
      rw [leadingInteger] at h ⊢
      by_cases hrest : leadingNatural rest = []
      · simp [hrest] at h
      · obtain ⟨hnat, tail, htail, hstops⟩ := readsLongest_leadingNatural.sound hrest
        rw [if_neg hrest]
        refine ⟨Or.inr ⟨_, rfl, hnat⟩, tail, ?_, hstops⟩
        rw [List.cons_append, ← htail]
    · have hread := leadingInteger_of_ne fun rest hrest => hminus ⟨rest, hrest⟩
      rw [hread] at h ⊢
      obtain ⟨hnat, htail⟩ := readsLongest_leadingNatural.sound h
      exact ⟨Or.inl hnat, htail⟩
  complete {w rest} h hrest := by
    rcases h with h | ⟨digits, rfl, h⟩
    · -- a numeral without a sign begins with a digit, so it is read for its digits
      have hminus : ∀ tail, w ++ rest ≠ '-' :: tail := by
        intro tail htail
        obtain ⟨c, w, rfl⟩ := List.exists_cons_of_ne_nil h.ne_nil
        have hc : c.isDigit = true := h.2 c (by simp)
        rw [(List.cons.inj htail).1] at hc
        exact absurd hc (by decide)
      rw [leadingInteger_of_ne hminus]
      exact readsLongest_leadingNatural.complete h hrest
    · have hread := readsLongest_leadingNatural.complete h hrest
      rw [List.cons_append, leadingInteger, hread, if_neg h.ne_nil]

end Text

namespace Value

/-! ### Numbers -/

/-- **A text starts with a number of a range exactly when it is a numeral with a value in the range
and a rest that does not begin with a digit.** -/
theorem number_eq_ok_iff {filter : Filter} {numeral : Text → Text} {IsNumeral : Text → Prop}
    {allowed : Range} {s rest : Text} {n : Int} (hread : Text.ReadsLongest numeral IsNumeral)
    (hne : ∀ {w}, IsNumeral w → w ≠ []) :
    number filter numeral allowed s = .ok (n, rest) ↔
      ∃ w, s = w ++ rest ∧ IsNumeral w ∧ allowed.contains (Text.integer w) = true ∧
        Text.integer w = n ∧ Text.Stops Char.isDigit rest := by
  constructor
  · intro h
    unfold number at h
    split at h
    · simp at h
    · rename_i hsome
      split at h
      · rename_i hrange
        obtain ⟨rfl, hrest⟩ := Prod.mk.inj (Except.ok.inj h)
        obtain ⟨hnum, tail, htail, hstops⟩ := hread.sound hsome
        -- the rest is found by the length of the numeral
        have hdrop : (numeral s ++ tail).drop (numeral s).length = tail := List.drop_left
        rw [← htail, hrest] at hdrop
        exact ⟨numeral s, hdrop ▸ htail, hnum, hrange, rfl, hdrop ▸ hstops⟩
      · simp at h
  · rintro ⟨w, rfl, hnum, hrange, rfl, hstops⟩
    rw [number, hread.complete hnum hstops, if_neg (hne hnum), if_pos hrange, List.drop_left]

/-- The same for numbers without a sign, which denote natural numbers. -/
theorem number_natural_eq_ok_iff {filter : Filter} {allowed : Range} {s rest : Text} {n : Int} :
    number filter Text.leadingNatural allowed s = .ok (n, rest) ↔
      ∃ w, s = w ++ rest ∧ Text.IsNatural w ∧ allowed.contains (Text.natural w) = true ∧
        (Text.natural w : Int) = n ∧ Text.Stops Char.isDigit rest := by
  rw [number_eq_ok_iff Text.readsLongest_leadingNatural Text.IsNatural.ne_nil]
  constructor
  · rintro ⟨w, rfl, hw, hrange, hn, hstops⟩
    rw [hw.integer_eq] at hrange hn
    exact ⟨w, rfl, hw, hrange, hn, hstops⟩
  · rintro ⟨w, rfl, hw, hrange, hn, hstops⟩
    rw [← hw.integer_eq] at hrange hn
    exact ⟨w, rfl, hw, hrange, hn, hstops⟩

/-! ### Resolutions -/

/-- A text starts with two numerals joined by `x` exactly when it is that and a rest that does not
begin with a digit. -/
theorem sides?_eq_some_iff {s width height rest : Text} :
    sides? s = some (width, height, rest) ↔
      s = width ++ 'x' :: height ++ rest ∧ Text.IsNatural width ∧ Text.IsNatural height ∧
        Text.Stops Char.isDigit rest := by
  constructor
  · intro h
    refine ⟨sides?_append h, ?_⟩
    unfold sides? at h
    split at h
    · rename_i c w tail hw htail
      split at h
      · simp at h
      · rename_i hsome
        obtain ⟨rfl, hrest⟩ := Prod.mk.inj (Option.some.inj h)
        obtain ⟨rfl, rfl⟩ := Prod.mk.inj hrest
        have hdigits := Text.all_takeWhile Char.isDigit s
        rw [← Text.leadingNatural, hw] at hdigits
        exact ⟨⟨by simp, hdigits⟩, ⟨hsome, Text.all_takeWhile Char.isDigit tail⟩,
          Text.stops_dropWhile Char.isDigit tail⟩
    · simp at h
  · rintro ⟨rfl, hw, hh, hrest⟩
    have hx : Text.Stops Char.isDigit ('x' :: (height ++ rest)) := by simp
    have hread := Text.readsLongest_leadingNatural.complete hw hx
    have hdrop := Text.dropWhile_append_of_stops hw.2 hx
    have hheight := Text.readsLongest_leadingNatural.complete hh hrest
    have hafter := Text.dropWhile_append_of_stops hh.2 hrest
    rw [List.append_assoc, List.cons_append]
    unfold sides?
    rw [hread, hdrop]
    obtain ⟨c, w, rfl⟩ := List.exists_cons_of_ne_nil hw.ne_nil
    simp only [hheight, hafter, if_neg hh.ne_nil]

theorem side_eq_ok_iff {numeral : Text} {n : Int} :
    side numeral = .ok n ↔
      Range.unsigned32.contains (Text.natural numeral) = true ∧
        (Text.natural numeral : Int) = n := by
  unfold side
  split
  · rename_i h
    simp only [h, true_and, Except.ok.injEq]
  · rename_i h
    simp only [h, reduceCtorEq, false_and, Bool.false_eq_true]

theorem check_eq_ok_iff {r r' : Resolution} {written : Text} :
    check r written = .ok r' ↔
      (r.width % 2 = 0 ∧ r.height % 2 = 0) ∧
        (Range.side.min ≤ r.width ∧ Range.side.min ≤ r.height) ∧ r = r' := by
  unfold check
  split
  · rename_i hodd
    simp only [reduceCtorEq, false_iff]
    rintro ⟨⟨hw, hh⟩, _⟩
    rcases hodd with hodd | hodd
    · exact hodd hw
    · exact hodd hh
  · rename_i heven
    split
    · rename_i hsmall
      simp only [reduceCtorEq, false_iff]
      rintro ⟨_, ⟨hw, hh⟩, _⟩
      omega
    · rename_i hlarge
      simp only [Except.ok.injEq]
      constructor
      · rintro rfl
        exact ⟨by omega, by omega, rfl⟩
      · exact fun h => h.2.2

/-- Two numerals give a resolution exactly when it is encodable. -/
theorem ofSides_eq_ok_iff {width height : Text} {r : Resolution} :
    ofSides width height = .ok r ↔
      r = ⟨Text.natural width, Text.natural height⟩ ∧ r.IsEncodable := by
  have hsplit : ofSides width height = .ok r ↔
      ∃ w, side width = .ok w ∧ ∃ h, side height = .ok h ∧
        check ⟨w, h⟩ (width ++ 'x' :: height) = .ok r := by
    unfold ofSides
    cases side width with
    | error e => simp [bind, Except.bind]
    | ok w => cases side height <;> simp [bind, Except.bind]
  rw [hsplit]
  -- the upper bound comes from the width of the numbers, the rest from the check of the sides
  simp only [side_eq_ok_iff, check_eq_ok_iff, Range.contains_iff, Resolution.IsEncodable]
  simp only [Range.unsigned32, Range.side]
  constructor
  · rintro ⟨w, ⟨hw, rfl⟩, h, ⟨hh, rfl⟩, heven, hlarge, rfl⟩
    refine ⟨rfl, ⟨heven.1, hlarge.1, hw.2⟩, heven.2, hlarge.2, hh.2⟩
  · rintro ⟨rfl, ⟨hwe, hwmin, hwmax⟩, hhe, hhmin, hhmax⟩
    exact ⟨_, ⟨⟨by omega, hwmax⟩, rfl⟩, _, ⟨⟨by omega, hhmax⟩, rfl⟩, ⟨hwe, hhe⟩,
      ⟨hwmin, hhmin⟩, rfl⟩

/-- **A text starts with a resolution exactly when it is an encodable one and a rest that does not
begin with a digit.** -/
theorem resolution_eq_ok_iff {s rest : Text} {r : Resolution} :
    resolution s = .ok (r, rest) ↔
      ∃ width height, s = width ++ 'x' :: height ++ rest ∧ Text.IsNatural width ∧
        Text.IsNatural height ∧ r = ⟨Text.natural width, Text.natural height⟩ ∧ r.IsEncodable ∧
        Text.Stops Char.isDigit rest := by
  constructor
  · intro h
    unfold resolution at h
    split at h
    · simp at h
    · rename_i width height after hs
      obtain ⟨rfl, hw, hh, hrest⟩ := sides?_eq_some_iff.1 hs
      cases hr : ofSides width height with
      | error e => simp [hr, Except.map] at h
      | ok r' =>
          have h : r' = r ∧ after = rest := by simpa [hr, Except.map] using h
          obtain ⟨rfl, rfl⟩ := h
          obtain ⟨hr, henc⟩ := ofSides_eq_ok_iff.1 hr
          exact ⟨width, height, rfl, hw, hh, hr, henc, hrest⟩
  · rintro ⟨width, height, rfl, hw, hh, hr, henc, hrest⟩
    simp only [resolution, sides?_eq_some_iff.2 ⟨rfl, hw, hh, hrest⟩,
      ofSides_eq_ok_iff.2 ⟨hr, henc⟩, Except.map]

end Value

end Transcode

/-
**Reading the value of a clause.**

A value is read from the front of the text that follows a key, and the rest of that text is handed
on.  Names are longest runs of some class of characters, looked up in a closed set; numbers are
longest numerals that must fit a range; a resolution is two numerals joined by `x`.  Where the
grammar of a value does not match at all, the error quotes the text up to the next separator.

Main definitions:

* `Transcode.Value.Reading` — a value with the rest of the text, or what is wrong with it;
* `Transcode.Value.raw` — what an error quotes where nothing matches;
* `Transcode.Value.name`, `Transcode.Value.number`, `Transcode.Value.resolution` — the readers.

Main results:

* `Transcode.Value.name_eq_ok_iff` — exactly which texts start with a name of a closed set;
* `Transcode.Value.length_name_le`, `Transcode.Value.length_number_le`,
  `Transcode.Value.length_resolution_le` — a reader hands on no more than it was given.
-/

import Transcode.Error.Basic
import Transcode.Filter
import Transcode.Catalog.Format

set_option relaxedAutoImplicit false
set_option autoImplicit false

namespace Transcode.Value

/-- What a reader makes of a text: a value with the rest of the text, or an error. -/
abbrev Reading (α : Type) := Except ParseError (α × Text)

/-- Where an unreadable value ends: at a separator of clauses, outputs or tracks. -/
def endsRaw (c : Char) : Bool := c == ',' || c == ';' || c == '|' || Text.isBlankChar c

/-- What an error quotes where the grammar of a value does not match. -/
def raw (s : Text) : Text := s.takeWhile fun c => !endsRaw c

/-! ### Names -/

/-- What an error quotes as the name: the longest run, or the raw text where there is none. -/
def quoted (isNameChar : Char → Bool) (s : Text) : Text :=
  if s.takeWhile isNameChar = [] then raw s else s.takeWhile isNameChar

/-- A name of a closed set: the longest run of its characters must be one of the names. -/
def name {α : Type} (isNameChar : Char → Bool) (ofName? : Text → Option α)
    (unknown : Text → ParseError) (s : Text) : Reading α :=
  match ofName? (s.takeWhile isNameChar) with
  | some a => .ok (a, s.dropWhile isNameChar)
  | none => .error (unknown (quoted isNameChar s))

/-- A text starts with a name exactly when it is a run of name characters that names the value,
and a rest that does not continue the run. -/
theorem name_eq_ok_iff {α : Type} {isNameChar : Char → Bool} {ofName? : Text → Option α}
    {unknown : Text → ParseError} {s rest : Text} {a : α} :
    name isNameChar ofName? unknown s = .ok (a, rest) ↔
      ∃ w, s = w ++ rest ∧ (∀ c ∈ w, isNameChar c = true) ∧ ofName? w = some a ∧
        Text.Stops isNameChar rest := by
  constructor
  · intro h
    unfold name at h
    split at h
    · rename_i b hb
      obtain ⟨rfl, rfl⟩ := Prod.mk.inj (Except.ok.inj h)
      exact ⟨s.takeWhile isNameChar, List.takeWhile_append_dropWhile.symm,
        Text.all_takeWhile isNameChar s, hb, Text.stops_dropWhile isNameChar s⟩
    · simp at h
  · rintro ⟨w, rfl, hw, ha, hrest⟩
    simp [name, Text.takeWhile_append_of_stops hw hrest,
      Text.dropWhile_append_of_stops hw hrest, ha]

theorem length_name_le {α : Type} {isNameChar : Char → Bool} {ofName? : Text → Option α}
    {unknown : Text → ParseError} {s rest : Text} {a : α}
    (h : name isNameChar ofName? unknown s = .ok (a, rest)) : rest.length ≤ s.length := by
  obtain ⟨w, rfl, _⟩ := name_eq_ok_iff.1 h
  simp

/-! ### Numbers -/

/-- A number of a filter: the longest numeral at the start of the text must denote a number of the
range. -/
def number (filter : Filter) (numeral : Text → Text) (allowed : Range) (s : Text) : Reading Int :=
  if numeral s = [] then .error (.invalidNumber filter.name (raw s))
  else if allowed.contains (Text.integer (numeral s)) then
    .ok (Text.integer (numeral s), s.drop (numeral s).length)
  else .error (.invalidNumber filter.name (numeral s))

theorem length_number_le {filter : Filter} {numeral : Text → Text} {allowed : Range}
    {s rest : Text} {n : Int} (h : number filter numeral allowed s = .ok (n, rest)) :
    rest.length ≤ s.length := by
  unfold number at h
  split at h
  · simp at h
  · split at h
    · have hr := (Prod.mk.inj (Except.ok.inj h)).2
      rw [← hr, List.length_drop]
      omega
    · simp at h

/-! ### Resolutions -/

/-- The sentence for a resolution with an odd side. -/
def oddSide (written : Text) : Text := "Resolution must be mod 2, got ".toList ++ written

/-- The sentence for a resolution with a side that is too small. -/
def smallSide (written : Text) : Text := "Resolution must be at least 64x64, got ".toList ++ written

/-- The side of a resolution that a numeral denotes, which must fit 32 bits. -/
def side (numeral : Text) : Except ParseError Int :=
  if Range.unsigned32.contains (Text.natural numeral) then .ok (Text.natural numeral)
  else .error (.invalidNumber Filter.resolution.name numeral)

/-- A resolution must have even sides, and then sides that are large enough.  The error names the
first odd side, or the smaller one, and quotes the resolution as it is written. -/
def check (r : Resolution) (written : Text) : Except ParseError Resolution :=
  if r.width % 2 ≠ 0 ∨ r.height % 2 ≠ 0 then
    .error (.outOfRange Filter.resolution.name (if r.width % 2 ≠ 0 then r.width else r.height)
      Range.side (some (oddSide written)))
  else if r.width < Range.side.min ∨ r.height < Range.side.min then
    .error (.outOfRange Filter.resolution.name (min r.width r.height) Range.side
      (some (smallSide written)))
  else .ok r

/-- The numerals of a resolution at the start of a text, and what follows them. -/
def sides? (s : Text) : Option (Text × Text × Text) :=
  match Text.leadingNatural s, s.dropWhile Char.isDigit with
  | c :: width, 'x' :: rest =>
    if Text.leadingNatural rest = [] then none
    else some (c :: width, Text.leadingNatural rest, rest.dropWhile Char.isDigit)
  | _, _ => none

/-- The resolution of two numerals. -/
def ofSides (width height : Text) : Except ParseError Resolution := do
  let w ← side width
  let h ← side height
  check ⟨w, h⟩ (width ++ 'x' :: height)

/-- A resolution: width, `x`, height. -/
def resolution (s : Text) : Reading Resolution :=
  match sides? s with
  | none => .error (.invalidNumber Filter.resolution.name (raw s))
  | some (width, height, rest) => (ofSides width height).map fun r => (r, rest)

theorem sides?_append {s width height rest : Text} (h : sides? s = some (width, height, rest)) :
    s = width ++ 'x' :: height ++ rest := by
  unfold sides? at h
  split at h
  · rename_i c w tail hw htail
    split at h
    · simp at h
    · obtain ⟨rfl, hhr⟩ := Prod.mk.inj (Option.some.inj h)
      obtain ⟨rfl, rfl⟩ := Prod.mk.inj hhr
      have hs := List.takeWhile_append_dropWhile (p := Char.isDigit) (l := s)
      have ht := List.takeWhile_append_dropWhile (p := Char.isDigit) (l := tail)
      rw [htail, ← Text.leadingNatural, hw] at hs
      rw [← hs]
      simp [Text.leadingNatural, ht]
  · simp at h

theorem length_resolution_le {s rest : Text} {r : Resolution}
    (h : resolution s = .ok (r, rest)) : rest.length ≤ s.length := by
  unfold resolution at h
  split at h
  · simp at h
  · rename_i width height after hs
    have hs := sides?_append hs
    cases hr : ofSides width height with
    | error e => simp [hr, Except.map] at h
    | ok r' =>
        have h : r' = r ∧ after = rest := by simpa [hr, Except.map] using h
        rw [hs, h.2]
        simp only [List.length_append, List.length_cons]
        omega

end Transcode.Value

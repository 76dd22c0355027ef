/-
**Lists of track references.**

A track clause holds references separated by bars.  A reference is an identifier, followed by a
dash and tags or by nothing: `d` and `e` enable the track, `f` forces it.  A dash without a letter
after it is not part of the reference.  A list is read as far as it goes: a reference that cannot
be read spoils the list but not the references before it.

Main definitions:

* `Transcode.TrackRef`, `Transcode.TrackRef.scan?` — a reference, and reading one;
* `Transcode.TrackRef.scanList` — the references of a list, and what follows the list unless it
  is spoilt;
* `Transcode.TrackRef.find` — the track that a reference stands for.

Main results:

* `Transcode.TrackRef.length_scan_lt` — what follows a reference is shorter than the text;
* `Transcode.TrackRef.length_scanList_lt` — what follows a list is shorter than the text.
-/

import Transcode.Track.Find

set_option relaxedAutoImplicit false
set_option autoImplicit false

namespace Transcode

/-- A track as a specification refers to it. -/
structure TrackRef where
  identifier : Text
  enabled : Bool
  forced : Bool
  deriving DecidableEq, Repr, Inhabited

namespace TrackRef

/-! ### One reference -/

/-- The letters that tag a track. -/
def isTag (c : Char) : Bool := c == 'd' || c == 'e' || c == 'f'

/-- The tags after an identifier, and what follows them.  There are none without a dash and a
letter after it. -/
def scanTags : Text → Text × Text
  | '-' :: rest =>
    if rest.takeWhile Char.isAlpha = [] then ([], '-' :: rest)
    else (rest.takeWhile Char.isAlpha, rest.dropWhile Char.isAlpha)
  | rest => ([], rest)

/-- The reference of an identifier with tags. -/
def ofTags (identifier tags : Text) : TrackRef :=
  ⟨identifier, tags.contains 'd' || tags.contains 'e', tags.contains 'f'⟩

/-- The reference at the start of a text, and what follows it. -/
def scan? (s : Text) : Option (TrackRef × Text) :=
  match Identifier.leading? s with
  | none => none
  | some (identifier, rest) =>
    if (scanTags rest).1.all isTag then
      some (ofTags identifier (scanTags rest).1, (scanTags rest).2)
    else none

theorem length_scanTags_le (s : Text) : (scanTags s).2.length ≤ s.length := by
  unfold scanTags
  split
  · split
    · exact Nat.le_refl _
    · have := Text.length_dropWhile_le Char.isAlpha ‹Text›
      simp only [List.length_cons]
      omega
  · exact Nat.le_refl _

/-- A reference is not empty, so what follows it is shorter than the text. -/
theorem length_scan_lt {s rest : Text} {ref : TrackRef} (h : scan? s = some (ref, rest)) :
    rest.length < s.length := by
  unfold scan? at h
  split at h
  · simp at h
  · rename_i identifier after hi
    split at h
    · have hr : (scanTags after).2 = rest := (Prod.mk.inj (Option.some.inj h)).2
      have hlt := Identifier.length_leading_lt hi
      have hle := length_scanTags_le after
      rw [hr] at hle
      omega
    · simp at h

/-! ### Lists of references -/

/-- The references of a list, and what follows the list.  If a reference cannot be read, the ones
before it and nothing. -/
def scanList (s : Text) : List TrackRef × Option Text :=
  match _h : scan? s with
  | none => ([], none)
  | some (ref, '|' :: rest) =>
    let more := scanList rest
    (ref :: more.1, more.2)
  | some (ref, rest) => ([ref], some rest)
termination_by s.length
decreasing_by
  have := length_scan_lt _h
  simp only [List.length_cons] at this
  omega

/-- A list is not empty, so what follows it is shorter than the text. -/
theorem length_scanList_lt {s rest : Text} (h : (scanList s).2 = some rest) :
    rest.length < s.length := by
  fun_induction scanList s with
  | case1 => simp at h
  | case2 s ref after hs more ih =>
      have hlt := length_scan_lt hs
      have := ih h
      simp only [List.length_cons] at hlt
      omega
  | case3 s ref after _ hs =>
      have : after = rest := Option.some.inj h
      exact this ▸ length_scan_lt hs

/-! ### Tracks -/

/-- The track that a reference stands for beside a source. -/
def find (source : Text) (ref : TrackRef) : Attempt Track :=
  (TrackSource.find source ref.identifier).map fun found => ⟨found, ref.enabled, ref.forced⟩

end TrackRef

end Transcode

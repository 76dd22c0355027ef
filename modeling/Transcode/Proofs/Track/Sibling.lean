/-
**A track file lies beside the source, under its stem.**

Identifiers come from the text of a specification, and the path that is looked for is put into
normal form, so it has to be shown that no identifier leads elsewhere.  It does not, because the
name that is looked for is never a component that is dropped or that goes up: it holds a letter or
digit, and no slash.  This is so for every source, also where its stem is empty or consists of
dots, and for the identifier that is left when a track number is taken off.

Main definitions:

* `Transcode.Path.IsSibling` — a path is a file beside a source whose name is the stem of the
  source and an identifier;
* `Transcode.TrackSource.LiesBeside` — a track is a stream, or comes from a sibling.

Main results:

* `Transcode.Identifier.IsWellFormed.of_numbered` — what is left of an identifier behind a number
  is an identifier;
* `Transcode.Path.isSibling_withExtension` — **an identifier names a sibling**;
* `Transcode.TrackSource.confined_find`, `Transcode.TrackRef.confined_find` — looking a track up
  touches only siblings.
-/

import Transcode.Proofs.Lookup.Confined
import Transcode.Proofs.Path.Join
import Transcode.Proofs.Track.Found
import Transcode.Proofs.Track.Identifier

set_option relaxedAutoImplicit false
set_option autoImplicit false

namespace Transcode

/-! ### Identifiers behind a number -/

namespace Identifier

/-- What follows digits and a dot in a tail is an identifier. -/
theorem IsTail.isWellFormed_of_digits {digits suffix : Text}
    (hdigits : ∀ c ∈ digits, c.isDigit = true) (h : IsTail (digits ++ '.' :: suffix)) :
    IsWellFormed suffix := by
  induction digits with
  | nil =>
      cases h with
      | letter hdot _ => exact absurd hdot (by decide)
      | dot hc hw => exact hw.isWellFormed_cons hc
  | cons d digits ih =>
      have hd : d.isAlphanum = true := by simp [Char.isAlphanum, hdigits d (by simp)]
      exact ih (fun c hc => hdigits c (by simp [hc])) (h.of_cons hd)

/-- What is left of an identifier behind a number is an identifier. -/
theorem IsWellFormed.of_numbered {digits suffix : Text}
    (hdigits : ∀ c ∈ digits, c.isDigit = true) (h : IsWellFormed (digits ++ '.' :: suffix)) :
    IsWellFormed suffix := by
  obtain ⟨c, w, happend, hc, hw⟩ := isWellFormed_iff.1 h
  cases digits with
  | nil =>
      obtain rfl : '.' = c := (List.cons.inj happend).1
      exact absurd hc (by decide)
  | cons d digits =>
      obtain ⟨_, rfl⟩ := List.cons.inj happend
      exact hw.isWellFormed_of_digits fun c hc => hdigits c (by simp [hc])

end Identifier

/-! ### Siblings -/

namespace Path

/-- A path is a file beside a source: it is named by an identifier, its last component is the stem
of the source, a dot and the identifier, and it lies in the directory in which a file of a plain
name beside the source lies. -/
def IsSibling (source path : Text) : Prop :=
  ∃ identifier, Identifier.IsWellFormed identifier ∧ path = withExtension source identifier ∧
    basename path = stem source ++ '.' :: identifier ∧
    dirname path = dirname (join (dirname source) "x".toList)

/-- The name of a file beside a source is a component of its own. -/
theorem isPlain_stem_identifier (source : Text) {identifier : Text}
    (h : Identifier.IsWellFormed identifier) : IsPlain (stem source ++ '.' :: identifier) := by
  obtain ⟨c, w, rfl, hc, _⟩ := Identifier.isWellFormed_iff.1 h
  refine isPlain_of_mem (c := c) ?_ (by simp) (Identifier.ne_dot_of_isAlphanum hc)
  intro hslash
  rcases List.mem_append.1 hslash with hslash | hslash
  · exact slash_not_mem_stem source hslash
  · rcases List.mem_cons.1 hslash with hdot | hslash
    · exact absurd hdot (by decide)
    · rcases h.isAlphanum_or_dot '/' hslash with hletter | hdot
      · exact absurd hletter (by decide)
      · exact absurd hdot (by decide)

/-- **An identifier names a sibling.** -/
theorem isSibling_withExtension (source : Text) {identifier : Text}
    (h : Identifier.IsWellFormed identifier) :
    IsSibling source (withExtension source identifier) := by
  have hname := isPlain_stem_identifier source h
  have hx : IsPlain "x".toList := isPlain_of_mem (c := 'x') (by decide) (by decide) (by decide)
  exact ⟨identifier, h, rfl, basename_join hname _, dirname_join hname hx _⟩

/-- A source that goes up and has no name of its own still has its siblings where it leads. -/
example : withExtension "../..".toList "1.srt".toList = "../...1.srt".toList := by decide

end Path

/-! ### Look-ups -/

variable {source : Text} {fs : FileSystem}

/-- A track is a stream of the source, or comes from a sibling. -/
def TrackSource.LiesBeside (source : Text) (found : TrackSource) : Prop :=
  ∀ path index, found = .external path index → Path.IsSibling source path

/-- Looking an identifier up touches only siblings. -/
theorem TrackSource.confined_find {identifier : Text} (h : Identifier.IsWellFormed identifier) :
    Attempt.Confined fs (Path.IsSibling source) (LiesBeside source) (find source identifier) := by
  have hfirst := Path.isSibling_withExtension source h
  have hmissing : Attempt.Confined fs (Path.IsSibling source) (LiesBeside source)
      (throw (.missingTrackFile identifier (Path.withExtension source identifier))) := by
    refine .throw ?_
    rintro _ _ ⟨⟩
    exact hfirst
  have hexternal : ∀ {path : Text} (index : Option Int), Path.IsSibling source path →
      Attempt.Confined fs (Path.IsSibling source) (LiesBeside source)
        (pure (external path index)) := by
    intro path index hpath
    refine .pure ?_
    rintro _ _ ⟨⟩
    exact hpath
  unfold find
  cases Identifier.stream? identifier with
  | some index => exact .pure fun _ _ hvideo => absurd hvideo (by simp)
  | none =>
      refine .ifFile hfirst (hexternal none hfirst) ?_
      cases hnum : Identifier.numbered? identifier with
      | none => exact hmissing
      | some entry =>
          obtain ⟨index, suffix⟩ := entry
          obtain ⟨digits, rfl, hdigits, _⟩ := Identifier.numbered?_eq_some_iff.1 hnum
          have hsecond := Path.isSibling_withExtension source (h.of_numbered hdigits.1.2)
          exact .ifFile hsecond (hexternal (some index) hsecond) hmissing

/-- Looking a reference up touches only siblings. -/
theorem TrackRef.confined_find {ref : TrackRef} (h : Identifier.IsWellFormed ref.identifier) :
    Attempt.Confined fs (Path.IsSibling source) (fun track => track.source.LiesBeside source)
      (find source ref) := by
  unfold find
  rw [Attempt.map_eq_bind]
  exact (TrackSource.confined_find h).bind fun _ hfound => .pure hfound

end Transcode

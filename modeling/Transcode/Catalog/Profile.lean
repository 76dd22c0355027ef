/-
**Tuning profiles.**

A profile tells an encoder what kind of picture to expect.  Profiles are named without regard to
case.

Main definitions:

* `Transcode.Profile` — the profiles, in the order in which they are listed;
* `Transcode.Profile.ofName?` — the profile of a name in any case;
* `Transcode.Profile.isAnime` — the profiles for drawn pictures.

Main results:

* `Transcode.Profile.ofName?_eq_some_iff` — a name names a profile exactly when it is the profile's
  name up to case.
-/

import Transcode.Text.Blank

set_option relaxedAutoImplicit false
set_option autoImplicit false

namespace Transcode

/-- A tuning profile. -/
inductive Profile where
  | film
  | grain
  | anime
  | animeDetailed
  | animeGrain
  | fast
  deriving DecidableEq, Repr, Inhabited

namespace Profile

/-- The profiles, in the order in which they are listed. -/
def all : List Profile := [film, grain, anime, animeDetailed, animeGrain, fast]

/-- The name of a profile: lower case letters. -/
def name : Profile → Text
  | film => "film".toList
  | grain => "grain".toList
  | anime => "anime".toList
  | animeDetailed => "animedetailed".toList
  | animeGrain => "animegrain".toList
  | fast => "fast".toList

/-- A text with its ASCII letters in lower case.  No other character has a letter of a profile's
name as its lower case, so for naming profiles these are all the letters that matter. -/
def lowerCase (s : Text) : Text := s.map Char.toLower

/-- The profile that a name stands for, whatever the case of its letters. -/
def ofName? (s : Text) : Option Profile := all.find? fun p => p.name == lowerCase s

/-- Whether a profile is one for drawn pictures. -/
def isAnime : Profile → Bool
  | anime | animeDetailed | animeGrain => true
  | film | grain | fast => false

theorem name_injective {p q : Profile} (h : p.name = q.name) : p = q := by
  revert h; cases p <;> cases q <;> decide

theorem lowerCase_name (p : Profile) : lowerCase p.name = p.name := by cases p <;> decide

/-- A profile's name is made of letters. -/
theorem isAlpha_of_mem_name {p : Profile} {c : Char} (h : c ∈ p.name) : c.isAlpha = true := by
  have hall : p.name.all Char.isAlpha = true := by cases p <;> decide
  exact List.all_eq_true.1 hall c h

theorem not_mem_name {c : Char} (h : c.isAlpha = false) (p : Profile) : c ∉ p.name :=
  fun hc => by simp [isAlpha_of_mem_name hc] at h

/-- A name stands for a profile exactly when it is the profile's name up to case. -/
theorem ofName?_eq_some_iff {s : Text} {p : Profile} :
    ofName? s = some p ↔ lowerCase s = p.name := by
  constructor
  · intro h
    have := List.find?_some h
    simpa using (beq_iff_eq.1 this).symm
  · intro h
    unfold ofName?
    rw [h]
    cases p <;> decide

end Profile

end Transcode

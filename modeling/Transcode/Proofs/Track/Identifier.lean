/-
**The longest identifier at the start of a text.**

Identifiers are read character by character and described as runs joined by dots.  This module
proves that the two agree: what is read is an identifier, it is read as far as it goes, and every
identifier in front of a text that does not continue it is read back whole.

Main definitions:

* `Transcode.Identifier.IsTail` — what may follow the first character of an identifier;
* `Transcode.Identifier.StopsBefore` — a text does not continue an identifier.

Main results:

* `Transcode.Identifier.isWellFormed_iff` — an identifier is a letter or digit and a tail;
* `Transcode.Identifier.leading?_eq_some_iff` — **exactly the texts that start with an
  identifier**, which is read as far as it goes.
-/

import Mathlib.Data.List.Basic
import Transcode.Track.Identifier

set_option relaxedAutoImplicit false
set_option autoImplicit false

namespace Transcode.Identifier

/-! ### What may follow the first character -/

/-- What may follow the first character of an identifier: letters and digits, and dots that have a
letter or digit after them. -/
inductive IsTail : Text → Prop where
  | nil : IsTail []
  | letter {c : Char} {w : Text} (hc : c.isAlphanum = true) (hw : IsTail w) : IsTail (c :: w)
  | dot {c : Char} {w : Text} (hc : c.isAlphanum = true) (hw : IsTail w) : IsTail ('.' :: c :: w)

theorem ne_dot_of_isAlphanum {c : Char} (hc : c.isAlphanum = true) : c ≠ '.' := by
  rintro rfl
  exact absurd hc (by decide)

theorem IsTail.of_cons {c : Char} {w : Text} (hc : c.isAlphanum = true) (h : IsTail (c :: w)) :
    IsTail w := by
  cases h with
  | letter _ hw => exact hw
  | dot _ _ => exact absurd hc (by decide)

/-- A run of letters and digits is a tail, in front of any other. -/
theorem IsTail.append {r w : Text} (hr : ∀ c ∈ r, c.isAlphanum = true) (hw : IsTail w) :
    IsTail (r ++ w) := by
  induction r with
  | nil => exact hw
  | cons c r ih => exact .letter (hr c (by simp)) (ih fun d hd => hr d (by simp [hd]))

/-! ### Identifiers -/

/-- Runs joined by dots are a letter or digit and a tail. -/
theorem exists_tail_of_runs {runs : List Text} (hne : runs ≠ [])
    (hruns : ∀ r ∈ runs, r ≠ [] ∧ ∀ c ∈ r, c.isAlphanum = true) :
    ∃ c w, ['.'].intercalate runs = c :: w ∧ c.isAlphanum = true ∧ IsTail w := by
  induction runs with
  | nil => exact absurd rfl hne
  | cons r runs ih =>
      obtain ⟨hr, hall⟩ := hruns r (by simp)
      obtain ⟨c, r', rfl⟩ := List.exists_cons_of_ne_nil hr
      have hr' : ∀ d ∈ r', d.isAlphanum = true := fun d hd => hall d (by simp [hd])
      cases runs with
      | nil =>
          refine ⟨c, r', by simp, hall c (by simp), ?_⟩
          simpa using IsTail.nil.append hr'
      | cons s runs =>
          obtain ⟨d, w, hd, hdc, hw⟩ := ih (by simp) fun q hq => hruns q (by simp [hq])
          refine ⟨c, r' ++ '.' :: d :: w, ?_, hall c (by simp), (IsTail.dot hdc hw).append hr'⟩
          rw [List.intercalate_cons_cons, hd]
          simp

/-- A letter or digit and a tail are runs joined by dots. -/
theorem IsTail.isWellFormed_cons {w : Text} (hw : IsTail w) :
    ∀ {c : Char}, c.isAlphanum = true → IsWellFormed (c :: w) := by
  induction hw with
  | nil =>
      intro c hc
      exact ⟨[[c]], by simp, by simpa using hc, by simp⟩
  | @letter d w hd _ ih =>
      -- the new character joins the first run
      intro c hc
      obtain ⟨runs, hne, hruns, hjoin⟩ := ih hd
      obtain ⟨r, runs, rfl⟩ := List.exists_cons_of_ne_nil hne
      obtain ⟨hr, hall⟩ := hruns r (by simp)
      refine ⟨(c :: r) :: runs, by simp, ?_, ?_⟩
      · intro q hq
        rcases List.mem_cons.1 hq with rfl | hq
        · exact ⟨by simp, by simpa using ⟨hc, hall⟩⟩
        · exact hruns q (by simp [hq])
      · cases runs with
        | nil => simpa using hjoin
        | cons s runs =>
            rw [List.intercalate_cons_cons] at hjoin ⊢
            simp [hjoin]
  | @dot d w hd _ ih =>
      -- the new character is a run of its own
      intro c hc
      obtain ⟨runs, hne, hruns, hjoin⟩ := ih hd
      obtain ⟨r, runs, rfl⟩ := List.exists_cons_of_ne_nil hne
      refine ⟨[c] :: r :: runs, by simp, ?_, ?_⟩
      · intro q hq
        rcases List.mem_cons.1 hq with rfl | hq
        · exact ⟨by simp, by simpa using hc⟩
        · exact hruns q hq
      · rw [List.intercalate_cons_cons, ← hjoin]
        simp

/-- An identifier is a letter or digit and a tail. -/
theorem isWellFormed_iff {s : Text} :
    IsWellFormed s ↔ ∃ c w, s = c :: w ∧ c.isAlphanum = true ∧ IsTail w := by
  constructor
  · rintro ⟨runs, hne, hruns, rfl⟩
    exact exists_tail_of_runs hne hruns
  · rintro ⟨c, w, rfl, hc, hw⟩
    exact hw.isWellFormed_cons hc

/-! ### Where an identifier ends -/

/-- A text does not continue an identifier: it begins neither with a letter or digit nor with a dot
that has one after it. -/
def StopsBefore (rest : Text) : Prop :=
  Text.Stops Char.isAlphanum rest ∧ ∀ tail, rest = '.' :: tail → Text.Stops Char.isAlphanum tail

theorem continuation_cons_of_isAlphanum {c : Char} (hc : c.isAlphanum = true) (s : Text) :
    continuation (c :: s) = (c :: (continuation s).1, (continuation s).2) := by
  rw [continuation.eq_def]
  split
  · contradiction
  · rename_i heq
    exact absurd (List.cons.inj heq).1 (ne_dot_of_isAlphanum hc)
  · rename_i heq
    obtain ⟨rfl, rfl⟩ := List.cons.inj heq
    simp [hc]

theorem continuation_dot_cons {c : Char} (hc : c.isAlphanum = true) (s : Text) :
    continuation ('.' :: c :: s) = ('.' :: c :: (continuation s).1, (continuation s).2) := by
  rw [continuation, if_pos hc, continuation_cons_of_isAlphanum hc]

/-- What is read after the first character is a tail, and what follows does not continue it. -/
theorem continuation_spec (s : Text) :
    IsTail (continuation s).1 ∧ StopsBefore (continuation s).2 := by
  fun_induction continuation s with
  | case1 => exact ⟨.nil, by simp, by simp⟩
  | case2 c rest hc more ih =>
      -- after the dot, what is read begins with the letter or digit that lets the dot in
      refine ⟨?_, ih.2⟩
      have htail := ih.1
      rw [continuation_cons_of_isAlphanum hc] at htail
      simp only [more, continuation_cons_of_isAlphanum hc]
      exact .dot hc (htail.of_cons hc)
  | case3 c rest hc =>
      -- a dot with something else after it is left
      refine ⟨.nil, by simp, ?_⟩
      intro tail htail
      rw [← (List.cons.inj htail).2]
      simpa using hc
  | case4 c rest _ hc more ih => exact ⟨.letter hc ih.1, ih.2⟩
  | case5 c rest hdot hc =>
      refine ⟨.nil, by simpa using hc, ?_⟩
      intro tail htail
      obtain ⟨rfl, rfl⟩ := List.cons.inj htail
      cases rest with
      | nil => simp
      | cons d rest => exact (hdot d rest rfl rfl).elim

/-- A text that does not continue an identifier has nothing to add to it. -/
theorem StopsBefore.continuation_eq {rest : Text} (h : StopsBefore rest) :
    continuation rest = ([], rest) := by
  rw [continuation.eq_def]
  split
  · rfl
  · rename_i c tail
    have hc : c.isAlphanum = false := by simpa using h.2 (c :: tail) rfl
    simp [hc]
  · rename_i c tail _
    have hc : c.isAlphanum = false := by simpa using h.1
    simp [hc]

/-- A tail in front of a text that does not continue it is read back whole. -/
theorem IsTail.continuation_append {w rest : Text} (hw : IsTail w) (hrest : StopsBefore rest) :
    continuation (w ++ rest) = (w, rest) := by
  induction hw with
  | nil => exact hrest.continuation_eq
  | letter hc _ ih => rw [List.cons_append, continuation_cons_of_isAlphanum hc, ih]
  | dot hc _ ih => rw [List.cons_append, List.cons_append, continuation_dot_cons hc, ih]

theorem leading?_cons_of_isAlphanum {c : Char} (hc : c.isAlphanum = true) (s : Text) :
    leading? (c :: s) = some (c :: (continuation s).1, (continuation s).2) := by
  rw [leading?, if_pos hc, continuation_cons_of_isAlphanum hc]

/-- **A text starts with an identifier exactly when it is one and a rest that does not continue
it**, and that is how it is read. -/
theorem leading?_eq_some_iff {s identifier rest : Text} :
    leading? s = some (identifier, rest) ↔
      s = identifier ++ rest ∧ IsWellFormed identifier ∧ StopsBefore rest := by
  constructor
  · intro h
    have happend := leading?_append h
    cases s with
    | nil => simp [leading?] at h
    | cons c s =>
        by_cases hc : c.isAlphanum = true
        · rw [leading?_cons_of_isAlphanum hc] at h
          obtain ⟨rfl, rfl⟩ := Prod.mk.inj (Option.some.inj h)
          obtain ⟨htail, hstops⟩ := continuation_spec s
          exact ⟨happend.symm, htail.isWellFormed_cons hc, hstops⟩
        · simp [leading?, hc] at h
  · rintro ⟨rfl, hid, hrest⟩
    obtain ⟨c, w, rfl, hc, hw⟩ := isWellFormed_iff.1 hid
    rw [List.cons_append, leading?_cons_of_isAlphanum hc, hw.continuation_append hrest]

/-- A text that is read to its end as an identifier is one. -/
theorem isWellFormed_of_leading? {identifier : Text}
    (h : leading? identifier = some (identifier, [])) : IsWellFormed identifier :=
  (leading?_eq_some_iff.1 h).2.1

/-! ### Characters of an identifier -/

theorem IsTail.isAlphanum_or_dot {w : Text} (h : IsTail w) :
    ∀ c ∈ w, c.isAlphanum = true ∨ c = '.' := by
  induction h with
  | nil => simp
  | letter hd _ ih =>
      intro c hc
      rcases List.mem_cons.1 hc with rfl | hc
      · exact Or.inl hd
      · exact ih c hc
  | dot hd _ ih =>
      intro c hc
      rcases List.mem_cons.1 hc with rfl | hc
      · exact Or.inr rfl
      · rcases List.mem_cons.1 hc with rfl | hc
        · exact Or.inl hd
        · exact ih c hc

/-- The characters of an identifier are letters, digits and dots. -/
theorem IsWellFormed.isAlphanum_or_dot {identifier : Text} (h : IsWellFormed identifier) :
    ∀ c ∈ identifier, c.isAlphanum = true ∨ c = '.' := by
  obtain ⟨d, w, rfl, hd, hw⟩ := isWellFormed_iff.1 h
  exact (IsTail.letter hd hw).isAlphanum_or_dot

end Transcode.Identifier

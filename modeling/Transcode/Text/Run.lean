/-
**Longest runs and leading words of a text.**

Every reader of the library takes the longest run of some class of characters from the front of
a text, or a fixed word, and hands on what is left.  This module holds the few facts about the
two that make readers composable: a run stops exactly where its class stops, a run that nothing
continues is read back, and what is left is no longer than what was given.

Main definitions:

* `Transcode.Text.Stops` — a text does not begin with a character of a class.

Main results:

* `Transcode.Text.takeWhile_append_of_stops`, `Transcode.Text.dropWhile_append_of_stops` — a run
  in front of a text that does not continue it is read back whole;
* `Transcode.Text.append_inj_of_stops`, `Transcode.Text.append_inj_of_not_mem` — such a run is known
  from the whole;
* `Transcode.Text.stops_dropWhile` — what follows a longest run does not continue it;
* `Transcode.Text.isPrefixOf?_eq_some_iff` — taking a leading word.
-/

import Transcode.Text.Blank

set_option relaxedAutoImplicit false
set_option autoImplicit false

namespace Transcode.Text

/-! ### Longest runs -/

/-- The text does not begin with a character of the class `p`. -/
def Stops (p : Char → Bool) (s : Text) : Prop := ∀ c ∈ s.head?, p c = false

@[simp] theorem stops_nil (p : Char → Bool) : Stops p [] := by simp [Stops]

@[simp] theorem stops_cons {p : Char → Bool} {c : Char} {s : Text} :
    Stops p (c :: s) ↔ p c = false := by simp [Stops]

theorem all_takeWhile (p : Char → Bool) (s : Text) : ∀ c ∈ s.takeWhile p, p c = true := by
  induction s with
  | nil => simp
  | cons d s ih =>
      intro c hc
      by_cases hd : p d = true
      · rcases List.mem_cons.1 (by simpa [hd] using hc) with rfl | hc
        · exact hd
        · exact ih c hc
      · simp [hd] at hc

theorem stops_dropWhile (p : Char → Bool) (s : Text) : Stops p (s.dropWhile p) := by
  induction s with
  | nil => simp
  | cons d s ih =>
      by_cases hd : p d = true
      · simpa [hd] using ih
      · simp [hd]

theorem takeWhile_append_of_stops {p : Char → Bool} {w s : Text} (hw : ∀ c ∈ w, p c = true)
    (hs : Stops p s) : (w ++ s).takeWhile p = w := by
  induction w with
  | nil =>
      cases s with
      | nil => rfl
      | cons c s => simp [stops_cons.1 hs]
  | cons c w ih =>
      have hc := hw c (by simp)
      simp [hc, ih fun d hd => hw d (by simp [hd])]

theorem dropWhile_append_of_stops {p : Char → Bool} {w s : Text} (hw : ∀ c ∈ w, p c = true)
    (hs : Stops p s) : (w ++ s).dropWhile p = s := by
  induction w with
  | nil =>
      cases s with
      | nil => rfl
      | cons c s => simp [stops_cons.1 hs]
  | cons c w ih =>
      have hc := hw c (by simp)
      simp [hc, ih fun d hd => hw d (by simp [hd])]

/-- A run in front of a text that does not continue it is known from the whole. -/
theorem append_inj_of_stops {p : Char → Bool} {v w s t : Text} (hv : ∀ c ∈ v, p c = true)
    (hw : ∀ c ∈ w, p c = true) (hs : Stops p s) (ht : Stops p t) (h : v ++ s = w ++ t) :
    v = w ∧ s = t := by
  have htake := congrArg (List.takeWhile p) h
  have hdrop := congrArg (List.dropWhile p) h
  rw [takeWhile_append_of_stops hv hs, takeWhile_append_of_stops hw ht] at htake
  rw [dropWhile_append_of_stops hv hs, dropWhile_append_of_stops hw ht] at hdrop
  exact ⟨htake, hdrop⟩

/-- A text without a character is a run of the other characters. -/
theorem forall_bne_of_not_mem {c : Char} {w : Text} (h : c ∉ w) : ∀ d ∈ w, (d != c) = true := by
  intro d hd
  have hne : d ≠ c := fun he => h (he ▸ hd)
  simpa using hne

/-- Such a text in front of that character is known from the whole. -/
theorem append_inj_of_not_mem {c : Char} {v w s t : Text} (hv : c ∉ v) (hw : c ∉ w)
    (hs : Stops (· != c) s) (ht : Stops (· != c) t) (h : v ++ s = w ++ t) : v = w ∧ s = t :=
  append_inj_of_stops (forall_bne_of_not_mem hv) (forall_bne_of_not_mem hw) hs ht h

theorem length_dropWhile_le (p : Char → Bool) (s : Text) : (s.dropWhile p).length ≤ s.length :=
  (List.dropWhile_sublist p).length_le

/-! ### Leading words -/

/-- A word can be taken from the front of a text exactly when the text is that word and a rest,
and the rest is what is left. -/
theorem isPrefixOf?_eq_some_iff {word s rest : Text} :
    word.isPrefixOf? s = some rest ↔ s = word ++ rest := by
  induction word generalizing s with
  | nil =>
      change some s = some rest ↔ s = [] ++ rest
      simp
  | cons c word ih =>
      cases s with
      | nil =>
          change none = some rest ↔ [] = c :: word ++ rest
          simp
      | cons d s =>
          change (if c == d then word.isPrefixOf? s else none) = some rest ↔
            d :: s = c :: word ++ rest
          by_cases h : c = d
          · subst h
            simpa using ih
          · have h' : ¬ d = c := fun e => h e.symm
            simp [h, h']

/-! ### Joined parts -/

/-- A character of a part is a character of the joined parts. -/
theorem mem_intercalate {sep part : Text} {parts : List Text} {c : Char} (hp : part ∈ parts)
    (hc : c ∈ part) : c ∈ sep.intercalate parts := by
  unfold List.intercalate
  refine List.mem_flatten.2 ⟨part, ?_, hc⟩
  induction parts with
  | nil => simp at hp
  | cons a parts ih =>
      cases parts with
      | nil => simpa using hp
      | cons b parts =>
          rw [List.intersperse_cons_cons]
          rcases List.mem_cons.1 hp with rfl | hp
          · simp
          · simp [ih hp]

end Transcode.Text

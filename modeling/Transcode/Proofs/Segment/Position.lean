/-
**An error points at the clause that is wrong.**

Reading a segment is a loop: skip the separators, read a clause, look its tracks up, and go on
behind it.  When the loop ends with an error, the segment falls apart at the clause that the error
is about: what stands before that clause is a segment that is read and looked up, and the clause is
refused by itself with the same error.  Cutting the segment there changes nothing before the cut,
although no separator need stand there, because what continues no clause does not begin to do so
when it is cut short.

Main definitions:

* `Transcode.Segment.RefusedAt` — a segment is refused at the clause behind a part of it.

Main results:

* `Transcode.Segment.parse_of_ne_nil` — one round of the loop;
* `Transcode.Clause.StopsBefore.of_append` — what continues no clause does not do so when it is cut
  short;
* `Transcode.Segment.refuses_parse_position` — **an error points at the clause that is wrong and
  reports what it contains**.
-/

import Mathlib.Data.List.Infix
import Transcode.Proofs.Clause.Refusal
import Transcode.Proofs.Segment.Composition

set_option relaxedAutoImplicit false
set_option autoImplicit false

namespace Transcode

/-! ### Texts that are cut short -/

theorem Text.Stops.of_append {p : Char → Bool} {s t : Text} (h : Text.Stops p (s ++ t)) :
    Text.Stops p s := by
  cases s with
  | nil => simp
  | cons c s => exact h

/-- What does not continue a reference does not do so when it is cut short. -/
theorem TrackRef.StopsBefore.of_append {ref : TrackRef} {s t : Text}
    (h : ref.StopsBefore (s ++ t)) : ref.StopsBefore s := by
  have htail : ∀ {c : Char} {tail : Text}, s = c :: tail → s ++ t = c :: (tail ++ t) := by
    rintro c tail rfl
    rfl
  obtain ⟨hbar, hend⟩ := h
  refine ⟨?_, ?_⟩
  · intro hhead
    obtain ⟨tail, rfl⟩ := List.head?_eq_some_iff.1 hhead
    exact hbar rfl
  · split
    · rename_i htagged
      rw [if_pos htagged] at hend
      exact hend.of_append
    · rename_i hplain
      rw [if_neg hplain] at hend
      obtain ⟨hrun, hdot, hdash⟩ := hend
      exact ⟨hrun.of_append, fun tail hs => (hdot _ (htail hs)).of_append,
        fun tail hs => (hdash _ (htail hs)).of_append⟩

/-- What does not continue a clause does not do so when it is cut short. -/
theorem Clause.StopsBefore.of_append {clause : Clause} {s t : Text}
    (h : clause.StopsBefore (s ++ t)) : clause.StopsBefore s := by
  cases clause with
  | audioTracks refs | subtitleTracks refs => exact fun ref href => (h ref href).of_append
  | audioNormalize => trivial
  | _ => exact Text.Stops.of_append h

namespace Segment

variable {source : Text} {fs : FileSystem} {e : ParseError}

/-! ### The loop -/

theorem parse_of_blank {s : Text} (h : skip s = []) : parse source s = pure [] := by
  rw [parse, scan_of_blank h]
  rfl

/-- One round of the loop: the clause behind the separators is read and looked up, and then the loop
goes on behind it. -/
theorem parse_of_ne_nil {s : Text} (h : skip s ≠ []) :
    parse source s = do
      let next ← Clause.parse source (skip s)
      let tokens ← parse source next.2
      return next.1 :: tokens := by
  unfold Clause.parse
  cases hclause : Clause.scan (skip s) with
  | error fault =>
      rw [parse, scan_of_error h hclause]
      simp only [Fault.raise_bind]
      rfl
  | ok r =>
      obtain ⟨clause, rest⟩ := r
      rw [parse, scan_of_ok h hclause]
      unfold parse resolve
      simp only [List.mapM_cons, bind_assoc, pure_bind]
      cases (scan rest).fault with
      | none => simp only [pure_bind]
      | some fault => simp only [Fault.raise_bind]

theorem takeWhile_append_skip (s : Text) : s.takeWhile isSeparator ++ skip s = s :=
  List.takeWhile_append_dropWhile

/-- A segment of separators is read as no settings. -/
theorem yields_parse_separators (s : Text) :
    (parse source (s.takeWhile isSeparator)).Yields fs [] := by
  have hall := Text.all_takeWhile isSeparator s
  have hskip := Text.dropWhile_append_of_stops hall (Text.stops_nil isSeparator)
  rw [List.append_nil] at hskip
  rw [parse_of_blank hskip]
  exact Attempt.yields_pure.2 rfl

/-! ### Where a segment is refused -/

/-- A segment that is `before` and `r` is refused at `r`: what stands before is read and looked up,
and the clause at the front of `r` is refused by itself. -/
structure RefusedAt (source : Text) (fs : FileSystem) (before r : Text) (e : ParseError) :
    Prop where
  yields : ∃ tokens, (parse source before).Yields fs tokens
  ne_nil : r ≠ []
  stops : Text.Stops isSeparator r
  refuses : (Clause.parse source r).Refuses fs e

theorem refusedAt_skip {s : Text} (hs : skip s ≠ [])
    (h : (Clause.parse source (skip s)).Refuses fs e) :
    RefusedAt source fs (s.takeWhile isSeparator) (skip s) e where
  yields := ⟨[], yields_parse_separators s⟩
  ne_nil := hs
  stops := Text.stops_dropWhile isSeparator s
  refuses := h

/-- One more clause before the place where a segment is refused, read as it was in the whole. -/
theorem RefusedAt.cons {s before r written : Text} {clause : Clause} {token : Token}
    (h : RefusedAt source fs before r e) (hs : skip s = written ++ (before ++ r))
    (hw : written ≠ []) (hden : Clause.Denotes written clause)
    (hstops : clause.StopsBefore (before ++ r)) (htoken : (clause.find source).Yields fs token) :
    RefusedAt source fs (s.takeWhile isSeparator ++ (written ++ before)) r e where
  yields := by
    obtain ⟨tokens, htokens⟩ := h.yields
    have hfront : Text.Stops isSeparator (written ++ before) := by
      have hskip := Text.stops_dropWhile isSeparator s
      rw [← skip, hs, ← List.append_assoc] at hskip
      exact hskip.of_append
    have hskip : skip (s.takeWhile isSeparator ++ (written ++ before)) = written ++ before :=
      Text.dropWhile_append_of_stops (Text.all_takeWhile isSeparator s) hfront
    have hscan : Clause.scan (written ++ before) = .ok (clause, before) :=
      Clause.scan_eq_ok_iff.2 ⟨written, rfl, hden, hstops.of_append⟩
    have hnext : (Clause.parse source (written ++ before)).Yields fs (token, before) := by
      unfold Clause.parse
      rw [hscan]
      exact Attempt.yields_bind.2 ⟨token, htoken, Attempt.yields_pure.2 rfl⟩
    rw [parse_of_ne_nil (by simp [hskip, hw]), hskip]
    exact ⟨token :: tokens, Attempt.yields_bind.2 ⟨_, hnext,
      Attempt.yields_bind.2 ⟨tokens, htokens, Attempt.yields_pure.2 rfl⟩⟩⟩
  ne_nil := h.ne_nil
  stops := h.stops
  refuses := h.refuses

/-- A segment that is refused falls apart at the clause that is refused. -/
theorem exists_refusedAt {s : Text} (h : (parse source s).Refuses fs e) :
    ∃ before r, s = before ++ r ∧ RefusedAt source fs before r e := by
  fun_induction scan s with
  | case1 s hblank =>
      rw [parse_of_blank hblank] at h
      exact absurd h Attempt.refuses_pure
  | case2 s hs fault hfault =>
      rw [parse_of_ne_nil hs] at h
      rcases Attempt.refuses_bind.1 h with hclause | ⟨next, hnext, _⟩
      · exact ⟨_, _, (takeWhile_append_skip s).symm, refusedAt_skip hs hclause⟩
      · unfold Clause.parse at hnext
        rw [hfault] at hnext
        exact absurd hnext Clause.not_yields_raise
  | case3 s hs clause rest hscan more ih =>
      rw [parse_of_ne_nil hs] at h
      rcases Attempt.refuses_bind.1 h with hclause | ⟨next, hnext, hmore⟩
      · exact ⟨_, _, (takeWhile_append_skip s).symm, refusedAt_skip hs hclause⟩
      · unfold Clause.parse at hnext
        rw [hscan] at hnext
        obtain ⟨token, htoken, hpair⟩ := Attempt.yields_bind.1 hnext
        obtain rfl := Attempt.yields_pure.1 hpair
        rcases Attempt.refuses_bind.1 hmore with hrest | ⟨_, _, hend⟩
        · -- the place is found behind the clause, and the clause is put in front of it
          obtain ⟨before, r, rfl, hat⟩ := ih hrest
          obtain ⟨written, hskip, hden, hstops⟩ := Clause.scan_eq_ok_iff.1 hscan
          refine ⟨s.takeWhile isSeparator ++ (written ++ before), r, ?_,
            hat.cons hskip ?_ hden hstops htoken⟩
          · rw [List.append_assoc, List.append_assoc, ← hskip, takeWhile_append_skip]
          · rintro rfl
            have hlt := Clause.length_scan_lt hscan
            rw [hskip] at hlt
            exact absurd hlt (by simp)
        · exact absurd hend Attempt.refuses_pure

/-- **An error points at the clause that is wrong and reports what it contains.**  A segment that is
refused falls apart at a clause: what stands before is read and looked up, and the clause is refused
with the same error, which is one of those that belong to the clause. -/
theorem refuses_parse_position {s : Text} (source : Text) (fs : FileSystem) {e : ParseError}
    (h : (parse source s).Refuses fs e) :
    ∃ before r, s = before ++ r ∧ RefusedAt source fs before r e ∧
      Clause.Refusal source fs r e := by
  obtain ⟨before, r, happend, hat⟩ := exists_refusedAt h
  exact ⟨before, r, happend, hat, Clause.refusal_of_refuses_parse hat.refuses⟩

/-- A speed that is too large, in a clause that follows another one directly. -/
theorem refuses_parse_position_speed :
    let fs := FileSystem.ofFiles fun _ => false
    let e := ParseError.invalidNumber "s".toList "300".toList
    (parse "film.mkv".toList "q=20s=300".toList).Refuses fs e ∧
      ∃ before r, "q=20s=300".toList = before ++ r ∧ RefusedAt "film.mkv".toList fs before r e ∧
        Clause.Refusal "film.mkv".toList fs r e := by
  have h : (parse "film.mkv".toList "q=20s=300".toList).Refuses (FileSystem.ofFiles fun _ => false)
      (.invalidNumber "s".toList "300".toList) := by
    unfold Attempt.Refuses
    decide +kernel
  exact ⟨h, refuses_parse_position _ _ h⟩

/-- A resolution with a side that is too wide is refused for that side, which is neither the longest
front of the value that is a resolution, lexically, nor the raw value.  No other place in the text
is refused with that error. -/
theorem refuses_parse_wide_side :
    let fs := FileSystem.ofFiles fun _ => false
    let side := "4294967296".toList
    let e := ParseError.invalidNumber Filter.resolution.name side
    (parse "film.mkv".toList "res=64x4294967296".toList).Refuses fs e ∧
      ∀ before r, "res=64x4294967296".toList = before ++ r →
        (Clause.parse "film.mkv".toList r).Refuses fs e →
        ∃ value, r = "res=".toList ++ value ∧
          ¬ Value.Quotes Filter.resolution.IsLexical value side := by
  intro fs side e
  have hplace : ∀ r ∈ "res=64x4294967296".toList.tails,
      (Clause.parse "film.mkv".toList r).Refuses fs e → r = "res=64x4294967296".toList := by
    unfold Attempt.Refuses
    decide +kernel
  refine ⟨by unfold Attempt.Refuses; decide +kernel, ?_⟩
  intro before r happend hrefuses
  have hr := hplace r ((List.mem_tails _ _).2 ⟨before, happend.symm⟩) hrefuses
  refine ⟨"64x4294967296".toList, hr, ?_⟩
  intro hquotes
  have hlexical : Filter.resolution.IsLexical "64x4294967296".toList :=
    ⟨"64".toList, side, rfl, ⟨by decide, List.all_eq_true.1 (by decide)⟩,
      ⟨by decide, List.all_eq_true.1 (by decide)⟩⟩
  cases hquotes with
  | lexical _ hfront => exact absurd hfront.front (by decide)
  | raw hnone _ => exact hnone _ (List.prefix_refl _) (by decide) hlexical

end Segment

end Transcode

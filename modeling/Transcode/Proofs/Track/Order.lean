/-
**The order in which a track is looked for.**

A stream number is taken without a look at the files.  For any other identifier the file with the
whole identifier as its extension is looked for, and no other if it exists.  If it does not, and the
identifier is a track number, a dot and an extension, the file with that extension is looked for,
and with that the search is over.  An error always names the file that was looked for first.

An identifier has at most one such reading, with the number as long as it goes; so the course of a
search is determined by the identifier and at most two answers.

Main definitions:

* `Transcode.Identifier.IsNumbered` — an identifier that is a track number, a dot and an extension;
* `Transcode.TrackSource.Search` — how a search for an identifier can go.

Main results:

* `Transcode.Identifier.IsNumbered.unique` — an identifier has at most one such reading;
* `Transcode.TrackSource.search_iff` — a look-up goes as the search can go, and in no other way;
* `Transcode.TrackSource.find_in_order` — **what is found, and what is asked for it**.
-/

import Transcode.Proofs.Track.Missing

set_option relaxedAutoImplicit false
set_option autoImplicit false

namespace Transcode

/-! ### Numbered identifiers -/

namespace Identifier

variable {identifier digits suffix : Text}

/-- An identifier that is the number of a track, a dot and the extension of a file. -/
structure IsNumbered (identifier digits suffix : Text) : Prop where
  append : identifier = digits ++ '.' :: suffix
  number : IsStream digits
  ne_nil : suffix ≠ []
  line : ∀ c ∈ suffix, Text.isLineEnd c = false

/-- What an identifier is read as if it is a track number, a dot and an extension. -/
theorem IsNumbered.numbered?_eq (h : IsNumbered identifier digits suffix) :
    numbered? identifier = some (Text.natural digits, suffix) :=
  numbered?_eq_some_iff.2 ⟨digits, h.append, h.number, rfl, h.ne_nil, h.line⟩

theorem numbered?_eq_none_iff :
    numbered? identifier = none ↔ ∀ digits suffix, ¬ IsNumbered identifier digits suffix := by
  constructor
  · intro hnone digits suffix h
    rw [h.numbered?_eq] at hnone
    exact absurd hnone (by simp)
  · intro h
    cases hnum : numbered? identifier with
    | none => rfl
    | some entry =>
        obtain ⟨digits, happend, hnumber, _, hne, hline⟩ := numbered?_eq_some_iff.1 hnum
        exact absurd ⟨happend, hnumber, hne, hline⟩ (h digits entry.2)

/-- An identifier has at most one reading as a number, a dot and an extension: the number is as long
as it goes. -/
theorem IsNumbered.unique {digits' suffix' : Text} (h : IsNumbered identifier digits suffix)
    (h' : IsNumbered identifier digits' suffix') : digits = digits' ∧ suffix = suffix' := by
  have hstop : ∀ s : Text, Text.Stops Char.isDigit ('.' :: s) := by simp
  have happend : digits ++ '.' :: suffix = digits' ++ '.' :: suffix' := by
    rw [← h.append, ← h'.append]
  obtain ⟨hdigits, hrest⟩ :=
    Text.append_inj_of_stops h.number.1.2 h'.number.1.2 (hstop _) (hstop _) happend
  exact ⟨hdigits, (List.cons.inj hrest).2⟩

/-- A number with an extension is no stream number. -/
theorem IsNumbered.not_isStream (h : IsNumbered identifier digits suffix) :
    ¬ IsStream identifier := by
  rw [h.append]
  exact not_isStream_numbered digits suffix

end Identifier

/-! ### Searches -/

namespace TrackSource

open Identifier

/-- How a search for an identifier beside a source can go, among given files: what it ends with, and
what it asks. -/
inductive Search (source : Text) (has : Text → Bool) (identifier : Text) :
    Trace (Except ParseError TrackSource) → Prop where
  | stream (h : IsStream identifier) :
      Search source has identifier ⟨.ok (.ok (.video (Text.natural identifier))), []⟩
  | file (h : ¬ IsStream identifier) (hfile : has (Path.withExtension source identifier) = true) :
      Search source has identifier
        ⟨.ok (.ok (.external (Path.withExtension source identifier) none)),
          [Path.withExtension source identifier]⟩
  | numbered {digits suffix : Text} (h : IsNumbered identifier digits suffix)
      (hfree : has (Path.withExtension source identifier) = false)
      (hfile : has (Path.withExtension source suffix) = true) :
      Search source has identifier
        ⟨.ok (.ok (.external (Path.withExtension source suffix) (some (Text.natural digits)))),
          [Path.withExtension source identifier, Path.withExtension source suffix]⟩
  | unnumbered {digits suffix : Text} (h : IsNumbered identifier digits suffix)
      (hfree : has (Path.withExtension source identifier) = false)
      (hnone : has (Path.withExtension source suffix) = false) :
      Search source has identifier
        ⟨.ok (.error (.missing source identifier)),
          [Path.withExtension source identifier, Path.withExtension source suffix]⟩
  | missing (h : ¬ IsStream identifier)
      (hnum : ∀ digits suffix, ¬ IsNumbered identifier digits suffix)
      (hfree : has (Path.withExtension source identifier) = false) :
      Search source has identifier
        ⟨.ok (.error (.missing source identifier)), [Path.withExtension source identifier]⟩

variable {source identifier : Text} {has : Text → Bool}
  {run : Trace (Except ParseError TrackSource)}

/-- For every identifier there is a way in which the search goes. -/
theorem exists_search (source identifier : Text) (has : Text → Bool) :
    ∃ run, Search source has identifier run := by
  by_cases hstream : IsStream identifier
  · exact ⟨_, .stream hstream⟩
  cases hfile : has (Path.withExtension source identifier) with
  | true => exact ⟨_, .file hstream hfile⟩
  | false =>
      by_cases hnum : ∃ digits suffix, IsNumbered identifier digits suffix
      · obtain ⟨digits, suffix, hnum⟩ := hnum
        cases hsecond : has (Path.withExtension source suffix) with
        | true => exact ⟨_, .numbered hnum hfile hsecond⟩
        | false => exact ⟨_, .unnumbered hnum hfile hsecond⟩
      · exact ⟨_, .missing hstream (fun digits suffix h => hnum ⟨digits, suffix, h⟩) hfile⟩

namespace Search

/-- A look-up goes as the search can go. -/
theorem trace_find (h : Search source has identifier run) :
    (find source identifier).trace (FileSystem.ofFiles has) = run := by
  cases h with
  | stream h =>
      rw [find_of_stream (stream?_eq_some_iff.2 ⟨h, rfl⟩)]
      rfl
  | file h hfile =>
      simp only [find, stream?_eq_none_iff.2 h, Attempt.trace_ifFile, hfile]
      rfl
  | numbered h hfree hfile =>
      simp only [find, stream?_eq_none_iff.2 h.not_isStream, h.numbered?_eq, Attempt.trace_ifFile,
        hfree, hfile, Bool.false_eq_true, if_false]
      rfl
  | unnumbered h hfree hnone =>
      simp only [find, stream?_eq_none_iff.2 h.not_isStream, h.numbered?_eq, Attempt.trace_ifFile,
        hfree, hnone, Bool.false_eq_true, if_false]
      rfl
  | missing h hnum hfree =>
      simp only [find, stream?_eq_none_iff.2 h, numbered?_eq_none_iff.2 hnum, Attempt.trace_ifFile,
        hfree]
      rfl

theorem isStream_of_video {index : Int} (h : Search source has identifier run)
    (hvideo : run.result = .ok (.ok (.video index))) : IsStream identifier := by
  cases h with
  | stream h => exact h
  | _ => exact absurd hvideo (by simp)

/-- A search that looks at files begins with the whole identifier. -/
theorem head?_probes (h : Search source has identifier run) (hstream : ¬ IsStream identifier) :
    run.probes.head? = some (Path.withExtension source identifier) := by
  cases h with
  | stream h => exact absurd h hstream
  | _ => rfl

/-- A file that is found exists. -/
theorem has_of_external {path : Text} {index : Option Int} (h : Search source has identifier run)
    (hfound : run.result = .ok (.ok (.external path index))) : has path = true := by
  cases h with
  | file _ hfile =>
      obtain ⟨rfl, _⟩ : _ = path ∧ none = index := by simpa using hfound
      exact hfile
  | numbered _ _ hfile =>
      obtain ⟨rfl, _⟩ : _ = path ∧ some _ = index := by simpa using hfound
      exact hfile
  | stream | unnumbered | missing => exact absurd hfound (by simp)

/-- An error names the file that was looked for first. -/
theorem error_eq {e : ParseError} (h : Search source has identifier run)
    (he : run.result = .ok (.error e)) : e = .missing source identifier := by
  cases h with
  | unnumbered | missing => exact (Except.error.inj (Except.ok.inj he)).symm
  | stream | file | numbered => exact absurd he (by simp)

/-- A search asks at most twice. -/
theorem length_probes_le (h : Search source has identifier run) : run.probes.length ≤ 2 := by
  cases h <;> simp

end Search

/-- A look-up goes in one way only. -/
theorem search_iff : Search source has identifier run ↔
    (find source identifier).trace (FileSystem.ofFiles has) = run := by
  constructor
  · exact Search.trace_find
  · rintro rfl
    obtain ⟨run, h⟩ := exists_search source identifier has
    rw [h.trace_find]
    exact h

/-- A file with a number before its extension is looked for after the one with the whole identifier,
and that is all. -/
theorem trace_find_of_isNumbered {digits suffix : Text} (h : IsNumbered identifier digits suffix)
    (hfree : has (Path.withExtension source identifier) = false) :
    (find source identifier).trace (FileSystem.ofFiles has) =
      ⟨.ok (if has (Path.withExtension source suffix) then
          .ok (.external (Path.withExtension source suffix) (some (Text.natural digits)))
        else .error (.missing source identifier)),
        [Path.withExtension source identifier, Path.withExtension source suffix]⟩ := by
  cases hsecond : has (Path.withExtension source suffix) with
  | true => exact (Search.numbered h hfree hsecond).trace_find
  | false => exact (Search.unnumbered h hfree hsecond).trace_find

/-- **What is found, and what is asked for it**, among any files.  A stream is found exactly if the
identifier is the number of one, and nothing is asked then.  Otherwise the file with the whole
identifier is asked for first, and it is found exactly if it exists, without another question.
Otherwise, if the identifier is a track number, a dot and an extension, the file with that extension
is asked for and nothing else, and it is that track of the file which is found if it exists.  In all
other cases the track is missing, with the path that was asked for first.  So what is found exists,
and there are at most two questions. -/
theorem find_in_order (source identifier : Text) (has : Text → Bool) :
    let run := (find source identifier).trace (FileSystem.ofFiles has)
    let path := Path.withExtension source identifier
    let missing := ParseError.missing source identifier
    ((∃ index, run.result = .ok (.ok (.video index))) ↔ IsStream identifier) ∧
      (IsStream identifier → run = ⟨.ok (.ok (.video (Text.natural identifier))), []⟩) ∧
      (¬ IsStream identifier →
        run.probes.head? = some path ∧
        (run.result = .ok (.ok (.external path none)) ↔ has path = true) ∧
        (has path = true → run.probes = [path]) ∧
        (has path = false →
          (∀ digits suffix, IsNumbered identifier digits suffix →
            let file := Path.withExtension source suffix
            let found := TrackSource.external file (some (Text.natural digits))
            run = ⟨.ok (if has file then .ok found else .error missing), [path, file]⟩) ∧
          ((∀ digits suffix, ¬ IsNumbered identifier digits suffix) →
            run = ⟨.ok (.error missing), [path]⟩))) ∧
      (∀ e, run.result = .ok (.error e) → e = missing) ∧
      (∀ found index, run.result = .ok (.ok (.external found index)) → has found = true) ∧
      run.probes.length ≤ 2 := by
  intro run path missing
  have hrun : Search source has identifier run := search_iff.2 rfl
  have hstream : IsStream identifier →
      run = ⟨.ok (.ok (.video (Text.natural identifier))), []⟩ :=
    fun h => (Search.stream h).trace_find
  refine ⟨⟨?_, ?_⟩, hstream, ?_, fun e => hrun.error_eq, fun found index => hrun.has_of_external,
    hrun.length_probes_le⟩
  · rintro ⟨index, hvideo⟩
    exact hrun.isStream_of_video hvideo
  · intro h
    exact ⟨Text.natural identifier, by rw [hstream h]⟩
  · intro hno
    have hfile : has path = true → run = ⟨.ok (.ok (.external path none)), [path]⟩ :=
      fun h => (Search.file hno h).trace_find
    refine ⟨hrun.head?_probes hno, ⟨hrun.has_of_external, ?_⟩, ?_, ?_⟩
    · intro h
      rw [hfile h]
    · intro h
      rw [hfile h]
    · intro hfree
      exact ⟨fun _ _ hnum => trace_find_of_isNumbered hnum hfree,
        fun hnum => (Search.missing hno hnum hfree).trace_find⟩

/-- With two numbers in the identifier the first one is the number of the track, and the second one
belongs to the extension. -/
theorem find_in_order_numbered :
    let source := "film.mkv".toList
    let has : Text → Bool := fun path => path == "film.2.ac3".toList
    let run := (find source "1.2.ac3".toList).trace (FileSystem.ofFiles has)
    ¬ IsStream "1.2.ac3".toList ∧ has "film.1.2.ac3".toList = false ∧
      IsNumbered "1.2.ac3".toList "1".toList "2.ac3".toList ∧
      run = ⟨.ok (.ok (.external "film.2.ac3".toList (some 1))),
        ["film.1.2.ac3".toList, "film.2.ac3".toList]⟩ ∧
      has "film.2.ac3".toList = true := by
  intro source has run
  have hone : IsStream "1".toList :=
    (stream?_eq_some_iff.1 (show stream? "1".toList = some 1 by decide)).1
  have hnum : IsNumbered "1.2.ac3".toList "1".toList "2.ac3".toList :=
    ⟨rfl, hone, by decide, by simp [Text.isLineEnd]⟩
  have hpath : Path.withExtension source "1.2.ac3".toList = "film.1.2.ac3".toList := by
    decide +kernel
  have hfile : Path.withExtension source "2.ac3".toList = "film.2.ac3".toList := by decide +kernel
  obtain ⟨_, _, hsearch, _, hexists, _⟩ := find_in_order source "1.2.ac3".toList has
  obtain ⟨_, _, _, hfree⟩ := hsearch hnum.not_isStream
  rw [hpath] at hfree
  have hfound := (hfree rfl).1 _ _ hnum
  rw [hfile] at hfound
  exact ⟨hnum.not_isStream, rfl, hnum, hfound, hexists _ _ (congrArg Trace.result hfound)⟩

end TrackSource

end Transcode

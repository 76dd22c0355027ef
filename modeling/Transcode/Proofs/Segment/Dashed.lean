/-
**A dash in a list of references.**

A dash after an identifier announces tags.  The letters after the dash are read as far as they go,
and if one of them is no tag the whole list is refused, wherever in the list the dash stands.  If no
letter follows at all, there is nothing to refuse: the reference is read without tags, the list ends
before the dash, and the dash is left for the next clause.  None begins with a dash, so a segment is
refused there all the same; but the error carries the text from the dash on, and not from the key.

Main definitions:

* `Transcode.TrackRef.DenotesBarred` — references that each have a bar after them.

Main results:

* `Transcode.TrackRef.DenotesBarred.scanList_append` — such references are read, and then the list
  goes on;
* `Transcode.TrackRef.scan?_dash_of_not_isTag`, `Transcode.TrackRef.scan?_dash_of_stops` — an
  identifier with a dash after it;
* `Transcode.Clause.parse_dashed` — **what becomes of a list with a dash**;
* `Transcode.Segment.refuses_parse_dash` — what becomes of the segment around it.
-/

import Transcode.Proofs.Segment.Position

set_option relaxedAutoImplicit false
set_option autoImplicit false

namespace Transcode

/-! ### Lists that go on -/

namespace TrackRef

/-- What references are written as that each have a bar after them. -/
inductive DenotesBarred : Text → List TrackRef → Prop where
  | nil : DenotesBarred [] []
  | cons {written more : Text} {ref : TrackRef} {refs : List TrackRef} (h : Denotes written ref)
      (hmore : DenotesBarred more refs) : DenotesBarred (written ++ '|' :: more) (ref :: refs)

/-- References with bars after them are read, and then the list goes on. -/
theorem DenotesBarred.scanList_append {barred : Text} {refs : List TrackRef}
    (h : DenotesBarred barred refs) (s : Text) :
    scanList (barred ++ s) = (refs ++ (scanList s).1, (scanList s).2) := by
  induction h with
  | nil => rfl
  | @cons written more ref refs href _ ih =>
      have hread : scan? (written ++ '|' :: (more ++ s)) = some (ref, '|' :: (more ++ s)) :=
        href.scan (endsBefore_bar ref _)
      rw [List.append_assoc, List.cons_append, scanList_of_bar hread, ih]
      rfl

/-! ### A dash after an identifier -/

variable {identifier after : Text}

/-- An identifier ends before a dash. -/
theorem leading?_dash (hid : Identifier.IsWellFormed identifier) (after : Text) :
    Identifier.leading? (identifier ++ '-' :: after) = some (identifier, '-' :: after) :=
  Identifier.leading?_eq_some_iff.2 ⟨rfl, hid, by simp, by simp⟩

/-- Letters after a dash that are not all tags spoil the reference. -/
theorem scan?_dash_of_not_isTag (hid : Identifier.IsWellFormed identifier) {c : Char}
    (hc : c ∈ after.takeWhile Char.isAlpha) (htag : isTag c = false) :
    scan? (identifier ++ '-' :: after) = none := by
  have hletters : after.takeWhile Char.isAlpha ≠ [] := List.ne_nil_of_mem hc
  have htags : (after.takeWhile Char.isAlpha).all isTag ≠ true := by
    intro hall
    have hyes := List.all_eq_true.1 hall c hc
    rw [htag] at hyes
    exact absurd hyes (by simp)
  simp only [scan?, leading?_dash hid, scanTags, if_neg hletters, if_neg htags]

/-- A dash without a letter after it is not read. -/
theorem scan?_dash_of_stops (hid : Identifier.IsWellFormed identifier)
    (hnone : after.takeWhile Char.isAlpha = []) :
    scan? (identifier ++ '-' :: after) = some (ofTags identifier [], '-' :: after) := by
  simp only [scan?, leading?_dash hid, scanTags, if_pos hnone, List.all_nil, if_true]

end TrackRef

/-! ### Clauses -/

namespace Clause

variable {source : Text} {fs : FileSystem} {f : Filter}

/-- The clause of a track list is made of the list; the setting that it stands for has the tracks
that the references stand for. -/
theorem exists_make_of_isTrackList (source : Text) (fs : FileSystem) (hf : f.IsTrackList) :
    ∃ make : List TrackRef → Clause,
      (∀ text value, scanValue text value f = ofTracks make text (TrackRef.scanList value)) ∧
        ∀ refs tracks, List.Forall₂ (TrackRef.StandsFor source fs) refs tracks →
          ∃ token, StandsFor source fs (make refs) token ∧ token.filter = f ∧
            token.tracks = tracks := by
  rcases hf with rfl | rfl
  · exact ⟨.audioTracks, fun _ _ => rfl,
      fun _ tracks h => ⟨.audioTracks tracks, .audioTracks h, rfl, rfl⟩⟩
  · exact ⟨.subtitleTracks, fun _ _ => rfl,
      fun _ tracks h => ⟨.subtitleTracks tracks, .subtitleTracks h, rfl, rfl⟩⟩

/-- A list that is spoilt after references that stand for tracks leaves the text unrecognized. -/
theorem refuses_parse_of_spoilt {key value : Text} {refs : List TrackRef} {tracks : List Track}
    (hf : f.IsTrackList) (hkey : key ∈ f.keys) (hlist : TrackRef.scanList value = (refs, none))
    (hrefs : List.Forall₂ (TrackRef.StandsFor source fs) refs tracks) :
    (parse source (key ++ value)).Refuses fs (.unrecognizedFilter (key ++ value)) := by
  obtain ⟨make, hmake, _⟩ := exists_make_of_isTrackList source fs hf
  have hscan : scan (key ++ value) = .error ⟨refs, .unrecognizedFilter (key ++ value)⟩ := by
    rw [scan, Filter.keyed?_eq_some_iff.2 ⟨key, hkey, rfl⟩]
    simp only [hmake, ofTracks, hlist]
  have hfound : (refs.mapM (TrackRef.find source)).Yields fs tracks :=
    Attempt.yields_mapM.2 (hrefs.imp fun _ _ => TrackRef.yields_find_iff.2)
  rw [parse, hscan]
  exact Attempt.refuses_bind.2 (Or.inr ⟨tracks, hfound, Attempt.refuses_throw.2 rfl⟩)

/-- A list whose references stand for tracks is the setting with these tracks. -/
theorem exists_yields_parse_of_list {key value rest : Text} {refs : List TrackRef}
    {tracks : List Track} (hf : f.IsTrackList) (hkey : key ∈ f.keys)
    (hlist : TrackRef.scanList value = (refs, some rest))
    (hrefs : List.Forall₂ (TrackRef.StandsFor source fs) refs tracks) :
    ∃ token, (parse source (key ++ value)).Yields fs (token, rest) ∧ token.filter = f ∧
      token.tracks = tracks := by
  obtain ⟨make, hmake, htoken⟩ := exists_make_of_isTrackList source fs hf
  obtain ⟨token, hstands, hfilter, htracks⟩ := htoken refs tracks hrefs
  have hscan : scan (key ++ value) = .ok (make refs, rest) := by
    rw [scan, Filter.keyed?_eq_some_iff.2 ⟨key, hkey, rfl⟩]
    simp only [hmake, ofTracks, hlist]
  refine ⟨token, ?_, hfilter, htracks⟩
  rw [parse, hscan]
  exact Attempt.yields_bind.2 ⟨token, yields_find_iff.2 hstands, Attempt.yields_pure.2 rfl⟩

/-- **What becomes of a list with a dash.**  Take the key of a track list, references that stand for
tracks with a bar after each of them, an identifier, a dash, and any text.  If a letter that is no
tag is among the letters that follow the dash, the clause is refused and the error carries all of
the text.  If no letter follows the dash and the identifier stands for something as well, the clause
is read, without tags on the last track, and what follows it begins with the dash. -/
theorem parse_dashed {key barred identifier after : Text} {refs : List TrackRef}
    {tracks : List Track} (hf : f.IsTrackList) (hkey : key ∈ f.keys)
    (hbarred : TrackRef.DenotesBarred barred refs)
    (hrefs : List.Forall₂ (TrackRef.StandsFor source fs) refs tracks)
    (hid : Identifier.IsWellFormed identifier) :
    let text := key ++ (barred ++ (identifier ++ '-' :: after))
    let letters := after.takeWhile Char.isAlpha
    ((∃ c ∈ letters, TrackRef.isTag c = false) →
        (parse source text).Refuses fs (.unrecognizedFilter text)) ∧
      ∀ found, TrackSource.StandsFor source fs identifier found → letters = [] →
        ∃ token, (parse source text).Yields fs (token, '-' :: after) ∧ token.filter = f ∧
          token.tracks = tracks ++ [⟨found, false, false⟩] := by
  intro text letters
  have hlist := hbarred.scanList_append (identifier ++ '-' :: after)
  constructor
  · rintro ⟨c, hc, htag⟩
    rw [TrackRef.scanList_of_none (TrackRef.scan?_dash_of_not_isTag hid hc htag),
      List.append_nil] at hlist
    exact refuses_parse_of_spoilt hf hkey hlist hrefs
  · intro found hfound hnone
    rw [TrackRef.scanList_of_end (TrackRef.scan?_dash_of_stops hid hnone) (by simp)] at hlist
    have hlast : TrackRef.StandsFor source fs (TrackRef.ofTags identifier [])
        ⟨found, false, false⟩ := ⟨hfound, rfl, rfl⟩
    exact exists_yields_parse_of_list hf hkey hlist
      (List.rel_append hrefs (.cons hlast .nil))

/-- One letter after the dash that is no tag, and no letter after it. -/
theorem parse_dashed_subtitles :
    let source := "film.mkv".toList
    let fs := FileSystem.ofFiles fun path => path == "film.eng.srt".toList
    let refs := [TrackRef.ofTags "1".toList "e".toList]
    let tracks := [⟨.video 1, true, false⟩]
    let refused := "st=1-e|eng.srt-fx|2".toList
    Filter.subtitleTracks.IsTrackList ∧ "st=".toList ∈ Filter.subtitleTracks.keys ∧
      TrackRef.DenotesBarred "1-e|".toList refs ∧
      List.Forall₂ (TrackRef.StandsFor source fs) refs tracks ∧
      Identifier.IsWellFormed "eng.srt".toList ∧
      (parse source refused).Refuses fs (.unrecognizedFilter refused) ∧
      ∃ token, (parse source "st=1-e|eng.srt-|2".toList).Yields fs (token, "-|2".toList) ∧
        token.filter = .subtitleTracks ∧
        token.tracks = tracks ++ [⟨.external "film.eng.srt".toList none, false, false⟩] := by
  intro source fs refs tracks refused
  have hf : Filter.subtitleTracks.IsTrackList := Or.inr rfl
  have hkey : "st=".toList ∈ Filter.subtitleTracks.keys := by decide
  have hone : Identifier.IsWellFormed "1".toList := Identifier.isWellFormed_of_leading? (by decide)
  have hbarred : TrackRef.DenotesBarred "1-e|".toList refs := by
    have htags : ∀ c ∈ "e".toList, TrackRef.isTag c = true := List.all_eq_true.1 (by decide)
    have htagged := TrackRef.Denotes.tagged hone (by decide) htags
    exact .cons htagged .nil
  have hrefs : List.Forall₂ (TrackRef.StandsFor source fs) refs tracks := by
    refine .cons (TrackRef.yields_find_iff.1 ?_) .nil
    unfold Attempt.Yields
    decide
  have hid : Identifier.IsWellFormed "eng.srt".toList :=
    Identifier.isWellFormed_of_leading? (by decide)
  have hfound : TrackSource.StandsFor source fs "eng.srt".toList
      (.external "film.eng.srt".toList none) := by
    refine TrackSource.yields_find_iff.1 ?_
    unfold Attempt.Yields
    decide
  exact ⟨hf, hkey, hbarred, hrefs, hid,
    (parse_dashed hf hkey hbarred hrefs hid).1 ⟨'x', by decide, rfl⟩,
    (parse_dashed hf hkey hbarred hrefs hid).2 _ hfound rfl⟩

/-- A dash with nothing after it does not make its list an error, though all else is as it has to
be. -/
theorem parse_dashed_bare :
    let source := "film.mkv".toList
    let fs := FileSystem.ofFiles fun _ => false
    let text := "at=0-".toList
    Filter.audioTracks.IsTrackList ∧ "at=".toList ∈ Filter.audioTracks.keys ∧
      TrackRef.DenotesBarred [] [] ∧ Identifier.IsWellFormed "0".toList ∧
      TrackSource.StandsFor source fs "0".toList (.video 0) ∧
      text = "at=".toList ++ ([] ++ ("0".toList ++ ['-'])) ∧
      ¬ (parse source text).Refuses fs (.unrecognizedFilter text) ∧
      (parse source text).Yields fs (.audioTracks [⟨.video 0, false, false⟩], "-".toList) := by
  intro source fs text
  have hzero : TrackSource.StandsFor source fs "0".toList (.video 0) := by
    refine TrackSource.yields_find_iff.1 ?_
    unfold Attempt.Yields
    decide
  have hid : Identifier.IsWellFormed "0".toList := Identifier.isWellFormed_of_leading? (by decide)
  refine ⟨Or.inl rfl, by decide, .nil, hid, hzero, rfl, ?_, ?_⟩
  · unfold Attempt.Refuses
    decide +kernel
  · unfold Attempt.Yields
    decide +kernel

end Clause

/-! ### Segments -/

/-- No key begins with a dash. -/
theorem Filter.keyed?_dash (after : Text) : Filter.keyed? ('-' :: after) = none := by
  cases h : keyed? ('-' :: after) with
  | none => rfl
  | some entry =>
      obtain ⟨f, value⟩ := entry
      obtain ⟨key, hkey, happend⟩ := keyed?_eq_some_iff.1 h
      have hhead : ∀ key ∈ f.keys, key ≠ [] ∧ key.head? ≠ some '-' := by cases f <;> decide
      obtain ⟨c, key, rfl⟩ := List.exists_cons_of_ne_nil (hhead key hkey).1
      obtain ⟨rfl, _⟩ := List.cons.inj happend
      exact absurd rfl (hhead _ hkey).2

/-- Without a key at its front a text is unrecognized. -/
theorem Clause.parse_of_unkeyed {s : Text} (h : Filter.keyed? s = none) (source : Text) :
    parse source s = throw (.unrecognizedFilter s) := by
  rw [parse, scan, h]
  rfl

/-- **What becomes of the segment around it**: a clause that leaves a dash is read, and the segment
is refused at the dash.  The error carries the text from the dash on. -/
theorem Segment.refuses_parse_dash {source s after : Text} {fs : FileSystem} {token : Token}
    (h : (Clause.parse source (skip s)).Yields fs (token, '-' :: after)) :
    (parse source s).Refuses fs (.unrecognizedFilter ('-' :: after)) := by
  have hne : skip s ≠ [] := by
    intro hskip
    rw [hskip, Clause.parse_of_unkeyed (by decide)] at h
    exact absurd h Attempt.yields_throw
  have hdash : skip ('-' :: after) = '-' :: after := rfl
  have hnext : (parse source ('-' :: after)).Refuses fs (.unrecognizedFilter ('-' :: after)) := by
    rw [parse_of_ne_nil (by rw [hdash]; simp), hdash,
      Clause.parse_of_unkeyed (Filter.keyed?_dash after)]
    exact Attempt.refuses_bind.2 (Or.inl (Attempt.refuses_throw.2 rfl))
  rw [parse_of_ne_nil hne]
  exact Attempt.refuses_bind.2 (Or.inr ⟨_, h, Attempt.refuses_bind.2 (Or.inl hnext)⟩)

end Transcode

/-
**Adding files never breaks a specification.**

A new file can change what a track stands for in one way only: an identifier that was read as a
track number and the extension of another file is the extension of the new one.  Whatever is found,
no other field of an output depends on it, and neither does what is refused.  So a specification
that describes outputs among some files describes as many among more files, which differ in such
tracks only; and an error that is about no missing file stays the same error.

Main definitions:

* `Transcode.Forall₃` — lists that are related member by member;
* `Transcode.TrackSource.Becomes`, `Transcode.Track.Becomes`, `Transcode.Output.Becomes` — what an
  identifier, a track and an output become among more files.

Main results:

* `Transcode.TrackSource.StandsFor.becomes` — what an identifier becomes;
* `Transcode.Specification.persists_resolve` — a specification persists;
* `Transcode.Specification.resolve_of_more_files` — **adding files never breaks a specification**.
-/

import Transcode.Proofs.Lookup.Persistence
import Transcode.Proofs.Output.Tracks
import Transcode.Proofs.Specification.Outcome
import Transcode.Proofs.Track.Missing

set_option relaxedAutoImplicit false
set_option autoImplicit false

namespace Transcode

/-! ### Lists that are related three by three -/

/-- Lists of one length whose members at each place are related. -/
inductive Forall₃ {α β γ : Type} (R : α → β → γ → Prop) : List α → List β → List γ → Prop where
  | nil : Forall₃ R [] [] []
  | cons {a : α} {b : β} {c : γ} {as : List α} {bs : List β} {cs : List γ} (h : R a b c)
      (hmore : Forall₃ R as bs cs) : Forall₃ R (a :: as) (b :: bs) (c :: cs)

/-- Two lists that are related to a third one are related through it. -/
theorem forall₃_of_forall₂ {α β γ : Type} {P : α → β → Prop} {Q : α → γ → Prop}
    {R : α → β → γ → Prop} (hR : ∀ a b c, P a b → Q a c → R a b c) {as : List α} {bs : List β}
    {cs : List γ} (hP : List.Forall₂ P as bs) (hQ : List.Forall₂ Q as cs) : Forall₃ R as bs cs := by
  induction hP generalizing cs with
  | nil =>
      cases hQ
      exact .nil
  | cons hab _ ih =>
      cases hQ with
      | cons hac hQ => exact .cons (hR _ _ _ hab hac) (ih hQ)

/-! ### What becomes of a track -/

variable {source : Text} {f g : Text → Bool}

/-- What an identifier stands for among some files, and what it stands for among more files, in
which `g` exist.  All stays as it is, except that a numbered track of a file gives way to the file
with the whole identifier as its extension; it does so exactly if that file exists. -/
inductive TrackSource.Becomes (source : Text) (g : Text → Bool) :
    Text → TrackSource → TrackSource → Prop where
  | stream (identifier : Text) (index : Int) :
      Becomes source g identifier (.video index) (.video index)
  | file (identifier : Text) :
      Becomes source g identifier (.external (Path.withExtension source identifier) none)
        (.external (Path.withExtension source identifier) none)
  | kept {digits suffix : Text} (h : Text.IsNatural digits)
      (hnone : g (Path.withExtension source (digits ++ '.' :: suffix)) = false) :
      Becomes source g (digits ++ '.' :: suffix)
        (.external (Path.withExtension source suffix) (some (Text.natural digits)))
        (.external (Path.withExtension source suffix) (some (Text.natural digits)))
  | shadowed {digits suffix : Text} (h : Text.IsNatural digits)
      (hnew : g (Path.withExtension source (digits ++ '.' :: suffix)) = true) :
      Becomes source g (digits ++ '.' :: suffix)
        (.external (Path.withExtension source suffix) (some (Text.natural digits)))
        (.external (Path.withExtension source (digits ++ '.' :: suffix)) none)

namespace TrackSource.StandsFor

variable {identifier : Text} {found found' : TrackSource}

/-- An identifier that stands for something among some files does so among more files. -/
theorem exists_of_le (h : ∀ path, f path = true → g path = true)
    (hfound : StandsFor source (FileSystem.ofFiles f) identifier found) :
    ∃ found', StandsFor source (FileSystem.ofFiles g) identifier found' := by
  cases hfound with
  | stream hstream => exact ⟨_, .stream hstream⟩
  | file hno hfile =>
      have hnext := h _ (FileSystem.ofFiles_eq_ok_iff.1 hfile)
      exact ⟨_, .file hno (FileSystem.ofFiles_eq_ok_iff.2 hnext)⟩
  | @numbered digits suffix hdigits hne hline hfree hfile =>
      have hnext := h _ (FileSystem.ofFiles_eq_ok_iff.1 hfile)
      cases hnew : g (Path.withExtension source (digits ++ '.' :: suffix)) with
      | true =>
          exact ⟨_, .file (Identifier.not_isStream_numbered digits suffix)
            (FileSystem.ofFiles_eq_ok_iff.2 hnew)⟩
      | false =>
          exact ⟨_, .numbered hdigits hne hline (FileSystem.ofFiles_eq_ok_iff.2 hnew)
            (FileSystem.ofFiles_eq_ok_iff.2 hnext)⟩

/-- **What an identifier becomes among more files.** -/
theorem becomes (h : ∀ path, f path = true → g path = true)
    (hfound : StandsFor source (FileSystem.ofFiles f) identifier found)
    (hfound' : StandsFor source (FileSystem.ofFiles g) identifier found') :
    Becomes source g identifier found found' := by
  cases hfound with
  | stream hstream =>
      cases hfound' with
      | stream => exact .stream _ _
      | file hno => exact absurd hstream hno
      | numbered => exact absurd hstream (Identifier.not_isStream_numbered _ _)
  | file hno hfile =>
      have hnext := h _ (FileSystem.ofFiles_eq_ok_iff.1 hfile)
      cases hfound' with
      | stream hstream => exact absurd hstream hno
      | file => exact .file _
      | numbered _ _ _ hfree =>
          rw [FileSystem.ofFiles_eq_ok_iff.1 hfree] at hnext
          exact absurd hnext (by simp)
  | @numbered digits suffix hdigits =>
      generalize hid : digits ++ '.' :: suffix = identifier at hfound'
      cases hfound' with
      | stream hstream => exact absurd (hid ▸ hstream) (Identifier.not_isStream_numbered _ _)
      | file _ hnew =>
          subst hid
          exact .shadowed hdigits.1 (FileSystem.ofFiles_eq_ok_iff.1 hnew)
      | @numbered digits' suffix' hdigits' _ _ hfree =>
          -- an identifier falls apart at its number in one way only
          obtain ⟨hread, hrest⟩ := Identifier.digits_dot hdigits.1.2 suffix
          obtain ⟨hread', hrest'⟩ := Identifier.digits_dot hdigits'.1.2 suffix'
          rw [hid, hread'] at hread
          rw [hid, hrest'] at hrest
          obtain ⟨_, rfl⟩ := List.cons.inj hrest
          subst hread
          exact .kept hdigits.1 (FileSystem.ofFiles_eq_ok_iff.1 hfree)

end TrackSource.StandsFor

/-- What a track becomes: its tags stay. -/
structure Track.Becomes (source : Text) (g : Text → Bool) (ref : TrackRef) (t t' : Track) :
    Prop where
  source : TrackSource.Becomes source g ref.identifier t.source t'.source
  enabled : t'.enabled = t.enabled
  forced : t'.forced = t.forced

theorem TrackRef.StandsFor.becomes (h : ∀ path, f path = true → g path = true) {ref : TrackRef}
    {t t' : Track} (ht : ref.StandsFor source (FileSystem.ofFiles f) t)
    (ht' : ref.StandsFor source (FileSystem.ofFiles g) t') : Track.Becomes source g ref t t' where
  source := ht.found.becomes h ht'.found
  enabled := by rw [ht.enabled, ht'.enabled]
  forced := by rw [ht.forced, ht'.forced]

/-! ### What becomes of an output -/

/-- What the output of a segment becomes.  Everything but the tracks stays, and the tracks, which
are those of the last lists of the segment, become what the references in these lists do. -/
structure Output.Becomes (source : Text) (g : Text → Bool) (segment : Text) (o o' : Output) :
    Prop where
  trackless : o'.trackless = o.trackless
  audio : Forall₃ (Track.Becomes source g)
    (Setting.lastList Setting.audioList? (Segment.scan segment).clauses) o.audioTracks
    o'.audioTracks
  subtitles : Forall₃ (Track.Becomes source g)
    (Setting.lastList Setting.subtitleList? (Segment.scan segment).clauses) o.subtitleTracks
    o'.subtitleTracks

/-- Settings that a clause stands for in two file systems differ in their tracks only. -/
theorem Clause.StandsFor.trackless_eq {fs fs' : FileSystem} {clause : Clause} {token token' : Token}
    (h : clause.StandsFor source fs token) (h' : clause.StandsFor source fs' token') :
    token.trackless = token'.trackless := by
  cases h <;> cases h' <;> rfl

/-- Settings that clauses stand for in two file systems differ in their tracks only. -/
theorem Clause.map_trackless_eq {fs fs' : FileSystem} {clauses : List Clause}
    {tokens tokens' : List Token} (h : List.Forall₂ (StandsFor source fs) clauses tokens)
    (h' : List.Forall₂ (StandsFor source fs') clauses tokens') :
    tokens.map Token.trackless = tokens'.map Token.trackless := by
  induction h generalizing tokens' with
  | nil =>
      cases h'
      rfl
  | cons hfound _ ih =>
      cases h' with
      | cons hfound' hmore' =>
          rw [List.map_cons, List.map_cons, hfound.trackless_eq hfound', ih hmore']

/-- **What the output of a segment becomes among more files.** -/
theorem Specification.Describes.becomes (h : ∀ path, f path = true → g path = true)
    {segment : Text} {o o' : Output} (ho : Describes source (FileSystem.ofFiles f) segment o)
    (ho' : Describes source (FileSystem.ofFiles g) segment o') :
    Output.Becomes source g segment o o' := by
  obtain ⟨tokens, htokens, hresolve⟩ := ho
  obtain ⟨tokens', htokens', hresolve'⟩ := ho'
  obtain ⟨_, hstands⟩ := Segment.yields_settings_iff.1 htokens
  obtain ⟨_, hstands'⟩ := Segment.yields_settings_iff.1 htokens'
  have htrackless := Output.trackless_resolve_congr (Clause.map_trackless_eq hstands hstands')
  rw [hresolve, hresolve'] at htrackless
  have hbecomes : ∀ (ref : TrackRef) (t t' : Track),
      ref.StandsFor source (FileSystem.ofFiles f) t →
      ref.StandsFor source (FileSystem.ofFiles g) t' → Track.Becomes source g ref t t' :=
    fun _ _ _ ht ht' => ht.becomes h ht'
  refine ⟨(Except.ok.inj htrackless).symm, ?_, ?_⟩
  · rw [Output.audioTracks_of_resolve hresolve, Output.audioTracks_of_resolve hresolve']
    exact forall₃_of_forall₂ hbecomes (Setting.forall₂_lastList_audio hstands)
      (Setting.forall₂_lastList_audio hstands')
  · rw [Output.subtitleTracks_of_resolve hresolve, Output.subtitleTracks_of_resolve hresolve']
    exact forall₃_of_forall₂ hbecomes (Setting.forall₂_lastList_subtitle hstands)
      (Setting.forall₂_lastList_subtitle hstands')

/-! ### Specifications persist -/

section Persistence

variable (h : ∀ path, f path = true → g path = true)

include h

/-- What is found is found among more files, and nothing is refused but for a missing file. -/
theorem TrackSource.persists_find (source identifier : Text) :
    Attempt.Persists (FileSystem.ofFiles f) (FileSystem.ofFiles g) (find source identifier)
      (find source identifier) where
  yields := by
    intro found hfound
    obtain ⟨found', hfound'⟩ := (yields_find_iff.1 hfound).exists_of_le h
    exact ⟨found', yields_find_iff.2 hfound'⟩
  refuses := by
    intro e htext he
    exact absurd (refuses_find_iff.1 he).2 (htext _ _)

theorem TrackRef.persists_find (source : Text) (ref : TrackRef) :
    Attempt.Persists (FileSystem.ofFiles f) (FileSystem.ofFiles g) (find source ref)
      (find source ref) := by
  unfold find
  rw [Attempt.map_eq_bind]
  exact (TrackSource.persists_find h source ref.identifier).bind fun _ _ _ _ => .pure _ _

theorem Clause.persists_find (source : Text) (clause : Clause) :
    Attempt.Persists (FileSystem.ofFiles f) (FileSystem.ofFiles g) (clause.find source)
      (clause.find source) := by
  unfold find
  cases clause with
  | audioTracks refs | subtitleTracks refs =>
      exact (Attempt.Persists.mapM fun ref _ => TrackRef.persists_find h source ref).bind
        fun _ _ _ _ => .pure _ _
  | _ => exact .pure _ _

theorem Fault.persists_raise {α : Type} (source : Text) (fault : Fault) :
    Attempt.Persists (FileSystem.ofFiles f) (FileSystem.ofFiles g)
      (fault.raise source : Attempt α) (fault.raise source) := by
  unfold raise
  exact (Attempt.Persists.mapM fun ref _ => TrackRef.persists_find h source ref).bind
    fun _ _ _ _ => .throw _

theorem Segment.persists_parse (source s : Text) :
    Attempt.Persists (FileSystem.ofFiles f) (FileSystem.ofFiles g) (parse source s)
      (parse source s) := by
  unfold parse resolve
  refine (Attempt.Persists.mapM fun clause _ => Clause.persists_find h source clause).bind ?_
  intro tokens tokens' _ _
  cases (scan s).fault with
  | none => exact .pure _ _
  | some fault => exact Fault.persists_raise h source fault

namespace Specification

/-- What a segment describes is described among more files: applying its settings does not depend on
the tracks. -/
theorem persists_describe (source segment : Text) :
    Attempt.Persists (FileSystem.ofFiles f) (FileSystem.ofFiles g)
      (describe Output.resolve source segment) (describe Output.resolve source segment) := by
  unfold describe
  refine (Segment.persists_parse h source segment).bind ?_
  intro tokens tokens' htokens htokens'
  have heq := Output.trackless_resolve_congr (Clause.map_trackless_eq
    (Segment.yields_settings_iff.1 htokens).2 (Segment.yields_settings_iff.1 htokens').2)
  refine .ofExcept ?_ ?_
  · intro o ho
    rw [ho] at heq
    cases ho' : Output.resolve tokens' with
    | error e => simp [ho', Except.map] at heq
    | ok o' => exact ⟨o', rfl⟩
  · intro e he
    rw [he] at heq
    cases ho' : Output.resolve tokens' with
    | error e' =>
        rw [ho'] at heq
        rw [Except.error.inj heq]
    | ok o' => simp [ho', Except.map] at heq

theorem persists_resolve (source : Text) (spec : Option Text) :
    Attempt.Persists (FileSystem.ofFiles f) (FileSystem.ofFiles g) (resolve source spec)
      (resolve source spec) := by
  refine .congr (trace_resolve source spec _) (trace_resolve source spec _) (.mapM ?_)
  exact fun segment _ => persists_describe h source segment

end Specification

end Persistence

namespace Specification

/-- **Adding files never breaks a specification.**  Among more files a specification that describes
outputs describes as many, and they become what the references in their segments do; and a
specification that is refused, but not for a missing file, is refused with the same error. -/
theorem resolve_of_more_files (source : Text) (spec : Option Text) (f g : Text → Bool)
    (h : ∀ path, f path = true → g path = true) :
    (∀ outputs, (resolve source spec).Yields (FileSystem.ofFiles f) outputs →
        ∃ outputs', (resolve source spec).Yields (FileSystem.ofFiles g) outputs' ∧
          outputs'.length = outputs.length ∧
          Forall₃ (Output.Becomes source g) (resolvedSegments spec) outputs outputs') ∧
      ∀ e : ParseError, (∀ identifier path, e ≠ .missingTrackFile identifier path) →
        (resolve source spec).Refuses (FileSystem.ofFiles f) e →
        (resolve source spec).Refuses (FileSystem.ofFiles g) e := by
  have hpersists := persists_resolve h source spec
  refine ⟨?_, hpersists.refuses⟩
  intro outputs houtputs
  obtain ⟨outputs', houtputs'⟩ := hpersists.yields outputs houtputs
  have hdescribes := yields_resolve_iff.1 houtputs
  have hdescribes' := yields_resolve_iff.1 houtputs'
  refine ⟨outputs', houtputs', ?_, ?_⟩
  · rw [← hdescribes.length_eq, ← hdescribes'.length_eq]
  · exact forall₃_of_forall₂ (fun _ _ _ ho ho' => ho.becomes h ho') hdescribes hdescribes'

/-- A file that is named by the whole identifier takes the place of a numbered track. -/
theorem resolve_of_more_files_shadowed :
    let f := fun path => path == "film.ac3".toList
    let g := fun path => path == "film.ac3".toList || path == "film.1.ac3".toList
    let spec := resolve "film.mkv".toList (some "at=1.ac3-e".toList)
    let o := { Output.default with
      audioTracks := [⟨.external "film.ac3".toList (some 1), true, false⟩] }
    let o' := { Output.default with
      audioTracks := [⟨.external "film.1.ac3".toList none, true, false⟩] }
    (∀ path, f path = true → g path = true) ∧ spec.Yields (FileSystem.ofFiles f) [o] ∧
      spec.Yields (FileSystem.ofFiles g) [o'] ∧
      Output.Becomes "film.mkv".toList g "at=1.ac3-e".toList o o' := by
  intro f g spec o o'
  have h : ∀ path, f path = true → g path = true := by
    intro path hpath
    simp only [g, Bool.or_eq_true]
    exact Or.inl hpath
  have hyields : spec.Yields (FileSystem.ofFiles f) [o] := by
    unfold Attempt.Yields
    decide +kernel
  have hyields' : spec.Yields (FileSystem.ofFiles g) [o'] := by
    unfold Attempt.Yields
    decide +kernel
  have hsegments : resolvedSegments (some "at=1.ac3-e".toList) = ["at=1.ac3-e".toList] := by
    decide +kernel
  obtain ⟨outputs', houtputs', _, hbecomes⟩ := (resolve_of_more_files _ _ f g h).1 _ hyields
  obtain rfl := houtputs'.unique hyields'
  rw [hsegments] at hbecomes
  cases hbecomes with
  | cons hbecomes _ => exact ⟨h, hyields, hyields', hbecomes⟩

end Specification

end Transcode

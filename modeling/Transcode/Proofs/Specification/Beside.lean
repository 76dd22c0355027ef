/-
**A specification never reaches beyond the siblings of the source.**

Whatever a specification says, and whatever files there are, resolving it asks only about siblings
of the source, refuses it for no missing file but a sibling, and yields outputs whose track files
are siblings.  This is one property of computations, and it is kept by everything that resolution
is composed of: the references that are read are named by identifiers, looking an identifier up
touches only siblings, and applying settings brings in no tracks but theirs.

Main definitions:

* `Transcode.Token.LiesBeside`, `Transcode.Output.LiesBeside` — all tracks of a setting, and of an
  output, lie beside a source.

Main results:

* `Transcode.Clause.HasListed.isWellFormed`, `Transcode.Segment.isWellFormed_of_mem_clauses` — what
  is looked up is named by identifiers;
* `Transcode.Segment.confined_parse`, `Transcode.Specification.confined_resolve` — segments and
  specifications touch only siblings;
* `Transcode.Specification.resolve_touches_siblings` — **a specification never reaches beyond the
  siblings of the source**.
-/

import Transcode.Proofs.Clause.Refusal
import Transcode.Proofs.Output.Fold
import Transcode.Proofs.Specification.Outcome
import Transcode.Proofs.Track.Sibling

set_option relaxedAutoImplicit false
set_option autoImplicit false

namespace Transcode

/-! ### What is looked up is named by identifiers -/

theorem TrackRef.Denotes.isWellFormed {written : Text} {ref : TrackRef} (h : Denotes written ref) :
    Identifier.IsWellFormed ref.identifier := by
  cases h with
  | plain hid => exact hid
  | tagged hid => exact hid

theorem TrackRef.DenotesList.isWellFormed {written : Text} {refs : List TrackRef}
    (h : DenotesList written refs) : ∀ ref ∈ refs, Identifier.IsWellFormed ref.identifier := by
  induction h with
  | single href => simpa using href.isWellFormed
  | cons href _ ih =>
      intro ref hmem
      rcases List.mem_cons.1 hmem with rfl | hmem
      · exact href.isWellFormed
      · exact ih ref hmem

theorem Clause.HasListed.isWellFormed {s identifier : Text} (h : HasListed s identifier) :
    Identifier.IsWellFormed identifier := by
  obtain ⟨_, _, _, _, _, _, _, _, _, _, hlist, _, ref, href, rfl⟩ := h
  exact hlist.isWellFormed ref href

namespace Segment

/-- The tracks that a segment refers to are named by identifiers. -/
theorem isWellFormed_of_mem_clauses {s : Text} {clause : Clause} {ref : TrackRef}
    (h : clause ∈ (scan s).clauses) (href : ref ∈ clause.tracks) :
    Identifier.IsWellFormed ref.identifier := by
  fun_induction scan s with
  | case1 | case2 => exact absurd h (by simp)
  | case3 s hs first rest hfirst more ih =>
      rcases List.mem_cons.1 h with rfl | hmore
      · exact (Clause.hasListed_of_mem_tracks hfirst href).isWellFormed
      · exact ih hmore

/-- The fault of a segment is that of a clause that cannot be read. -/
theorem exists_unreadable_of_fault {s : Text} {fault : Fault} (h : (scan s).fault = some fault) :
    ∃ r, Clause.Unreadable r fault := by
  fun_induction scan s with
  | case1 => exact absurd h (by simp)
  | case2 s hs f hf =>
      obtain rfl := Option.some.inj h
      exact ⟨_, Clause.unreadable_of_scan hf⟩
  | case3 s hs clause rest hclause more ih => exact ih h

end Segment

/-! ### Errors that are about no file -/

theorem Clause.ValueRefusal.isOfText {value : Text} {f : Filter} {e : ParseError}
    (h : ValueRefusal value f e) : e.IsOfText := by
  rintro identifier path rfl
  cases h with
  | quoted _ _ he => cases f <;> simp [Filter.complaint?] at he
  | shapeless _ _ he => simp [Filter.complaint?] at he
  | sides _ _ _ he => cases he

theorem Clause.Unreadable.isOfText {r : Text} {fault : Fault} (h : Unreadable r fault) :
    fault.error.IsOfText := by
  cases h with
  | unkeyed | brokenList => exact fun _ _ => by simp
  | value _ _ _ hvalue => exact hvalue.isOfText

theorem ParseError.IsOfText.of_isRangeError {e : ParseError} (h : e.isRangeError = true) :
    e.IsOfText := by
  rintro identifier path rfl
  exact absurd h (by simp [isRangeError])

/-! ### Segments -/

variable {source : Text} {fs : FileSystem}

/-- Replacing the tracks of a setting touches what replacing each of them does. -/
theorem Setting.confined_traverse {σ τ : Type} {P : Text → Prop} {Q : τ → Prop}
    {f : σ → Attempt τ} {s : Setting σ} (h : ∀ t ∈ s.tracks, Attempt.Confined fs P Q (f t)) :
    Attempt.Confined fs P (fun s' => ∀ t ∈ s'.tracks, Q t) (traverse f s) := by
  cases s with
  | audioTracks ts | subtitleTracks ts =>
      exact (Attempt.Confined.mapM h).bind fun _ hts => .pure hts
  | _ => exact .pure (by simp [tracks])

/-- All tracks of a setting lie beside a source. -/
def Token.LiesBeside (source : Text) (token : Token) : Prop :=
  ∀ t ∈ token.tracks, t.source.LiesBeside source

/-- A fault touches only siblings, and is refused for no missing file of its own. -/
theorem Fault.confined_raise {α : Type} {Q : α → Prop} {r : Text} {fault : Fault}
    (h : Clause.Unreadable r fault) :
    Attempt.Confined fs (Path.IsSibling source) Q (fault.raise source) := by
  unfold raise
  refine (Attempt.Confined.mapM fun ref href =>
    TrackRef.confined_find (h.hasListed href).isWellFormed).bind ?_
  intro _ _
  exact .throw fun identifier path he => absurd he (h.isOfText identifier path)

/-- Reading a segment touches only siblings. -/
theorem Segment.confined_parse (s : Text) :
    Attempt.Confined fs (Path.IsSibling source) (fun tokens => ∀ t ∈ tokens, t.LiesBeside source)
      (parse source s) := by
  have hfind : ∀ clause ∈ (scan s).clauses,
      Attempt.Confined fs (Path.IsSibling source) (Token.LiesBeside source)
        (clause.find source) := by
    intro clause hclause
    refine Setting.confined_traverse ?_
    intro ref href
    exact TrackRef.confined_find (isWellFormed_of_mem_clauses hclause href)
  unfold parse resolve
  refine (Attempt.Confined.mapM hfind).bind ?_
  intro tokens htokens
  cases hfault : (scan s).fault with
  | none => exact .pure htokens
  | some fault =>
      obtain ⟨_, hunreadable⟩ := exists_unreadable_of_fault hfault
      exact Fault.confined_raise hunreadable

/-! ### Outputs -/

/-- All tracks of an output lie beside a source. -/
def Output.LiesBeside (source : Text) (o : Output) : Prop :=
  ∀ t ∈ o.tracks, t.source.LiesBeside source

/-- Settings whose tracks lie beside a source describe such outputs. -/
theorem Output.liesBeside_of_resolve {tokens : List Token} {o : Output}
    (htokens : ∀ t ∈ tokens, t.LiesBeside source) (h : resolve tokens = .ok o) :
    o.LiesBeside source := by
  have hstart : (start tokens).LiesBeside source :=
    fun t ht => absurd ht (by simp [start, ofEncoder, tracks])
  refine applyAll_induction (P := Output.LiesBeside source) hstart h ?_
  intro o token htoken hkept _ t ht
  rcases mem_tracks_put ht with hnew | hold
  · exact htokens token htoken t hnew
  · exact hkept t hold

namespace Specification

/-- Resolving a specification touches only siblings. -/
theorem confined_resolve (source : Text) (spec : Option Text) (fs : FileSystem) :
    Attempt.Confined fs (Path.IsSibling source) (fun outputs => ∀ o ∈ outputs, o.LiesBeside source)
      (resolve source spec) := by
  refine .congr (trace_resolve source spec fs) (.mapM ?_)
  intro segment _
  unfold describe
  refine (Segment.confined_parse segment).bind ?_
  intro tokens htokens
  refine .ofExcept (fun o ho => Output.liesBeside_of_resolve htokens ho) ?_
  intro identifier path herror
  exact ParseError.IsOfText.of_isRangeError (Output.isRangeError_of_applyAll herror)
    identifier path rfl

/-- **A specification never reaches beyond the siblings of the source.**  In every file system, what
is asked about, the files of the tracks in the outputs, and the file that is reported as missing
are siblings of the source. -/
theorem resolve_touches_siblings (source : Text) (spec : Option Text) (fs : FileSystem) :
    (∀ path ∈ ((resolve source spec).trace fs).probes, Path.IsSibling source path) ∧
      (∀ outputs, (resolve source spec).Yields fs outputs →
        ∀ o ∈ outputs, ∀ t ∈ o.tracks, ∀ path index, t.source = .external path index →
          Path.IsSibling source path) ∧
      ∀ identifier path, (resolve source spec).Refuses fs (.missingTrackFile identifier path) →
        Path.IsSibling source path :=
  have h := confined_resolve source spec fs
  ⟨h.probes, h.yields, h.missing⟩

/-- A source that only goes up: its stem is `..`, and the track is found beside it. -/
theorem resolve_touches_siblings_up :
    let run := (resolve "../..".toList (some "at=1.srt".toList)).trace
      (FileSystem.ofFiles fun path => path == "../...srt".toList)
    run.probes = ["../...1.srt".toList, "../...srt".toList] ∧
      ∀ path ∈ run.probes, Path.IsSibling "../..".toList path :=
  ⟨by decide +kernel, (resolve_touches_siblings _ _ _).1⟩

end Specification

end Transcode

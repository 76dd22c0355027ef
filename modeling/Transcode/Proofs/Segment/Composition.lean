/-
**Segments compose over separators.**

What a segment says is what its parts say, one after the other: where a separator stands, nothing
before it is read differently because of what comes after it.  If the part before it is refused,
then with the same error, only that what is left unrecognized goes on to the end; and nothing after
it is looked up.

Main definitions:

* `Transcode.Segment.followedBy` — the clauses of a segment that goes on.

Main results:

* `Transcode.Segment.scan_append` — the clauses of a segment that goes on with a separator;
* `Transcode.Segment.parse_append` — the same with tracks looked up, as one computation;
* `Transcode.Segment.trace_parse_separated` — **how the run of two parts with separators between
  them ends, and what it asks about**.
-/

import Transcode.Proofs.Clause.Locality
import Transcode.Proofs.Lookup.Outcome

set_option relaxedAutoImplicit false
set_option autoImplicit false

namespace Transcode

/-! ### Clauses and faults -/

namespace Segment

variable {t : Text}

/-- The clauses of a segment that goes on: unless there is a fault, the clauses of what follows come
after them. -/
def followedBy (t : Text) (segment : Segment) : Segment :=
  match segment.fault with
  | none => ⟨segment.clauses ++ (scan t).clauses, (scan t).fault⟩
  | some fault => ⟨segment.clauses, some (fault.followedBy t)⟩

theorem skip_append_of_eq_nil {s : Text} (h : skip s = []) (t : Text) : skip (s ++ t) = skip t := by
  unfold skip at *
  rw [List.dropWhile_append, h]
  rfl

theorem skip_append_of_ne_nil {s : Text} (h : skip s ≠ []) (t : Text) :
    skip (s ++ t) = skip s ++ t := by
  unfold skip at *
  rw [List.dropWhile_append, if_neg (by simpa using h)]

theorem skip_skip (s : Text) : skip (skip s) = skip s := by
  have hread := Text.dropWhile_append_of_stops (w := []) (by simp)
    (Text.stops_dropWhile isSeparator s)
  exact hread

/-- Separators in front of a segment do not count. -/
theorem scan_skip (s : Text) : scan (skip s) = scan s := by
  by_cases h : skip s = []
  · rw [scan_of_blank h, h, scan_of_blank rfl]
  · have h' : skip (skip s) ≠ [] := by rwa [skip_skip]
    cases hc : Clause.scan (skip s) with
    | error fault =>
        rw [scan_of_error h hc, scan_of_error h' (by rw [skip_skip, hc])]
    | ok r =>
        rw [scan_of_ok h hc, scan_of_ok h' (by rw [skip_skip, hc])]

/-- Separators between two parts of a segment may be read with the second part. -/
theorem scan_separators_append {sep : Text} (hsep : ∀ c ∈ sep, isSeparator c = true) (s : Text) :
    scan (sep ++ s) = scan s := by
  have hskip : skip sep = [] := by
    have hdrop := Text.dropWhile_append_of_stops hsep (Text.stops_nil isSeparator)
    rwa [List.append_nil] at hdrop
  rw [← scan_skip, skip_append_of_eq_nil hskip, scan_skip]

theorem followedBy_cons (clause : Clause) (segment : Segment) :
    followedBy t ⟨clause :: segment.clauses, segment.fault⟩ =
      ⟨clause :: (followedBy t segment).clauses, (followedBy t segment).fault⟩ := by
  unfold followedBy
  cases segment.fault <;> rfl

/-- **The clauses of a segment that goes on with a separator.** -/
theorem scan_append (ht : IsBoundary t) (s : Text) : scan (s ++ t) = followedBy t (scan s) := by
  fun_induction scan s with
  | case1 s hblank =>
      rw [← scan_skip, skip_append_of_eq_nil hblank, scan_skip]
      rfl
  | case2 s hs fault hfault =>
      have hskip := skip_append_of_ne_nil hs t
      have hclause : Clause.scan (skip (s ++ t)) = .error (fault.followedBy t) := by
        rw [hskip, Clause.scan_append ht, hfault]
        rfl
      exact scan_of_error (by simp [hskip, hs]) hclause
  | case3 s hs clause rest hclause more ih =>
      have hskip := skip_append_of_ne_nil hs t
      have hnext : Clause.scan (skip (s ++ t)) = .ok (clause, rest ++ t) := by
        rw [hskip, Clause.scan_append ht, hclause]
        rfl
      rw [scan_of_ok (by simp [hskip, hs]) hnext, ih, followedBy_cons]

end Segment

/-! ### Look-ups -/

/-- A look-up refuses with an error that leaves nothing unrecognized. -/
theorem TrackSource.reword_find (t source identifier : Text) :
    Attempt.reword (ParseError.followedBy t) (find source identifier) = find source identifier := by
  unfold find
  cases Identifier.stream? identifier with
  | some index => rfl
  | none =>
      simp only
      rw [Attempt.reword_ifFile]
      cases Identifier.numbered? identifier with
      | none => rfl
      | some entry =>
          simp only
          rw [Attempt.reword_ifFile]
          rfl

theorem TrackRef.reword_find (t source : Text) (ref : TrackRef) :
    Attempt.reword (ParseError.followedBy t) (find source ref) = find source ref := by
  unfold find
  rw [Attempt.map_eq_bind, Attempt.reword_bind, TrackSource.reword_find]
  rfl

theorem Clause.reword_find (t source : Text) (clause : Clause) :
    Attempt.reword (ParseError.followedBy t) (find source clause) = find source clause := by
  unfold find
  cases clause with
  | audioTracks refs | subtitleTracks refs =>
      simp only [Setting.traverse]
      rw [Attempt.reword_bind, Attempt.reword_mapM fun ref _ => TrackRef.reword_find t source ref]
      rfl
  | _ => rfl

theorem Fault.reword_raise {α : Type} (t source : Text) (fault : Fault) :
    Attempt.reword (ParseError.followedBy t) (fault.raise source : Attempt α) =
      (fault.followedBy t).raise source := by
  unfold raise
  rw [Attempt.reword_bind, Attempt.reword_mapM fun ref _ => TrackRef.reword_find t source ref]
  rfl

/-- A fault ends a computation, whatever was to come after it. -/
theorem Fault.raise_bind {α β : Type} (source : Text) (fault : Fault) (f : α → Attempt β) :
    fault.raise source >>= f = fault.raise source := by
  unfold raise
  rw [bind_assoc]
  rfl

namespace Segment

variable {t : Text}

/-- **The settings of a segment that goes on with a separator** are those of its parts; the second
part is not looked at if the first is refused. -/
theorem parse_append (source : Text) (ht : IsBoundary t) (s : Text) :
    parse source (s ++ t) = do
      let first ← Attempt.reword (ParseError.followedBy t) (parse source s)
      let second ← parse source t
      return first ++ second := by
  have hfind : ∀ clauses : List Clause,
      Attempt.reword (ParseError.followedBy t) (clauses.mapM (Clause.find source)) =
        clauses.mapM (Clause.find source) := fun clauses =>
    Attempt.reword_mapM fun clause _ => Clause.reword_find t source clause
  unfold parse
  rw [scan_append ht]
  unfold resolve followedBy
  cases (scan s).fault with
  | none =>
      -- the look-ups of the second part, and its fault if it has one, come after those of the first
      rw [Attempt.reword_bind, hfind, List.mapM_append]
      simp only [Attempt.reword_pure, bind_assoc, pure_bind]
      cases (scan t).fault with
      | none => rfl
      | some fault => simp only [Fault.raise_bind]
  | some fault =>
      -- the fault is raised before the second part has its turn
      rw [Attempt.reword_bind, hfind, bind_assoc]
      simp only [Fault.reword_raise, Fault.raise_bind]

/-- **How the run of two parts with separators between them ends, and what it asks about.**  If the
first part is refused, or a question of it fails, nothing of the second part is asked. -/
theorem trace_parse_separated (source : Text) (fs : FileSystem) (s₁ s₂ : Text) {sep : Text}
    (hne : sep ≠ []) (hsep : ∀ c ∈ sep, isSeparator c = true) :
    let first := (parse source s₁).trace fs
    let second := (parse source s₂).trace fs
    (parse source (s₁ ++ sep ++ s₂)).trace fs =
      match first.result with
      | .ok (.ok tokens) =>
        ⟨second.result.map (Except.map (tokens ++ ·)), first.probes ++ second.probes⟩
      | .ok (.error e) => ⟨.ok (.error (e.followedBy (sep ++ s₂))), first.probes⟩
      | .error message => ⟨.error message, first.probes⟩ := by
  intro first second
  have ht : IsBoundary (sep ++ s₂) := by
    obtain ⟨c, sep, rfl⟩ := List.exists_cons_of_ne_nil hne
    exact isBoundary_cons.2 (hsep c (by simp))
  have hsecond : parse source (sep ++ s₂) = parse source s₂ := by
    unfold parse
    rw [scan_separators_append hsep]
  rw [List.append_assoc, parse_append source ht, hsecond, Attempt.trace_bind, Attempt.trace_reword]
  change Trace.andThen ⟨first.result.map _, first.probes⟩ _ = _
  cases first.result with
  | error message => rfl
  | ok result =>
      cases result with
      | error e =>
          simp only [Except.map, Except.mapError, Trace.ok_andThen, List.append_nil]
      | ok tokens =>
          -- the second part runs, and its settings are put behind those of the first
          simp only [Except.map, Except.mapError, Trace.ok_andThen]
          rw [Attempt.trace_map]
          rfl

/-- A list that is broken off is refused with all that follows it, after the references before it
were looked up. -/
theorem trace_parse_broken_list :
    (parse "film.mkv".toList ("at=srt|".toList ++ ",".toList ++ "q=30".toList)).trace
        (FileSystem.ofFiles fun _ => true) =
      ⟨.ok (.error (.unrecognizedFilter "at=srt|,q=30".toList)), ["film.srt".toList]⟩ := by
  have hscan : scan "at=srt|".toList =
      ⟨[], some ⟨[⟨"srt".toList, false, false⟩], .unrecognizedFilter "at=srt|".toList⟩⟩ := by
    decide +kernel
  rw [trace_parse_separated _ _ _ _ (by decide) (List.all_eq_true.1 (by decide)), parse, hscan]
  rfl

end Segment

end Transcode

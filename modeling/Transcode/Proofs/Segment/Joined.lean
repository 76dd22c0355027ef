/-
**Clauses joined by commas.**

A text that is a clause and nothing else may be put behind others, with a comma between them: the
comma ends what stands before it, and it is skipped before what comes next.  So every clause is read
and looked up as it is alone, and the text that they are joined to is a segment of its own among
others.

Main results:

* `Transcode.Clause.scan_whole_iff` — a text is read whole as what it denotes;
* `Transcode.Segment.scan_joined` — the clauses of a text that they are joined to;
* `Transcode.Segment.semicolon_not_mem_joined`, `Transcode.Segment.not_isBlank_joined` — such a text
  is a segment of its own among others;
* `Transcode.Segment.parse_joined` — **clauses joined by commas are looked up one by one**;
* `Transcode.Segment.trace_parse_joined` — what they ask about.
-/

import Mathlib.Data.List.Forall2
import Transcode.Proofs.Segment.Composition

set_option relaxedAutoImplicit false
set_option autoImplicit false

namespace Transcode

/-! ### Clauses alone -/

namespace Clause

/-- The end of a text continues no clause. -/
theorem stopsBefore_nil (clause : Clause) : clause.StopsBefore [] := by
  cases clause with
  | audioTracks refs | subtitleTracks refs =>
      intro ref _
      unfold TrackRef.StopsBefore
      split <;> simp
  | audioNormalize => exact trivial
  | _ => exact Text.stops_nil _

/-- A text is read whole as what it denotes. -/
theorem scan_whole_iff {w : Text} {clause : Clause} :
    scan w = .ok (clause, []) ↔ Denotes w clause := by
  rw [scan_eq_ok_iff]
  constructor
  · rintro ⟨written, rfl, hden, _⟩
    rwa [List.append_nil]
  · intro hden
    exact ⟨w, (List.append_nil w).symm, hden, stopsBefore_nil clause⟩

theorem Denotes.ne_nil {w : Text} {clause : Clause} (h : Denotes w clause) : w ≠ [] := by
  have hlength := length_scan_lt (scan_whole_iff.2 h)
  rintro rfl
  exact absurd hlength (by simp)

/-- A text that yields a setting and leaves nothing is a clause. -/
theorem exists_denotes_of_yields {source w : Text} {fs : FileSystem} {token : Token}
    (h : (parse source w).Yields fs (token, [])) : ∃ clause, Denotes w clause := by
  obtain ⟨clause, hscan, _⟩ := exists_scan_of_yields h
  exact ⟨clause, scan_whole_iff.1 hscan⟩

end Clause

/-! ### Joined parts -/

/-- A character of joined parts is one of the separator or of a part. -/
theorem Text.mem_of_mem_intercalate {sep : Text} {parts : List Text} {c : Char}
    (h : c ∈ sep.intercalate parts) : c ∈ sep ∨ ∃ part ∈ parts, c ∈ part := by
  induction parts with
  | nil => exact absurd h (by simp)
  | cons part parts ih =>
      cases parts with
      | nil =>
          rw [List.intercalate_singleton] at h
          exact Or.inr ⟨part, by simp, h⟩
      | cons next parts =>
          rw [List.intercalate_cons_cons, List.append_assoc, List.mem_append, List.mem_append] at h
          rcases h with hpart | hsep | hmore
          · exact Or.inr ⟨part, by simp, hpart⟩
          · exact Or.inl hsep
          · rcases ih hmore with hsep | ⟨later, hlater, hc⟩
            · exact Or.inl hsep
            · exact Or.inr ⟨later, by simp [hlater], hc⟩

namespace Segment

variable {parts : List Text}

/-! ### Joined clauses -/

/-- A clause begins with no separator. -/
theorem skip_of_denotes {w : Text} {clause : Clause} (h : Clause.Denotes w clause) :
    skip w = w := by
  obtain ⟨c, w, rfl⟩ := List.exists_cons_of_ne_nil h.ne_nil
  have hc := (Clause.not_separator_of_isWritten (h.isWritten c (by simp))).1
  simp [skip, hc]

/-- A clause alone is a segment. -/
theorem scan_of_denotes {w : Text} {clause : Clause} (h : Clause.Denotes w clause) :
    scan w = ⟨[clause], none⟩ := by
  have hskip := skip_of_denotes h
  have hne : skip w ≠ [] := by
    rw [hskip]
    exact h.ne_nil
  have hscan : Clause.scan (skip w) = .ok (clause, []) := by
    rw [hskip]
    exact Clause.scan_whole_iff.2 h
  rw [scan_of_ok hne hscan, scan_of_blank rfl]

/-- The clauses of a text that they are joined to. -/
theorem scan_joined {clauses : List Clause} (h : List.Forall₂ Clause.Denotes parts clauses) :
    scan ([','].intercalate parts) = ⟨clauses, none⟩ := by
  have hcomma : ∀ c ∈ [','], isSeparator c = true := List.all_eq_true.1 (by decide)
  induction h with
  | nil => exact scan_of_blank rfl
  | @cons part clause parts clauses hfirst hrest ih =>
      cases hrest with
      | nil =>
          rw [List.intercalate_singleton]
          exact scan_of_denotes hfirst
      | cons =>
          have hboundary : ∀ s : Text, IsBoundary ([','] ++ s) := fun s =>
            isBoundary_cons.2 (by decide)
          -- the comma ends the first clause, and is skipped before the others
          rw [List.intercalate_cons_cons, List.append_assoc, scan_append (hboundary _),
            scan_of_denotes hfirst, followedBy, scan_separators_append hcomma, ih]
          rfl

/-- Joined clauses hold no semicolon. -/
theorem semicolon_not_mem_joined (h : ∀ part ∈ parts, ∃ clause, Clause.Denotes part clause) :
    ';' ∉ [','].intercalate parts := by
  intro hmem
  rcases Text.mem_of_mem_intercalate hmem with hcomma | ⟨part, hpart, hc⟩
  · exact absurd hcomma (by decide)
  · obtain ⟨clause, hden⟩ := h part hpart
    exact (Clause.not_separator_of_isWritten (hden.isWritten _ hc)).2 rfl

/-- Joined clauses are not blank, unless there are none. -/
theorem not_isBlank_joined (hne : parts ≠ [])
    (h : ∀ part ∈ parts, ∃ clause, Clause.Denotes part clause) :
    Text.isBlank ([','].intercalate parts) = false := by
  obtain ⟨part, parts, rfl⟩ := List.exists_cons_of_ne_nil hne
  obtain ⟨clause, hden⟩ := h part (by simp)
  obtain ⟨c, w, rfl⟩ := List.exists_cons_of_ne_nil hden.ne_nil
  have hfirst : c :: w ∈ (c :: w) :: parts := by simp
  have hmem : c ∈ [','].intercalate ((c :: w) :: parts) := Text.mem_intercalate hfirst (by simp)
  have hc := (Clause.not_separator_of_isWritten (hden.isWritten c (by simp))).1
  simp only [isSeparator, Bool.or_eq_false_iff] at hc
  cases hblank : Text.isBlank ([','].intercalate ((c :: w) :: parts)) with
  | false => rfl
  | true => exact absurd (List.all_eq_true.1 hblank c hmem) (by simp [hc.2])

/-! ### Look-ups -/

/-- **Clauses joined by commas are looked up one by one**, each as it is alone. -/
theorem parse_joined (source : Text) (h : ∀ part ∈ parts, ∃ clause, Clause.Denotes part clause) :
    parse source ([','].intercalate parts) =
      parts.mapM fun part => do return (← Clause.parse source part).1 := by
  obtain ⟨clauses, hclauses⟩ :=
    exists_forall₂_of_forall_mem (R := fun clause part => Clause.Denotes part clause) h
  rw [parse, scan_joined hclauses.flip]
  simp only [resolve, bind_pure]
  induction hclauses with
  | nil => rfl
  | @cons clause part clauses parts hfirst _ ih =>
      have hclause : (do return (← Clause.parse source part).1 : Attempt Token) =
          Clause.find source clause := by
        rw [Clause.parse, Clause.scan_whole_iff.2 hfirst]
        simp only [bind_assoc, pure_bind, bind_pure]
      rw [List.mapM_cons, List.mapM_cons, hclause, ih fun p hp => h p (by simp [hp])]

/-- **What clauses joined by commas ask about**: what each of them asks about alone, in turn. -/
theorem trace_parse_joined {source : Text} {fs : FileSystem} {clauses : List (Text × Token)}
    (h : ∀ clause ∈ clauses, (Clause.parse source clause.1).Yields fs (clause.2, [])) :
    (parse source ([','].intercalate (clauses.map Prod.fst))).trace fs =
      ⟨.ok (.ok (clauses.map Prod.snd)),
        clauses.flatMap fun clause => ((Clause.parse source clause.1).trace fs).probes⟩ := by
  have hden : ∀ part ∈ clauses.map Prod.fst, ∃ clause, Clause.Denotes part clause := by
    intro part hpart
    obtain ⟨clause, hclause, rfl⟩ := List.mem_map.1 hpart
    exact Clause.exists_denotes_of_yields (h clause hclause)
  have htoken : ∀ clause ∈ clauses,
      (do return (← Clause.parse source clause.1).1 : Attempt Token).Yields fs clause.2 := by
    intro clause hclause
    exact Attempt.yields_bind.2 ⟨_, h clause hclause, Attempt.yields_pure.2 rfl⟩
  rw [parse_joined source hden, List.mapM_map]
  refine (Attempt.trace_mapM htoken).trans ?_
  simp only [Attempt.trace_map]

end Segment

end Transcode

/-
**Lists of track references, read as far as they go.**

A list of references is read reference by reference.  This module proves that the reader accepts
exactly the written lists, in front of exactly the texts that do not continue them: a bar continues
any list, letters continue tags, and an identifier is continued by whatever makes a longer one or
gives it tags.

Main definitions:

* `Transcode.TrackRef.EndsBefore` — a text does not continue a reference, a bar being no
  continuation of the reference itself.

Main results:

* `Transcode.TrackRef.scanList_eq_some_iff` — **exactly the texts that start with a list of
  references**.
-/

import Transcode.Clause.Grammar
import Transcode.Proofs.Track.Identifier

set_option relaxedAutoImplicit false
set_option autoImplicit false

namespace Transcode.TrackRef

/-! ### Tags -/

theorem isAlpha_of_isTag {c : Char} (h : isTag c = true) : c.isAlpha = true := by
  simp only [isTag, Bool.or_eq_true, beq_iff_eq] at h
  rcases h with (rfl | rfl) | rfl <;> decide

@[simp] theorem isTagged_ofTags_nil (identifier : Text) :
    (ofTags identifier []).isTagged = false := rfl

/-- A reference with tags is enabled or forced. -/
theorem isTagged_ofTags {identifier tags : Text} (hne : tags ≠ [])
    (htags : ∀ c ∈ tags, isTag c = true) : (ofTags identifier tags).isTagged = true := by
  obtain ⟨c, tags, rfl⟩ := List.exists_cons_of_ne_nil hne
  have hc := htags c (by simp)
  simp only [isTag, Bool.or_eq_true, beq_iff_eq] at hc
  rcases hc with (rfl | rfl) | rfl <;> simp [isTagged, ofTags]

/-- A dash belongs to a reference only if a letter follows. -/
theorem scanTags_of_stops {s : Text} (h : ∀ tail, s = '-' :: tail → Text.Stops Char.isAlpha tail) :
    scanTags s = ([], s) := by
  unfold scanTags
  split
  · rename_i rest
    have hrest := Text.takeWhile_append_of_stops (w := []) (by simp) (h rest rfl)
    rw [List.nil_append] at hrest
    rw [if_pos hrest]
  · rfl

theorem scanTags_dash {tags rest : Text} (hne : tags ≠ []) (htags : ∀ c ∈ tags, c.isAlpha = true)
    (hrest : Text.Stops Char.isAlpha rest) : scanTags ('-' :: (tags ++ rest)) = (tags, rest) := by
  rw [scanTags, Text.takeWhile_append_of_stops htags hrest,
    Text.dropWhile_append_of_stops htags hrest, if_neg hne]

/-- The tags that are read are a longest run of letters after a dash, or there are none to read. -/
theorem scanTags_cases (s : Text) :
    ((scanTags s).1 = [] ∧ (scanTags s).2 = s ∧
        ∀ tail, s = '-' :: tail → Text.Stops Char.isAlpha tail) ∨
      (((scanTags s).1 ≠ [] ∧ ∀ c ∈ (scanTags s).1, c.isAlpha = true) ∧
        s = '-' :: ((scanTags s).1 ++ (scanTags s).2) ∧
        Text.Stops Char.isAlpha (scanTags s).2) := by
  unfold scanTags
  split
  · rename_i rest
    split
    · rename_i hnone
      refine Or.inl ⟨rfl, rfl, ?_⟩
      intro tail htail
      have hsplit := List.takeWhile_append_dropWhile (p := Char.isAlpha) (l := rest)
      rw [hnone, List.nil_append, (List.cons.inj htail).2] at hsplit
      rw [← hsplit]
      exact Text.stops_dropWhile Char.isAlpha tail
    · rename_i hsome
      refine Or.inr ⟨⟨hsome, Text.all_takeWhile Char.isAlpha rest⟩, ?_,
        Text.stops_dropWhile Char.isAlpha rest⟩
      rw [List.takeWhile_append_dropWhile]
  · rename_i hdash
    exact Or.inl ⟨rfl, rfl, fun tail htail => absurd htail (hdash tail)⟩

/-! ### One reference -/

/-- A text does not continue a reference.  A bar begins the next reference, so it does not continue
this one. -/
def EndsBefore (ref : TrackRef) (rest : Text) : Prop :=
  if ref.isTagged then Text.Stops Char.isAlpha rest
  else Identifier.StopsBefore rest ∧ ∀ tail, rest = '-' :: tail → Text.Stops Char.isAlpha tail

theorem stopsBefore_iff {ref : TrackRef} {rest : Text} :
    ref.StopsBefore rest ↔ rest.head? ≠ some '|' ∧ ref.EndsBefore rest := by
  unfold StopsBefore EndsBefore Identifier.StopsBefore
  rw [and_assoc]

/-- A bar ends every reference. -/
theorem endsBefore_bar (ref : TrackRef) (rest : Text) : ref.EndsBefore ('|' :: rest) := by
  unfold EndsBefore Identifier.StopsBefore
  split
  · simp
  · simp

/-- What is read at the start of a text is a reference, and what follows does not continue it. -/
theorem denotes_of_scan {s rest : Text} {ref : TrackRef} (h : scan? s = some (ref, rest)) :
    ∃ written, s = written ++ rest ∧ Denotes written ref ∧ ref.EndsBefore rest := by
  unfold scan? at h
  split at h
  · simp at h
  · rename_i identifier after hid
    obtain ⟨rfl, hwell, hstops⟩ := Identifier.leading?_eq_some_iff.1 hid
    split at h
    · rename_i htags
      obtain ⟨rfl, rfl⟩ := Prod.mk.inj (Option.some.inj h)
      -- what ends the reference is what ends its identifier, or its tags if it has some
      rcases scanTags_cases after with ⟨hnone, hrest, hdash⟩ | ⟨⟨hsome, _⟩, hafter, hend⟩
      · rw [hnone, hrest]
        refine ⟨identifier, rfl, .plain hwell, ?_⟩
        rw [EndsBefore, isTagged_ofTags_nil]
        exact ⟨hstops, hdash⟩
      · have hall : ∀ c ∈ (scanTags after).1, isTag c = true := List.all_eq_true.1 htags
        refine ⟨identifier ++ '-' :: (scanTags after).1, ?_, .tagged hwell hsome hall, ?_⟩
        · rw [List.append_assoc, List.cons_append, ← hafter]
        · rw [EndsBefore, isTagged_ofTags hsome hall]
          exact hend
    · simp at h

/-- A written reference in front of a text that does not continue it is read back. -/
theorem Denotes.scan {written rest : Text} {ref : TrackRef} (h : Denotes written ref)
    (hrest : ref.EndsBefore rest) : scan? (written ++ rest) = some (ref, rest) := by
  cases h with
  | plain hid =>
      rw [EndsBefore, isTagged_ofTags_nil] at hrest
      obtain ⟨hstops, hdash⟩ := hrest
      rw [scan?, Identifier.leading?_eq_some_iff.2 ⟨rfl, hid, hstops⟩]
      simp [scanTags_of_stops hdash]
  | @tagged identifier tags hid hne htags =>
      rw [EndsBefore, isTagged_ofTags hne htags] at hrest
      have halpha : ∀ c ∈ tags, c.isAlpha = true := fun c hc => isAlpha_of_isTag (htags c hc)
      have hdash : Identifier.StopsBefore ('-' :: (tags ++ rest)) := ⟨by simp, by simp⟩
      have hread := Identifier.leading?_eq_some_iff.2 ⟨rfl, hid, hdash⟩
      rw [List.append_assoc, List.cons_append, scan?, hread]
      simp only [scanTags_dash hne halpha hrest]
      rw [if_pos (List.all_eq_true.2 htags)]

/-! ### Lists of references -/

theorem scanList_of_none {s : Text} (h : scan? s = none) : scanList s = ([], none) := by
  rw [scanList.eq_def]
  split <;> simp_all

theorem scanList_of_bar {s rest : Text} {ref : TrackRef} (h : scan? s = some (ref, '|' :: rest)) :
    scanList s = (ref :: (scanList rest).1, (scanList rest).2) := by
  rw [scanList.eq_def]
  split <;> simp_all

theorem scanList_of_end {s rest : Text} {ref : TrackRef} (h : scan? s = some (ref, rest))
    (hrest : rest.head? ≠ some '|') : scanList s = ([ref], some rest) := by
  rw [scanList.eq_def]
  split
  · rename_i hs
    rw [h] at hs
    exact absurd hs (by simp)
  · rename_i hs
    rw [h] at hs
    obtain ⟨rfl, rfl⟩ := Prod.mk.inj (Option.some.inj hs)
    exact absurd rfl hrest
  · rename_i hs
    rw [h] at hs
    obtain ⟨rfl, rfl⟩ := Prod.mk.inj (Option.some.inj hs)
    rfl

theorem DenotesList.ne_nil {written : Text} {refs : List TrackRef} (h : DenotesList written refs) :
    refs ≠ [] := by
  cases h <;> simp

/-- The last reference of a list is the last one of what follows the first. -/
theorem DenotesList.getLast?_cons {written : Text} {refs : List TrackRef}
    (h : DenotesList written refs) (ref : TrackRef) :
    (ref :: refs).getLast? = refs.getLast? := by
  obtain ⟨next, refs, rfl⟩ := List.exists_cons_of_ne_nil h.ne_nil
  exact List.getLast?_cons_cons

/-- What is read at the start of a text is a list, and what follows does not continue it. -/
theorem denotesList_of_scanList {s rest : Text} (h : (scanList s).2 = some rest) :
    ∃ written, s = written ++ rest ∧ DenotesList written (scanList s).1 ∧
      ∀ ref ∈ (scanList s).1.getLast?, ref.StopsBefore rest := by
  fun_induction scanList s with
  | case1 => simp at h
  | case2 s ref after hs more ih =>
      obtain ⟨written, rfl, href, _⟩ := denotes_of_scan hs
      obtain ⟨tail, rfl, htail, hlast⟩ := ih h
      refine ⟨written ++ '|' :: tail, by simp, .cons href htail, ?_⟩
      rw [htail.getLast?_cons]
      exact hlast
  | case3 s ref after hbar hs =>
      obtain rfl : after = rest := Option.some.inj h
      obtain ⟨written, rfl, href, hend⟩ := denotes_of_scan hs
      refine ⟨written, rfl, .single href, ?_⟩
      intro last hlast
      obtain rfl : ref = last := by simpa using hlast
      refine stopsBefore_iff.2 ⟨?_, hend⟩
      intro hhead
      obtain ⟨tail, rfl⟩ := List.head?_eq_some_iff.1 hhead
      exact hbar tail rfl

/-- A written list in front of a text that does not continue it is read back. -/
theorem DenotesList.scan {written rest : Text} {refs : List TrackRef}
    (h : DenotesList written refs) (hrest : ∀ ref ∈ refs.getLast?, ref.StopsBefore rest) :
    scanList (written ++ rest) = (refs, some rest) := by
  induction h with
  | single href =>
      obtain ⟨hbar, hend⟩ := stopsBefore_iff.1 (hrest _ rfl)
      exact scanList_of_end (href.scan hend) hbar
  | @cons written tail ref refs href htail ih =>
      -- the bar ends the first reference; what ends the list is a matter of the last one
      rw [htail.getLast?_cons] at hrest
      have hread : scan? (written ++ '|' :: (tail ++ rest)) = some (ref, '|' :: (tail ++ rest)) :=
        href.scan (endsBefore_bar ref _)
      rw [List.append_assoc, List.cons_append, scanList_of_bar hread, ih hrest]

/-- **A text starts with a list of references exactly when it is one and a rest that does not
continue it.** -/
theorem scanList_eq_some_iff {s rest : Text} {refs : List TrackRef} :
    scanList s = (refs, some rest) ↔
      ∃ written, s = written ++ rest ∧ DenotesList written refs ∧
        ∀ ref ∈ refs.getLast?, ref.StopsBefore rest := by
  constructor
  · intro h
    have hrest : (scanList s).2 = some rest := by rw [h]
    have hread := denotesList_of_scanList hrest
    rwa [h] at hread
  · rintro ⟨written, rfl, h, hrest⟩
    exact h.scan hrest

end Transcode.TrackRef

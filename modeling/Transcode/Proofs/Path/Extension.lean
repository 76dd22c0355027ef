/-
**Replacing the extension of a path.**

The file that takes the place of a path is named by the stem of the path and the new extension, and
lies in the directory of the path in normal form.  The new name is plain, since it is longer than
the components that are not, and it falls apart at the new dot if the extension holds no other.  So
its stem is the old one, and its directory is as good as the old one; an extension that is replaced
again leaves no trace.  This is so for hidden files, for stems of dots, for slashes at the end and
for directories that go up and down again.

Main definitions:

* `Transcode.Path.basenameWithout` — the last component of a path without an ending.

Main results:

* `Transcode.Path.stem_eq_basenameWithout` — the stem is the last component without the extension;
* `Transcode.Path.withExtension_replaces` — **another extension replaces exactly the last one**.
-/

import Transcode.Proofs.Path.Directory

set_option relaxedAutoImplicit false
set_option autoImplicit false

namespace Transcode.Path

/-! ### Replacing an extension -/

/-- A stem, a dot and an extension make a name that is a component of its own. -/
theorem isPlain_dot {base suffix : Text} (hbase : base ≠ []) (hsuffix : suffix ≠ [])
    (hslash : '/' ∉ base) (hslash' : '/' ∉ suffix) : IsPlain (base ++ '.' :: suffix) := by
  -- the components that are not names are shorter
  have hlength : 3 ≤ (base ++ '.' :: suffix).length := by
    have := List.length_pos_iff.2 hbase
    have := List.length_pos_iff.2 hsuffix
    simp only [List.length_append, List.length_cons]
    omega
  constructor
  case ne_nil => exact fun h => by simp [h] at hlength
  case ne_here => exact fun h => by simp [h, here] at hlength
  case ne_up => exact fun h => by simp [h, up] at hlength
  case slash_not_mem => simp [hslash, hslash']

section Replace

variable {p e : Text} (hstem : stem p ≠ []) (hne : e ≠ []) (hslash : '/' ∉ e)

include hstem hne hslash

theorem isPlain_stem_dot : IsPlain (stem p ++ '.' :: e) :=
  isPlain_dot hstem hne (slash_not_mem_stem p) hslash

/-- The new name falls apart into the old stem and the new extension. -/
theorem splitName_withExtension (hdot : '.' ∉ e) :
    splitName (basename (withExtension p e)) = (stem p, '.' :: e) := by
  rw [withExtension, basename_join (isPlain_stem_dot hstem hne hslash),
    splitName_dot hstem hne hdot]

/-- A path with another extension is as good as the path for all extensions that follow. -/
theorem withExtension_withExtension (hdot : '.' ∉ e) {e' : Text} (hne' : e' ≠ [])
    (hslash' : '/' ∉ e') : withExtension (withExtension p e) e' = withExtension p e' := by
  have hsame : stem (withExtension p e) = stem p := by
    rw [stem, splitName_withExtension hstem hne hslash hdot]
  have hname := isPlain_stem_dot hstem hne' hslash'
  calc
    withExtension (withExtension p e) e' =
        join (dirname (withExtension p e)) (stem p ++ '.' :: e') := by
      rw [withExtension, hsame]
    _ = lead (dirname (join (dirname p) (stem p ++ '.' :: e))) ++ (stem p ++ '.' :: e') :=
      join_plain hname _
    _ = lead (dirname p) ++ (stem p ++ '.' :: e') := by
      rw [lead_dirname_join (isPlain_stem_dot hstem hne hslash)]
    _ = withExtension p e' := (join_plain hname _).symm

end Replace

/-! ### The stem without the extension -/

/-- The last component of a path without an ending.  It stays whole if it does not end so, and if
nothing would be left of it. -/
def basenameWithout (ending p : Text) : Text :=
  match ending.isSuffixOf? (basename p) with
  | none | some [] => basename p
  | some (c :: front) => c :: front

/-- Something stands before an extension. -/
theorem splitName_fst_ne_nil {name : Text} : (splitName name).2 ≠ [] → (splitName name).1 ≠ [] := by
  rw [splitName]
  split
  · split
    · exact fun h => absurd rfl h
    · exact fun _ => by simp
  · exact fun h => absurd rfl h

/-- The stem of a path is its last component without its extension. -/
theorem stem_eq_basenameWithout (p : Text) : stem p = basenameWithout (extension p) p := by
  have hsuffix : (extension p).isSuffixOf? (basename p) = some (stem p) :=
    List.isSuffixOf?_eq_some_iff_append_eq.2 (stem_append_extension p)
  rw [basenameWithout, hsuffix]
  cases hstem : stem p with
  | cons c front => rfl
  | nil =>
      have hextension : extension p = [] := by
        by_contra h
        exact splitName_fst_ne_nil h hstem
      rw [← stem_append_extension, hstem, hextension]
      rfl

/-- **Another extension replaces exactly the last one.**  The last component of a path is its stem
and its extension.  With another extension the stem is the same and the extension is the new one,
and for an extension after that it does not matter that there was another one in between. -/
theorem withExtension_replaces (p : Text) :
    (stem p ++ extension p = basename p ∧ stem p = basenameWithout (extension p) p) ∧
      ∀ e : Text, stem p ≠ [] → e ≠ [] → '.' ∉ e → '/' ∉ e →
        stem (withExtension p e) = stem p ∧ extension (withExtension p e) = '.' :: e ∧
          ∀ e' : Text, e' ≠ [] → '/' ∉ e' →
            withExtension (withExtension p e) e' = withExtension p e' := by
  refine ⟨⟨stem_append_extension p, stem_eq_basenameWithout p⟩, ?_⟩
  intro e hstem hne hdot hslash
  have hsplit := splitName_withExtension hstem hne hslash hdot
  refine ⟨?_, ?_, ?_⟩
  · rw [stem, hsplit]
  · rw [extension, hsplit]
  · intro e' hne' hslash'
    exact withExtension_withExtension hstem hne hslash hdot hne' hslash'

/-- A name of dots in a directory that goes up and down again. -/
theorem withExtension_replaces_dots :
    stem "../a//../b/.../".toList = "..".toList ∧
      withExtension "../a//../b/.../".toList "mkv".toList = "../b/...mkv".toList ∧
      extension "../b/...mkv".toList = ".mkv".toList ∧
      withExtension "../b/...mkv".toList "eng.srt".toList =
        withExtension "../a//../b/.../".toList "eng.srt".toList := by
  have hfile : withExtension "../a//../b/.../".toList "mkv".toList = "../b/...mkv".toList := by
    decide
  obtain ⟨_, hextension, hagain⟩ := (withExtension_replaces "../a//../b/.../".toList).2 "mkv".toList
    (by decide) (by decide) (by decide) (by decide)
  rw [hfile] at hextension hagain
  exact ⟨by decide, hfile, hextension, hagain _ (by decide) (by decide)⟩

end Transcode.Path

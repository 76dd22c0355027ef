/-
**The directory of a path in normal form.**

A way in normal form consists of plain names, and of components that go up in front of these where
the path is relative.  Entering the components of any path leads to such a way, and entering those
of such a way leads to it again.  So a path that was joined once does not move when its directory is
joined again: what the directory puts in front of a name is what the first directory put there.

Main definitions:

* `Transcode.Path.IsWay` — the components of a normal form.

Main results:

* `Transcode.Path.isWay_foldl_enter`, `Transcode.Path.IsWay.foldl_enter` — normal forms are reached,
  and stay as they are;
* `Transcode.Path.lead_normal` — a directory in normal form puts itself in front of a name;
* `Transcode.Path.lead_dirname_join` — **the directory of a joined path is as good as the one it is
  joined to**.
-/

import Mathlib.Data.List.Basic
import Transcode.Proofs.Path.Join

set_option relaxedAutoImplicit false
set_option autoImplicit false

namespace Transcode.Path

/-! ### Ways in normal form -/

/-- The components of a normal form, the last one first: plain names, and behind them, in a relative
path, components that go up. -/
inductive IsWay (absolute : Bool) : List Text → Prop where
  | start : IsWay absolute []
  | up {way : List Text} (hroot : absolute = false) (hfront : ∀ part ∈ way.head?, part = up)
      (hway : IsWay absolute way) : IsWay absolute (up :: way)
  | name {name : Text} {way : List Text} (hname : IsPlain name) (hway : IsWay absolute way) :
      IsWay absolute (name :: way)

variable {absolute : Bool} {way : List Text}

theorem enter_up_cons (absolute : Bool) (last : Text) (before : List Text) :
    enter absolute (last :: before) up = if last = up then up :: last :: before else before := by
  simp [enter, up, here]

/-- A way in normal form was in normal form before its last component. -/
theorem IsWay.of_cons {part : Text} (h : IsWay absolute (part :: way)) : IsWay absolute way := by
  cases h with
  | up _ _ hway => exact hway
  | name _ hway => exact hway

/-- Only a relative path goes up. -/
theorem IsWay.relative_of_up (h : IsWay absolute (Path.up :: way)) : absolute = false := by
  cases h with
  | up hroot _ _ => exact hroot
  | name hname _ => exact absurd rfl hname.ne_up

/-- The components of a normal form are not empty and hold no slash. -/
theorem IsWay.forall_part (h : IsWay absolute way) : ∀ part ∈ way, part ≠ [] ∧ '/' ∉ part := by
  induction h with
  | start => simp
  | up _ _ _ ih =>
      intro part hpart
      rcases List.mem_cons.1 hpart with rfl | hpart
      · exact ⟨by simp [Path.up], by simp [Path.up]⟩
      · exact ih part hpart
  | name hname _ ih =>
      intro part hpart
      rcases List.mem_cons.1 hpart with rfl | hpart
      · exact ⟨hname.ne_nil, hname.slash_not_mem⟩
      · exact ih part hpart

/-- One component more on a way in normal form leads to one. -/
theorem IsWay.enter (h : IsWay absolute way) {part : Text} (hslash : '/' ∉ part) :
    IsWay absolute (enter absolute way part) := by
  by_cases hstay : part = [] ∨ part = here
  · rwa [show Path.enter absolute way part = way from if_pos hstay]
  by_cases hup : part = Path.up
  · subst hup
    cases way with
    | nil =>
        cases absolute with
        | true => exact .start
        | false => exact .up rfl (by simp) .start
    | cons last before =>
        rw [enter_up_cons]
        split
        · rename_i hlast
          subst hlast
          exact .up h.relative_of_up (by simp) h
        · exact h.of_cons
  · have hname : IsPlain part :=
      ⟨fun hnil => hstay (Or.inl hnil), fun hhere => hstay (Or.inr hhere), hup, hslash⟩
    rw [enter_plain hname]
    exact .name hname h

/-- **The components of a path are led into normal form.** -/
theorem isWay_foldl_enter {parts : List Text} (hparts : ∀ part ∈ parts, '/' ∉ part)
    (h : IsWay absolute way) : IsWay absolute (parts.foldl (enter absolute) way) := by
  induction parts generalizing way with
  | nil => exact h
  | cons part parts ih =>
      exact ih (fun p hp => hparts p (List.mem_cons_of_mem _ hp)) (h.enter (hparts part (by simp)))

/-- **A way in normal form stays as it is.** -/
theorem IsWay.foldl_enter (h : IsWay absolute way) :
    way.reverse.foldl (Path.enter absolute) [] = way := by
  induction h with
  | start => rfl
  | @up way hroot hfront _ ih =>
      rw [List.reverse_cons, List.foldl_append, ih, List.foldl_cons, List.foldl_nil]
      cases way with
      | nil => simp [Path.enter, Path.up, here, hroot]
      | cons last before => rw [enter_up_cons, if_pos (hfront last rfl)]
  | name hname _ ih =>
      rw [List.reverse_cons, List.foldl_append, ih, List.foldl_cons, List.foldl_nil,
        enter_plain hname]

/-! ### The directory of a joined path -/

/-- The components of a path hold no slash. -/
theorem slash_not_mem_components (p : Text) : ∀ part ∈ components p, '/' ∉ part := by
  induction p with
  | nil => simp
  | cons c p ih =>
      intro part hpart
      by_cases hc : c = '/'
      · subst hc
        rw [components_cons_slash] at hpart
        rcases List.mem_cons.1 hpart with rfl | hpart
        · exact List.not_mem_nil
        · exact ih part hpart
      · -- the first component is longer by the character
        obtain ⟨first, rest, hparts⟩ : ∃ first rest, components p = first :: rest :=
          List.exists_cons_of_ne_nil (List.splitOn_ne_nil '/' p)
        have hcons : components (c :: p) = (c :: first) :: rest := by
          rw [components, List.splitOn_cons_eq_if_modifyHead, if_neg (by simpa using hc),
            ← components, hparts, List.modifyHead_cons]
        rw [hparts] at ih
        rw [hcons] at hpart
        rcases List.mem_cons.1 hpart with rfl | hpart
        · intro hslash
          rcases List.mem_cons.1 hslash with hslash | hslash
          · exact hc hslash.symm
          · exact ih first (by simp) hslash
        · exact ih part (by simp [hpart])

/-- What a directory puts in front of a plain name, the empty directory included. -/
theorem lead_eq_opening (dir : Text) :
    lead dir = opening (isAbsolute dir) (resolve (isAbsolute dir) (components dir)) := by
  rw [lead]
  split
  · rename_i hnil
    subst hnil
    rfl
  · rfl

/-- It is the way that the directory leads to, in normal form. -/
theorem exists_lead_eq (dir : Text) :
    ∃ absolute way, IsWay absolute way ∧ lead dir = opening absolute way.reverse :=
  ⟨isAbsolute dir, _, isWay_foldl_enter (slash_not_mem_components dir) .start,
    lead_eq_opening dir⟩

theorem opening_concat (absolute : Bool) (way : List Text) (part : Text) :
    opening absolute (way ++ [part]) = opening absolute way ++ part ++ ['/'] := by
  simp [opening]

/-- The components of the path of a way are those of the way, behind an empty one at the root. -/
theorem components_normal {part : Text} (h : IsWay absolute (part :: way)) :
    components (opening absolute way.reverse ++ part) =
      (if absolute then [[]] else []) ++ (part :: way).reverse := by
  have hparts : components (['/'].intercalate (part :: way).reverse) = (part :: way).reverse :=
    List.splitOn_intercalate '/' (fun p hp => (h.forall_part p (List.mem_reverse.1 hp)).2) (by simp)
  rw [List.reverse_cons] at hparts ⊢
  rw [intercalate_concat] at hparts
  cases absolute with
  | false => simpa [opening] using hparts
  | true => simpa [opening, components_cons_slash] using hparts

/-- The path of a way is absolute if the way is. -/
theorem isAbsolute_normal {part : Text} (h : IsWay absolute (part :: way)) :
    isAbsolute (opening absolute way.reverse ++ part) = absolute := by
  cases absolute with
  | true => rfl
  | false =>
      have hparts := components_normal h
      cases hpath : opening false way.reverse ++ part with
      | nil => rfl
      | cons c rest =>
          -- a slash in front would make the first component empty
          have hc : c ≠ '/' := by
            rintro rfl
            rw [hpath, components_cons_slash, if_neg Bool.false_ne_true, List.nil_append] at hparts
            have hempty : [] ∈ (part :: way).reverse := hparts ▸ List.mem_cons_self ..
            exact (h.forall_part [] (List.mem_reverse.1 hempty)).1 rfl
          simpa [isAbsolute] using hc

/-- **A directory in normal form puts itself in front of a name**, and a slash. -/
theorem lead_normal {part : Text} (h : IsWay absolute (part :: way)) :
    lead (opening absolute way.reverse ++ part) = opening absolute (part :: way).reverse := by
  have hway : resolve absolute (part :: way).reverse = (part :: way).reverse := by
    rw [resolve, h.foldl_enter]
  rw [lead_eq_opening, isAbsolute_normal h, components_normal h]
  cases absolute with
  | false => rw [if_neg Bool.false_ne_true, List.nil_append, hway]
  | true =>
      -- the empty component in front does not count
      have hroot : resolve true ([] :: (part :: way).reverse) =
          resolve true (part :: way).reverse := rfl
      rw [if_pos rfl, List.singleton_append, hroot, hway]

/-- The directory of a path in normal form is as good as what stands in front of its name. -/
theorem lead_dirname_opening {name : Text} (hname : IsPlain name) (h : IsWay absolute way) :
    lead (dirname (opening absolute way.reverse ++ name)) = opening absolute way.reverse := by
  rw [dirname_append (getLast?_opening _ _) hname]
  cases way with
  | nil => cases absolute <;> decide
  | cons part way =>
      have hfront : opening absolute (part :: way).reverse =
          opening absolute way.reverse ++ part ++ ['/'] := by
        rw [List.reverse_cons, opening_concat]
      obtain ⟨hne, hslash⟩ := h.forall_part part (List.mem_cons_self ..)
      -- the path before the slash ends with a component, so the slash is not the root
      have hroot : ∀ root : Text, (∀ c ∈ root, c = '/') →
          opening absolute way.reverse ++ part ++ ['/'] ≠ root := by
        rintro root hall rfl
        obtain ⟨c, rest, rfl⟩ := List.exists_cons_of_ne_nil hne
        exact hslash (by simp [hall c (by simp)])
      rw [hfront, if_neg (hroot [] (by simp)), if_neg, List.dropLast_concat, lead_normal h, hfront]
      rintro (hone | htwo)
      · exact hroot _ (by simp) hone
      · exact hroot _ (by simp) htwo

/-- **The directory of a joined path is as good as the one it is joined to.** -/
theorem lead_dirname_join {name : Text} (hname : IsPlain name) (dir : Text) :
    lead (dirname (join dir name)) = lead dir := by
  obtain ⟨absolute, way, hway, hlead⟩ := exists_lead_eq dir
  rw [join_plain hname, hlead, lead_dirname_opening hname hway]

end Transcode.Path

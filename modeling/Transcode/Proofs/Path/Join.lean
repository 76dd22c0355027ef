/-
**Names joined to a directory.**

A plain name is a component of its own: it is not empty, holds no slash, and is neither the
component that stays where it is nor the one that goes up.  Joining a directory and a plain name
puts a text in front of the name that depends on the directory alone, and that text is empty or
ends with a slash.  So the name is the last component of the joined path, whatever the directory
looks like, and the directory of the joined path is the same for all plain names.

Main definitions:

* `Transcode.Path.IsPlain` — plain names;
* `Transcode.Path.lead` — what a directory puts in front of a plain name.

Main results:

* `Transcode.Path.join_plain` — **a joined path is what the directory puts in front, and the
  name**;
* `Transcode.Path.basename_join`, `Transcode.Path.dirname_join` — the parts of a joined path;
* `Transcode.Path.splitName_dot` — a name with an extension falls apart at its last dot.
-/

import Mathlib.Data.List.Basic
import Transcode.Path.Name

set_option relaxedAutoImplicit false
set_option autoImplicit false

namespace Transcode.Path

/-! ### Plain names -/

/-- A name that is a component of its own. -/
structure IsPlain (name : Text) : Prop where
  ne_nil : name ≠ []
  ne_here : name ≠ here
  ne_up : name ≠ up
  slash_not_mem : '/' ∉ name

/-- A name without a slash is plain if it holds anything but dots. -/
theorem isPlain_of_mem {name : Text} (hslash : '/' ∉ name) {c : Char} (hc : c ∈ name)
    (hdot : c ≠ '.') : IsPlain name where
  ne_nil := List.ne_nil_of_mem hc
  ne_here := by
    rintro rfl
    exact hdot (by simpa [here] using hc)
  ne_up := by
    rintro rfl
    exact hdot (by simpa [up] using hc)
  slash_not_mem := hslash

/-- A plain name does not end with a slash. -/
theorem IsPlain.exists_concat {name : Text} (h : IsPlain name) :
    ∃ before c, name = before ++ [c] ∧ c ≠ '/' := by
  obtain ⟨before, c, hconcat⟩ := (List.eq_nil_or_concat' name).resolve_left h.ne_nil
  refine ⟨before, c, hconcat, ?_⟩
  rintro rfl
  exact h.slash_not_mem (by simp [hconcat])

/-- A plain name alone is a relative path. -/
theorem IsPlain.isAbsolute_eq {name : Text} (h : IsPlain name) : isAbsolute name = false := by
  obtain ⟨c, rest, rfl⟩ := List.exists_cons_of_ne_nil h.ne_nil
  have hc : c ≠ '/' := fun hc => h.slash_not_mem (by simp [hc])
  simpa [isAbsolute] using hc

/-! ### The normal form of a path that ends with a plain name -/

/-- A plain name is one more component on the way. -/
theorem enter_plain {name : Text} (h : IsPlain name) (absolute : Bool) (way : List Text) :
    enter absolute way name = name :: way := by
  have hstay : ¬ (name = [] ∨ name = here) := fun hno => hno.elim h.ne_nil h.ne_here
  unfold enter
  rw [if_neg hstay, if_neg h.ne_up]

theorem resolve_concat {name : Text} (h : IsPlain name) (absolute : Bool) (parts : List Text) :
    resolve absolute (parts ++ [name]) = resolve absolute parts ++ [name] := by
  unfold resolve
  rw [List.foldl_append, List.foldl_cons, List.foldl_nil, enter_plain h, List.reverse_cons]

/-- Components in front of a last one are each followed by a slash. -/
theorem intercalate_concat (way : List Text) (name : Text) :
    ['/'].intercalate (way ++ [name]) = way.flatMap (· ++ ['/']) ++ name := by
  induction way with
  | nil => simp
  | cons part way ih =>
      rw [List.cons_append, List.intercalate_cons_of_ne_nil (by simp), ih, List.flatMap_cons]
      simp

/-- What a way from the start of a path puts in front of a name. -/
def opening (absolute : Bool) (way : List Text) : Text :=
  (if absolute then ['/'] else []) ++ way.flatMap (· ++ ['/'])

/-- What a way puts in front of a name is empty or ends with a slash. -/
theorem getLast?_opening (absolute : Bool) (way : List Text) :
    ∀ c ∈ (opening absolute way).getLast?, c = '/' := by
  rcases List.eq_nil_or_concat' way with rfl | ⟨before, part, rfl⟩
  · cases absolute <;> simp [opening]
  · simp [opening]

/-- The normal form of a path whose way ends with a plain name, with the slash that it may have at
its end. -/
theorem normalize_of_resolve {p name : Text} {way : List Text} (h : IsPlain name)
    (hway : resolve (isAbsolute p) (components p) = way ++ [name]) :
    normalize p = opening (isAbsolute p) way ++ name ++
      if p.getLast? = some '/' then ['/'] else [] := by
  unfold normalize opening
  rw [hway, intercalate_concat]
  -- the name is the end of the body, so the body is not empty
  have hbody : ∀ front : Text, front ++ name ≠ [] := fun front => by simp [h.ne_nil]
  cases isAbsolute p with
  | true => simp [hbody]
  | false => simp [hbody]

/-- The normal form of a path whose last component is a plain name. -/
theorem normalize_of_components {p name : Text} {parts : List Text} (h : IsPlain name)
    (hparts : components p = parts ++ [name]) (hlast : p.getLast? = name.getLast?) :
    normalize p = opening (isAbsolute p) (resolve (isAbsolute p) parts) ++ name := by
  obtain ⟨before, c, hconcat, hc⟩ := h.exists_concat
  have hslash : p.getLast? ≠ some '/' := by simpa [hlast, hconcat] using hc
  have hway : resolve (isAbsolute p) (components p) = resolve (isAbsolute p) parts ++ [name] := by
    rw [hparts, resolve_concat h]
  rw [normalize_of_resolve h hway, if_neg hslash, List.append_nil]

/-! ### Joining -/

/-- What a directory puts in front of a plain name. -/
def lead (dir : Text) : Text :=
  if dir = [] then [] else opening (isAbsolute dir) (resolve (isAbsolute dir) (components dir))

/-- **A joined path is what the directory puts in front, and the name.** -/
theorem join_plain {name : Text} (h : IsPlain name) (dir : Text) :
    join dir name = lead dir ++ name := by
  unfold join lead
  by_cases hdir : dir = []
  · have hparts : components name = [] ++ [name] := components_of_not_mem h.slash_not_mem
    rw [if_pos hdir, if_pos hdir, normalize_of_components h hparts rfl, h.isAbsolute_eq]
    rfl
  · obtain ⟨c, rest, rfl⟩ := List.exists_cons_of_ne_nil hdir
    have hparts : components (c :: rest ++ '/' :: name) = components (c :: rest) ++ [name] := by
      have hname := components_of_not_mem h.slash_not_mem
      unfold components at hname ⊢
      rw [List.splitOn_append_cons_self, hname]
    have hlast : (c :: rest ++ '/' :: name).getLast? = name.getLast? := by
      obtain ⟨before, d, rfl, _⟩ := h.exists_concat
      simp [List.getLast?_cons]
    rw [if_neg hdir, if_neg h.ne_nil, if_neg hdir, normalize_of_components h hparts hlast]
    rfl

/-- What a directory puts in front of a name is empty or ends with a slash. -/
theorem getLast?_lead (dir : Text) : ∀ c ∈ (lead dir).getLast?, c = '/' := by
  unfold lead
  split
  · simp
  · exact getLast?_opening _ _

/-! ### The parts of a path that ends with a plain name -/

section Append

variable {front name : Text} (hfront : ∀ c ∈ front.getLast?, c = '/') (h : IsPlain name)

include h

/-- A path that ends with a plain name has no slashes to trim. -/
theorem trimmed_append (front : Text) : trimmed (front ++ name) = front ++ name := by
  obtain ⟨before, c, rfl, hc⟩ := h.exists_concat
  simp [trimmed, hc]

include hfront

/-- A plain name at the end of a path is what stands behind the last slash. -/
theorem span_reverse_append :
    (front ++ name).reverse.takeWhile (· != '/') = name.reverse ∧
      (front ++ name).reverse.dropWhile (· != '/') = front.reverse := by
  have hname := Text.forall_bne_of_not_mem (mt List.mem_reverse.1 h.slash_not_mem)
  have hstops : Text.Stops (· != '/') front.reverse := by
    intro c hc
    rw [List.head?_reverse] at hc
    simpa using hfront c hc
  rw [List.reverse_append]
  exact ⟨Text.takeWhile_append_of_stops hname hstops, Text.dropWhile_append_of_stops hname hstops⟩

theorem basename_append : basename (front ++ name) = name := by
  rw [basename, trimmed_append h, (span_reverse_append hfront h).1, List.reverse_reverse]

theorem leading_append : leading (front ++ name) = front := by
  rw [leading, trimmed_append h, (span_reverse_append hfront h).2, List.reverse_reverse]

/-- The directory of a path that ends with a plain name is a matter of what is in front of it. -/
theorem dirname_append :
    dirname (front ++ name) =
      if front = [] then here
      else if front = ['/'] ∨ front = ['/', '/'] then front
      else front.dropLast := by
  rw [dirname, leading_append hfront h]
  by_cases hnil : front = []
  · subst hnil
    simp [h.isAbsolute_eq]
  · rw [if_neg hnil, if_neg hnil]

end Append

/-- A plain name is the last component of what it is joined to. -/
theorem basename_join {name : Text} (h : IsPlain name) (dir : Text) :
    basename (join dir name) = name := by
  rw [join_plain h]
  exact basename_append (getLast?_lead dir) h

/-- All plain names that are joined to a directory come to lie in the same one. -/
theorem dirname_join {m n : Text} (hm : IsPlain m) (hn : IsPlain n) (dir : Text) :
    dirname (join dir m) = dirname (join dir n) := by
  rw [join_plain hm, join_plain hn, dirname_append (getLast?_lead dir) hm,
    dirname_append (getLast?_lead dir) hn]

/-! ### Names with an extension -/

/-- A text behind the last dot of a name is known from the name. -/
theorem append_dot_inj {a b s t : Text} (hs : '.' ∉ s) (ht : '.' ∉ t)
    (h : a ++ '.' :: s = b ++ '.' :: t) : a = b ∧ s = t := by
  have hreverse : s.reverse ++ '.' :: a.reverse = t.reverse ++ '.' :: b.reverse := by
    simpa using congrArg List.reverse h
  obtain ⟨hsuffix, hbase⟩ :=
    Text.append_inj_of_not_mem (mt List.mem_reverse.1 hs) (mt List.mem_reverse.1 ht) (by simp)
      (by simp) hreverse
  exact ⟨List.reverse_inj.1 (List.cons.inj hbase).2, List.reverse_inj.1 hsuffix⟩

/-- A name with an extension falls apart at its last dot. -/
theorem splitName_dot {base suffix : Text} (hbase : base ≠ [])
    (hsuffix : suffix ≠ []) (hdot : '.' ∉ suffix) :
    splitName (base ++ '.' :: suffix) = (base, '.' :: suffix) := by
  have hreverse : (base ++ '.' :: suffix).reverse = suffix.reverse ++ '.' :: base.reverse := by simp
  have hclass := Text.forall_bne_of_not_mem (mt List.mem_reverse.1 hdot)
  have hstops : Text.Stops (· != '.') ('.' :: base.reverse) := by simp
  have htake := Text.takeWhile_append_of_stops hclass hstops
  have hdrop := Text.dropWhile_append_of_stops hclass hstops
  -- the extension is not empty and holds no dot, so the name is not the one that goes up
  have hup : base ++ '.' :: suffix ≠ up := by
    intro hup
    obtain ⟨c, rest, rfl⟩ := List.exists_cons_of_ne_nil hsuffix
    have hc : c ∈ up := by
      rw [← hup]
      simp
    have hc : c = '.' := by simpa [up] using hc
    exact hdot (by simp [hc])
  obtain ⟨c, before, hreversed⟩ :=
    List.exists_cons_of_ne_nil (List.reverse_ne_nil_iff.2 hbase)
  have hback : (c :: before).reverse = base := by rw [← hreversed, List.reverse_reverse]
  unfold splitName
  rw [hreverse, htake, hdrop, hreversed]
  simp only [if_neg hup, hback, List.reverse_reverse]

/-- A stem holds no slash. -/
theorem slash_not_mem_stem (p : Text) : '/' ∉ stem p := by
  intro h
  refine slash_not_mem_basename p ?_
  rw [← stem_append_extension]
  exact List.mem_append_left _ h

end Transcode.Path

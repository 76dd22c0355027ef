/-
**The last component of a path, in normal form and in two parts.**

The normal form of a path may differ from it in every component but the last: a last component that
is a name of its own is still there, whatever stands before it and however many slashes follow it.
The extension of a last component begins with a dot and holds no other.

Main results:

* `Transcode.Path.dot_not_mem_extension` — an extension holds no dot but its first character;
* `Transcode.Path.basename_normalize` — **the normal form of a path ends with the same name**.
-/

import Transcode.Proofs.Path.Join

set_option relaxedAutoImplicit false
set_option autoImplicit false

namespace Transcode.Path

/-! ### Extensions -/

/-- The extension of a name is empty, or a dot and a text without dots. -/
theorem splitName_snd_cases (name : Text) :
    (splitName name).2 = [] ∨ ∃ suffix, (splitName name).2 = '.' :: suffix ∧ '.' ∉ suffix := by
  rw [splitName]
  split
  · split
    · exact Or.inl rfl
    · refine Or.inr ⟨_, rfl, ?_⟩
      intro hdot
      have hclass := Text.all_takeWhile (· != '.') name.reverse '.' (List.mem_reverse.1 hdot)
      exact absurd hclass (by simp)
  · exact Or.inl rfl

/-- An extension holds no dot but its first character. -/
theorem dot_not_mem_extension {p suffix : Text} {c : Char} (h : extension p = c :: suffix) :
    '.' ∉ suffix := by
  rw [extension] at h
  rcases splitName_snd_cases (basename p) with hnone | ⟨suffix', hsome, hdot⟩
  · rw [hnone] at h
    exact absurd h (by simp)
  · rw [hsome] at h
    rwa [← (List.cons.inj h).2]

/-! ### Slashes at the end -/

theorem components_append_slashes (s : Text) (n : Nat) :
    components (s ++ List.replicate n '/') = components s ++ List.replicate n [] := by
  induction n with
  | zero => simp
  | succ n ih =>
      have hslash : components ((s ++ List.replicate n '/') ++ ['/']) =
          components (s ++ List.replicate n '/') ++ [[]] := by
        rw [components, List.splitOn_append_cons_self]
        rfl
      rw [List.replicate_succ', List.replicate_succ', ← List.append_assoc, hslash, ih,
        List.append_assoc]

/-- Empty components do not count. -/
theorem resolve_append_empty (absolute : Bool) (parts : List Text) (n : Nat) :
    resolve absolute (parts ++ List.replicate n []) = resolve absolute parts := by
  have hempty : ∀ way, enter absolute way [] = way := fun _ => if_pos (Or.inl rfl)
  have hstay : ∀ way, (List.replicate n []).foldl (enter absolute) way = way := by
    intro way
    induction n with
    | zero => rfl
    | succ n ih => rw [List.replicate_succ, List.foldl_cons, hempty, ih]
  rw [resolve, List.foldl_append, hstay, resolve]

/-- A path is its trimmed form and some slashes. -/
theorem exists_slashes (p : Text) : ∃ n, p = trimmed p ++ List.replicate n '/' := by
  have hall : ∀ c ∈ p.reverse.takeWhile (· == '/'), c = '/' := by
    intro c hc
    simpa using Text.all_takeWhile (· == '/') p.reverse c hc
  refine ⟨(p.reverse.takeWhile (· == '/')).length, ?_⟩
  calc
    p = (p.reverse.takeWhile (· == '/') ++ p.reverse.dropWhile (· == '/')).reverse := by
      rw [List.takeWhile_append_dropWhile, List.reverse_reverse]
    _ = trimmed p ++ (p.reverse.takeWhile (· == '/')).reverse := List.reverse_append
    _ = trimmed p ++ List.replicate (p.reverse.takeWhile (· == '/')).length '/' := by
      conv_lhs => rw [List.eq_replicate_of_mem hall, List.reverse_replicate]

theorem basename_append_slash (s : Text) : basename (s ++ ['/']) = basename s := by
  have htrimmed : trimmed (s ++ ['/']) = trimmed s := by simp [trimmed]
  rw [basename, htrimmed, basename]

/-! ### Normal forms -/

/-- What stands before the last component is empty or ends with a slash. -/
theorem getLast?_leading (p : Text) : ∀ c ∈ (leading p).getLast?, c = '/' := by
  intro c hc
  rw [leading, List.getLast?_reverse] at hc
  simpa using Text.stops_dropWhile (· != '/') (trimmed p).reverse c hc

/-- A last component of its own is the last component that is not empty. -/
theorem exists_components {p : Text} (h : IsPlain (basename p)) :
    ∃ parts n, components p = parts ++ [basename p] ++ List.replicate n [] := by
  obtain ⟨n, hp⟩ := exists_slashes p
  have hname : components (basename p) = [basename p] := components_of_not_mem h.slash_not_mem
  have hfront : ∃ parts, components (leading p ++ basename p) = parts ++ [basename p] := by
    rcases List.eq_nil_or_concat' (leading p) with hnil | ⟨front, c, hconcat⟩
    · exact ⟨[], by rw [hnil, List.nil_append, hname, List.nil_append]⟩
    · obtain rfl : c = '/' := getLast?_leading p c (by simp [hconcat])
      refine ⟨components front, ?_⟩
      rw [hconcat, List.append_assoc, List.singleton_append, components,
        List.splitOn_append_cons_self, ← components, ← components, hname]
  obtain ⟨parts, hparts⟩ := hfront
  refine ⟨parts, n, ?_⟩
  conv_lhs => rw [hp]
  rw [components_append_slashes, ← leading_append_basename, hparts]

/-- **The normal form of a path ends with the same name**, if the path ends with a name of its
own. -/
theorem basename_normalize {p : Text} (h : IsPlain (basename p)) :
    basename (normalize p) = basename p := by
  obtain ⟨parts, n, hparts⟩ := exists_components h
  have hway : resolve (isAbsolute p) (components p) =
      resolve (isAbsolute p) parts ++ [basename p] := by
    rw [hparts, resolve_append_empty, resolve_concat h]
  have hname := basename_append (getLast?_opening (isAbsolute p) (resolve (isAbsolute p) parts)) h
  rw [normalize_of_resolve h hway]
  split
  · rw [basename_append_slash, hname]
  · rw [List.append_nil, hname]

end Transcode.Path

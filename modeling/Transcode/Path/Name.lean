/-
**The parts of a path: directory, last component, stem and extension.**

Slashes at the end of a path do not count.  The last component is what follows the last slash that
does; the directory is what stands before that one slash, so that further slashes before it stay.
The extension starts at the last dot of the last component, unless that dot is its first
character, and `..` has none.

Main definitions:

* `Transcode.Path.basename`, `Transcode.Path.dirname` — the last component and its directory;
* `Transcode.Path.stem`, `Transcode.Path.extension` — the last component up to its last dot, and
  from there on;
* `Transcode.Path.withExtension` — the file beside a path whose name is its stem with another
  extension.

Main results:

* `Transcode.Path.stem_append_extension` — the two parts of the last component are all of it.
-/

import Transcode.Path.Normal

set_option relaxedAutoImplicit false
set_option autoImplicit false

namespace Transcode.Path

/-! ### Directory and last component -/

/-- A path without the slashes at its end. -/
def trimmed (p : Text) : Text := (p.reverse.dropWhile (· == '/')).reverse

/-- The last component of a path. -/
def basename (p : Text) : Text := ((trimmed p).reverse.takeWhile (· != '/')).reverse

/-- What stands before the last component, the slash between the two included. -/
def leading (p : Text) : Text := ((trimmed p).reverse.dropWhile (· != '/')).reverse

/-- The directory of a path.  The slash before the last component is left out, unless it is the
first character of the path or the second of two leading ones. -/
def dirname (p : Text) : Text :=
  if leading p = [] then if isAbsolute p then ['/'] else here
  else if leading p = ['/'] ∨ leading p = ['/', '/'] then leading p
  else (leading p).dropLast

theorem leading_append_basename (p : Text) : leading p ++ basename p = trimmed p := by
  unfold leading basename
  rw [← List.reverse_append, List.takeWhile_append_dropWhile, List.reverse_reverse]

/-- A last component holds no slash. -/
theorem slash_not_mem_basename (p : Text) : '/' ∉ basename p := by
  intro h
  have := Text.all_takeWhile (· != '/') (trimmed p).reverse '/' (by simpa [basename] using h)
  simp at this

/-! ### Stem and extension -/

/-- A file name in two parts: up to its last dot, and from that dot on. -/
def splitName (name : Text) : Text × Text :=
  match name.reverse.dropWhile (· != '.') with
  | _ :: c :: before =>
    if name = up then (name, [])
    else ((c :: before).reverse, '.' :: (name.reverse.takeWhile (· != '.')).reverse)
  | _ => (name, [])

theorem splitName_append (name : Text) : (splitName name).1 ++ (splitName name).2 = name := by
  unfold splitName
  split
  · rename_i d c before h
    split
    · simp
    · have hd : d = '.' := by
        have := Text.stops_dropWhile (· != '.') name.reverse
        rw [h] at this
        simpa using this
      have := List.takeWhile_append_dropWhile (p := (· != '.')) (l := name.reverse)
      rw [h, hd] at this
      have := congrArg List.reverse this
      simpa using this
  · simp

/-- The last component of a path without its extension. -/
def stem (p : Text) : Text := (splitName (basename p)).1

/-- The extension of a path, with its dot; empty if there is none. -/
def extension (p : Text) : Text := (splitName (basename p)).2

/-- The two parts of the last component are all of it. -/
theorem stem_append_extension (p : Text) : stem p ++ extension p = basename p :=
  splitName_append (basename p)

/-- The file in the directory of `p` whose name is the stem of `p`, a dot and `ext`. -/
def withExtension (p ext : Text) : Text := join (dirname p) (stem p ++ '.' :: ext)

example : dirname "a//b/".toList = "a/".toList ∧ dirname "//b".toList = "//".toList := by decide
example : stem "...".toList = "..".toList ∧ extension "...".toList = here := by decide
example : stem "..".toList = up ∧ stem ".x".toList = ".x".toList := by decide
example : withExtension "d/movie.mkv".toList "eng.srt".toList = "d/movie.eng.srt".toList := by
  decide

end Transcode.Path

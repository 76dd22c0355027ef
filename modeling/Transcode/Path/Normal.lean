/-
**Normal form of a path, and joining.**

A path is a text whose components stand between slashes.  Its normal form has no empty component
and no `.`, and a `..` only where nothing is left to go up from: at the front of a relative path.
A leading slash stays, and so does a trailing one.  Joining a directory and a name puts a slash
between them and takes the normal form; an empty directory contributes nothing.

Main definitions:

* `Transcode.Path.components` — the texts between the slashes;
* `Transcode.Path.enter` — one component more on a way from the start of the path;
* `Transcode.Path.normalize` — the normal form;
* `Transcode.Path.join` — a name inside a directory.

Main results:

* `Transcode.Path.components_cons_slash`, `Transcode.Path.components_of_not_mem` — how a path falls
  into components.
-/

import Transcode.Text.Run

set_option relaxedAutoImplicit false
set_option autoImplicit false

namespace Transcode.Path

/-! ### Components -/

/-- The texts between the slashes of a path, the empty ones included. -/
def components (p : Text) : List Text := p.splitOn '/'

/-- The component that stays where it is. -/
def here : Text := ['.']

/-- The component that goes up. -/
def up : Text := ['.', '.']

@[simp] theorem components_nil : components [] = [[]] := by simp [components]

/-- A path without a slash is one component. -/
theorem components_of_not_mem {p : Text} (h : '/' ∉ p) : components p = [p] := by
  induction p with
  | nil => simp
  | cons c p ih =>
      have hc : ¬ c = '/' := fun e => h (by simp [e])
      have hp : components p = [p] := ih fun hm => h (List.mem_cons_of_mem c hm)
      unfold components at hp ⊢
      rw [List.splitOn, List.splitOnP_cons_eq_if_modifyHead, ← List.splitOn, hp]
      simp [hc]

theorem components_cons_slash (p : Text) : components ('/' :: p) = [] :: components p := by
  unfold components
  rw [List.splitOn, List.splitOnP_cons_eq_if_modifyHead, ← List.splitOn]
  simp

/-! ### Normal form -/

/-- One component more on a way that is kept with its last component first.  Going up undoes the
last component; with nothing left to undo it stays at the root of an absolute path and is kept in
a relative one. -/
def enter (absolute : Bool) (way : List Text) (component : Text) : List Text :=
  if component = [] ∨ component = here then way
  else if component = up then
    match way with
    | [] => if absolute then [] else [up]
    | last :: before => if last = up then up :: way else before
  else component :: way

/-- The components of the normal form. -/
def resolve (absolute : Bool) (parts : List Text) : List Text :=
  (parts.foldl (enter absolute) []).reverse

/-- Whether a path starts at the root. -/
def isAbsolute (p : Text) : Bool := p.head? == some '/'

/-- The normal form of a path.  The empty path is the current directory. -/
def normalize (p : Text) : Text :=
  let body := ['/'].intercalate (resolve (isAbsolute p) (components p))
  let trailing := if p.getLast? = some '/' then ['/'] else []
  if isAbsolute p then
    if body = [] then ['/'] else '/' :: body ++ trailing
  else
    if body = [] then here ++ trailing else body ++ trailing

/-- The path of `name` inside the directory `dir`. -/
def join (dir name : Text) : Text :=
  normalize (if dir = [] then name else if name = [] then dir else dir ++ '/' :: name)

example : join "a/b/".toList "../c".toList = "a/c".toList := by decide
example : join [] [] = here ∧ join "/".toList "../x".toList = "/x".toList := by decide
example : normalize "./..//a/../..".toList = "../..".toList := by decide
example : normalize "a/..".toList = here ∧ normalize "a/../".toList = "./".toList := by decide

end Transcode.Path

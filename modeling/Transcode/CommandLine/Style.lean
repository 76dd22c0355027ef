/-
**Coloured text for terminals.**

A style is a stack of attributes, each switched on and off by an escape code.  Inside a styled text
an attribute that is switched off is switched on again, and line breaks stand outside the style, so
that it does not bleed into the margin of the next line.  Without colour, and for an empty text,
nothing is added.

What the program answers is put together for any way of painting, and results about it hold for
any.  This one, that of terminals, stands in for a library from outside where the program runs.

Main definitions:

* `Transcode.Style`, `Transcode.Painter` — the styles, and a way of putting text in them;
* `Transcode.Palette`, `Transcode.Style.paint` — whether text is coloured at all, and a text in a
  style.
-/

import Transcode.Text.Decimal

set_option relaxedAutoImplicit false
set_option autoImplicit false

namespace Transcode

/-- A style of text. -/
inductive Style where
  | red
  | blue
  | cyan
  | gray
  | bold
  | heading
  deriving DecidableEq, Repr

/-- A way of putting text in a style. -/
abbrev Painter := Style → Text → Text

/-- Whether text is coloured. -/
inductive Palette where
  | plain
  | colored
  deriving DecidableEq, Repr, Inhabited

namespace Style

/-- The attributes of a style from the outermost in: the codes that switch each on and off.  A
heading is bold and underlined. -/
def attributes : Style → List (Nat × Nat)
  | red => [(31, 39)]
  | blue => [(34, 39)]
  | cyan => [(36, 39)]
  | gray => [(90, 39)]
  | bold => [(1, 22)]
  | heading => [(1, 22), (4, 24)]

/-- The escape sequence of a code. -/
def escape (code : Nat) : Text := '\x1b' :: '[' :: Text.ofNat code ++ ['m']

/-- What switches a style on: its attributes from the outermost in. -/
def opening (style : Style) : Text := style.attributes.flatMap fun a => escape a.1

/-- What switches a style off: its attributes from the innermost out. -/
def closing (style : Style) : Text := style.attributes.reverse.flatMap fun a => escape a.2

/-- A text in which `again` follows every occurrence of `off`.  `done` is what has been gone
through, last character first. -/
def follow (off again : Text) (done : Text) : Text → Text
  | [] => done.reverse
  | c :: rest =>
    if off.reverse.isPrefixOf (c :: done) then
      follow off again (again.reverse ++ c :: done) rest
    else follow off again (c :: done) rest

/-- A text in which every attribute of a style that is switched off is switched on again. -/
def reopened (style : Style) (s : Text) : Text :=
  style.attributes.reverse.foldl (fun t a => follow (escape a.2) (escape a.1) [] t) s

/-- A text whose line breaks stand outside a style. -/
def broken (style : Style) : Text → Text
  | [] => []
  | '\r' :: '\n' :: rest => style.closing ++ '\r' :: '\n' :: style.opening ++ broken style rest
  | '\n' :: rest => style.closing ++ '\n' :: style.opening ++ broken style rest
  | c :: rest => c :: broken style rest

/-- A text in a style. -/
def paint (palette : Palette) : Painter := fun style s =>
  match palette with
  | .plain => s
  | .colored =>
    if s = [] then [] else style.opening ++ broken style (reopened style s) ++ style.closing

end Style

end Transcode

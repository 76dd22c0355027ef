/-
**Writing documents as text.**

A document is written either on one line without any space, or indented by two spaces for each
level with one item or field to a line.  Empty lists and objects are written on one line in both
layouts.  In a text the quote, the backslash and the control characters below the space are
escaped, and nothing else is.

Main definitions:

* `Transcode.Json.Layout` — the two layouts;
* `Transcode.Json.quote` — a text between quotes;
* `Transcode.Json.print` — the written form of a document.
-/

import Transcode.Json.Basic
import Transcode.Text.Decimal

set_option relaxedAutoImplicit false
set_option autoImplicit false

namespace Transcode.Json

/-- How a document is spread over lines. -/
inductive Layout where
  | compact
  | indented
  deriving DecidableEq, Repr

namespace Layout

/-- What stands before an item at a depth, and before the closing bracket of that depth. -/
def lineStart : Layout → Nat → Text
  | compact, _ => []
  | indented, depth => '\n' :: List.replicate (2 * depth) ' '

/-- What stands between the name of a field and its value. -/
def colon : Layout → Text
  | compact => [':']
  | indented => [':', ' ']

end Layout

/-! ### Texts -/

/-- A character inside quotes.  Control characters without a letter of their own are written as
four hexadecimal digits. -/
def escape (c : Char) : Text :=
  if c = '"' then "\\\"".toList
  else if c = '\\' then "\\\\".toList
  else if c = '\n' then "\\n".toList
  else if c = '\r' then "\\r".toList
  else if c = '\t' then "\\t".toList
  else if c.toNat = 8 then "\\b".toList
  else if c.toNat = 12 then "\\f".toList
  else if c.toNat < 32 then
    "\\u00".toList ++ [Nat.digitChar (c.toNat / 16), Nat.digitChar (c.toNat % 16)]
  else [c]

/-- A text between quotes. -/
def quote (s : Text) : Text := '"' :: s.flatMap escape ++ ['"']

/-! ### Documents -/

mutual

/-- The written form of a document that stands at a depth. -/
def printAt (layout : Layout) (depth : Nat) : Json → Text
  | null => "null".toList
  | bool true => "true".toList
  | bool false => "false".toList
  | number n => Text.ofInt n
  | text s => quote s
  | list [] => "[]".toList
  | list (item :: items) =>
    '[' :: layout.lineStart (depth + 1) ++ printAt layout (depth + 1) item ++
      printItems layout (depth + 1) items ++ layout.lineStart depth ++ [']']
  | object [] => "\x7b\x7d".toList
  | object ((name, value) :: fields) =>
    '\x7b' :: layout.lineStart (depth + 1) ++ quote name ++ layout.colon ++
      printAt layout (depth + 1) value ++
      printFields layout (depth + 1) fields ++ layout.lineStart depth ++ ['\x7d']

/-- The items of a list after its first. -/
def printItems (layout : Layout) (depth : Nat) : List Json → Text
  | [] => []
  | item :: items =>
    ',' :: layout.lineStart depth ++ printAt layout depth item ++ printItems layout depth items

/-- The fields of an object after its first. -/
def printFields (layout : Layout) (depth : Nat) : List (Text × Json) → Text
  | [] => []
  | (name, value) :: fields =>
    ',' :: layout.lineStart depth ++ quote name ++ layout.colon ++
      printAt layout depth value ++ printFields layout depth fields

end

/-- The written form of a document. -/
def print (layout : Layout) (document : Json) : Text := printAt layout 0 document

end Transcode.Json

/-
**Suggestions for misspelt words.**

A word is turned into another by deleting, inserting or replacing a character, or by swapping two
neighbours that are not edited again.  A known word is suggested for an unknown one if at most three
edits lie between them and more than two fifths of the longer one is kept; of several, those with
the fewest edits.  Characters outside the basic plane count double, here as in all lengths.

Suggestions are those of the parser of arguments, which stands outside; see
`Transcode.CommandLine.Arguments`.

Main definitions:

* `Transcode.Suggestion.within` — one word can be turned into another by so many edits;
* `Transcode.Suggestion.nearest` — the known words to suggest for a word;
* `Transcode.Suggestion.sentence` — the line that suggests them.
-/

import Transcode.Text.Blank

set_option relaxedAutoImplicit false
set_option autoImplicit false

namespace Transcode.Suggestion

/-! ### Edits -/

/-- The code units of a text: one for a character of the basic plane, two for any other. -/
def units (s : Text) : List Nat :=
  s.flatMap fun c =>
    if c.toNat < 0x10000 then [c.toNat]
    else [0xD800 + (c.toNat - 0x10000) / 0x400, 0xDC00 + (c.toNat - 0x10000) % 0x400]

/-- Whether the first word can be turned into the second by at most `edits` edits. -/
def within (edits : Nat) : List Nat → List Nat → Bool
  | [], ys => ys.length ≤ edits
  | xs, [] => xs.length ≤ edits
  | x :: xs, y :: ys =>
    (x == y && within edits xs ys) ||
      match edits with
      | 0 => false
      | n + 1 =>
        within n xs (y :: ys) || within n (x :: xs) ys || within n xs ys ||
          match xs, ys with
          | x' :: xs', y' :: ys' => x == y' && x' == y && within n xs' ys'
          | _, _ => false
termination_by xs ys => xs.length + ys.length

/-- The most edits between a word and a suggestion. -/
def maxEdits : Nat := 3

/-- The number of edits between two words, if it is not too large. -/
def edits? (word known : Text) : Option Nat :=
  (List.range (maxEdits + 1)).find? fun n => within n (units word) (units known)

/-- Whether more than two fifths of the longer word are kept. -/
def isSimilar (word known : Text) (edits : Nat) : Bool :=
  let length := max (units word).length (units known).length
  2 * length < 5 * (length - edits)

/-! ### Suggestions -/

/-- The known words that are close enough to a word, with the edits between. -/
def candidates (word : Text) (known : List Text) : List (Nat × Text) :=
  known.eraseDups.filterMap fun k =>
    ((edits? word k).filter (isSimilar word k)).map fun n => (n, k)

/-- The known words to suggest for a word: those with the fewest edits, in alphabetical order. -/
def nearest (word : Text) (known : List Text) : List Text :=
  let close := candidates word known
  let best := close.filter fun c => close.all fun d => c.1 ≤ d.1
  (best.map (·.2)).mergeSort fun a b => !decide (b < a)

/-- What a long option starts with. -/
def dashes : Text := "--".toList

/-- The known words to suggest for an argument.  For one that starts with two dashes, both it and
the known words are compared without their first two characters. -/
def forArgument (arg : Text) (known : List Text) : List Text :=
  match dashes.isPrefixOf? arg with
  | none => nearest arg known
  | some word => (nearest word (known.map (·.drop 2))).map (dashes ++ ·)

/-- The line that suggests known words for an argument, after a line break; nothing if there is
none to suggest. -/
def sentence (arg : Text) (known : List Text) : Text :=
  match forArgument arg known with
  | [] => []
  | [k] => "\n(Did you mean ".toList ++ k ++ "?)".toList
  | ks => "\n(Did you mean one of ".toList ++ ", ".toList.intercalate ks ++ "?)".toList

end Transcode.Suggestion

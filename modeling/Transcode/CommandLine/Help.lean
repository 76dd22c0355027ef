/-
**Help pages.**

A page shows how to use the program or a command, what it does, and its options and commands in
two columns.  The left column is as wide as its longest entry on the page; the right one is filled
with whole words up to the width of the page.

The layout is that of the parser of arguments, which stands outside; see
`Transcode.CommandLine.Arguments`.

Main definitions:

* `Transcode.Help.Page` — a page;
* `Transcode.Help.Page.render` — the page as text;
* `Transcode.Help.program`, `Transcode.Help.ofCommand` — the pages of the program.
-/

import Transcode.CommandLine.Declaration

set_option relaxedAutoImplicit false
set_option autoImplicit false

namespace Transcode.Help

/-- An entry of a page: a term and what it means. -/
structure Entry where
  term : Text
  description : Text
  deriving DecidableEq, Repr

/-- A help page. -/
structure Page where
  /-- How to write the command. -/
  usage : Text
  /-- What it does. -/
  description : Text
  /-- Titled lists of entries. -/
  sections : List (Text × List Entry)
  deriving DecidableEq, Repr

/-! ### Layout -/

/-- The width of a page. -/
def pageWidth : Nat := 80

/-- The indentation of an entry. -/
def entryIndent : Nat := 2

/-- The space between the columns. -/
def gutter : Nat := 2

/-- The least width of a column that text is filled into; a narrower one is not broken. -/
def minColumn : Nat := 40

/-- Blanks. -/
def blanks (n : Nat) : Text := List.replicate n ' '

/-- Words on lines of at most `width` characters, going on from a line that is not full. -/
def fill (width : Nat) (line : Text) : List Text → List Text
  | [] => [line]
  | word :: words =>
    if line.length + 1 + word.length ≤ width then fill width (line ++ ' ' :: word) words
    else line :: fill width word words

/-- The lines of a text in a column.  The last place of the column stays free. -/
def column (width : Nat) (s : Text) : List Text :=
  if width < minColumn then [s]
  else
    match s.splitOn ' ' with
    | [] => []
    | word :: words => fill (width - 1) word words

/-- The lines of an entry whose left column has the given width. -/
def Entry.lines (left : Nat) (e : Entry) : List Text :=
  match column (pageWidth - entryIndent - (left + gutter)) e.description with
  | [] => [e.term]
  | first :: more =>
    (e.term.rightpad (left + gutter) ' ' ++ first) :: more.map (blanks (left + gutter) ++ ·)

namespace Page

/-- The width of the left column: the longest term on the page. -/
def leftWidth (p : Page) : Nat :=
  ((p.sections.flatMap (·.2)).map (·.term.length)).foldl max 0

/-- The lines of a page. -/
def lines (p : Page) : List Text :=
  ["Usage: ".toList ++ p.usage, []] ++ column pageWidth p.description ++ [[]] ++
    [[]].intercalate (p.sections.map fun s =>
      (s.1 ++ [':']) :: (s.2.flatMap (Entry.lines p.leftWidth)).map (blanks entryIndent ++ ·))

/-- The page as text. -/
def render (p : Page) : Text := p.lines.flatMap (· ++ ['\n'])

end Page

/-! ### The pages -/

/-- The entry of an option. -/
def flagEntry (f : Flag) : Entry := ⟨f.term, f.description⟩

/-- Words with blanks between them. -/
def phrase (words : List Text) : Text := [' '].intercalate words

/-- What stands for the options in a usage line. -/
def optionsTerm : Text := "[options]".toList

/-- The entry of a command.  Options are mentioned if it has any besides the one for help. -/
def commandEntry (c : Command) : Entry :=
  ⟨phrase ([c.name] ++ (if c.flags = [] then [] else [optionsTerm]) ++
    c.arguments.map Argument.term), c.description⟩

/-- The entry of the command that shows help. -/
def helpEntry : Entry :=
  ⟨phrase [Program.helpCommand, "[command]".toList], Flag.help.description⟩

/-- The page of the program. -/
def program : Page where
  usage := phrase [Program.name, optionsTerm, "[command]".toList]
  description := Program.description
  sections := [("Options".toList, [flagEntry .version, flagEntry .help]),
    ("Commands".toList, Command.all.map commandEntry ++ [helpEntry])]

/-- The page of a command. -/
def ofCommand (c : Command) : Page where
  usage := phrase ([Program.name, c.name, optionsTerm] ++ c.arguments.map Argument.term)
  description := c.description
  sections := [("Options".toList, (c.flags ++ [Flag.help]).map flagEntry)]

end Transcode.Help

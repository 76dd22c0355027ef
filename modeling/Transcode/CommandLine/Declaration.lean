/-
**The commands of the program and their options.**

Main definitions:

* `Transcode.Program` — name, version and description of the program;
* `Transcode.Flag` — the options, with their spellings;
* `Transcode.Command` — the commands, with their arguments and options.
-/

import Transcode.Text.Blank

set_option relaxedAutoImplicit false
set_option autoImplicit false

namespace Transcode

namespace Program

/-- The name of the program. -/
def name : Text := "encode-spec".toList

/-- The version of the program. -/
def version : Text := "1.0.0".toList

/-- What the program does. -/
def description : Text := "Resolve encode-job specification strings".toList

end Program

/-! ### Options -/

/-- An option of the program or of a command. -/
inductive Flag where
  | version
  | help
  | json
  | outputDir
  deriving DecidableEq, Repr

namespace Flag

/-- The letter of the one-letter spelling, if the option has one. -/
def letter? : Flag → Option Char
  | version => some 'V'
  | help => some 'h'
  | json => none
  | outputDir => some 'o'

/-- The long spelling. -/
def long : Flag → Text
  | version => "--version".toList
  | help => "--help".toList
  | json => "--json".toList
  | outputDir => "--output-dir".toList

/-- What stands for the value of the option, if it takes one. -/
def placeholder? : Flag → Option Text
  | outputDir => some "<dir>".toList
  | version | help | json => none

/-- Whether the option takes a value. -/
def takesValue (f : Flag) : Bool := f.placeholder?.isSome

/-- What the option does. -/
def description : Flag → Text
  | version => "output the version number".toList
  | help => "display help for command".toList
  | json => "Output in JSON format".toList
  | outputDir => "Directory the output paths point into".toList

/-- The spellings of the option with the placeholder of its value. -/
def term (f : Flag) : Text :=
  (f.letter?.elim [] fun c => ['-', c, ',', ' ']) ++ f.long ++
    f.placeholder?.elim [] fun p => ' ' :: p

/-- Whether an argument is the option, with nothing else in it. -/
def isSpelled (f : Flag) (arg : Text) : Bool :=
  arg == f.long || f.letter?.any fun c => arg == ['-', c]

end Flag

/-! ### Commands -/

/-- An argument of a command. -/
structure Argument where
  name : Text
  required : Bool
  deriving DecidableEq, Repr

/-- An argument in a usage line: in angle brackets if it is required, in square ones if not. -/
def Argument.term (a : Argument) : Text :=
  if a.required then '<' :: a.name ++ ['>'] else '[' :: a.name ++ [']']

/-- A command of the program. -/
inductive Command where
  | resolve
  | encoders
  | filters
  deriving DecidableEq, Repr

namespace Command

/-- The commands, in the order in which they are listed. -/
def all : List Command := [resolve, encoders, filters]

/-- The name of a command. -/
def name : Command → Text
  | resolve => "resolve".toList
  | encoders => "encoders".toList
  | filters => "filters".toList

/-- The command that a name stands for. -/
def ofName? (s : Text) : Option Command := all.find? fun c => c.name == s

/-- What a command does. -/
def description : Command → Text
  | resolve => "Resolve the outputs a specification describes for a source file".toList
  | encoders => "List supported video and audio encoders".toList
  | filters => "Show the specification syntax".toList

/-- The source that `resolve` needs. -/
def sourceArgument : Argument := ⟨"source".toList, true⟩

/-- The specification that `resolve` may be given. -/
def formatsArgument : Argument := ⟨"formats".toList, false⟩

/-- The arguments of a command.  Further ones are ignored. -/
def arguments : Command → List Argument
  | resolve => [sourceArgument, formatsArgument]
  | encoders | filters => []

/-- The options of a command besides the one for help. -/
def flags : Command → List Flag
  | resolve => [.json, .outputDir]
  | encoders => [.json]
  | filters => []

end Command

/-- The name of the command that shows help. -/
def Program.helpCommand : Text := "help".toList

end Transcode

/-
**Reading the arguments of the program.**

The arguments are read twice.  The program divides them at the first one that looks like an option:
what stands before names the command and its first operands, and the rest is left to the command,
which picks its own options out of it.  Two dashes end the options.  The version is asked for by an
option anywhere before that, also with more letters after its one-letter spelling.  Options that
nobody knows refuse the command, but a request for help among them comes first.

Reading arguments is the work of a parser from outside.  This module, the help pages and the
suggestions stand in for it where the program runs; what the commands answer to arguments that have
been read does not depend on them.

Main definitions:

* `Transcode.Invocation` — what the arguments ask for;
* `Transcode.Complaint` — why they ask for nothing;
* `Transcode.Invocation.ofArguments` — what some arguments ask for.
-/

import Transcode.CommandLine.Help
import Transcode.CommandLine.Suggestion

set_option relaxedAutoImplicit false
set_option autoImplicit false

namespace Transcode

/-! ### Complaints -/

/-- Why arguments cannot be used. -/
inductive Complaint where
  | unknownCommand (name : Text)
  /-- An option that the command, or the program, does not have. -/
  | unknownFlag (command : Option Command) (arg : Text)
  | missingArgument (argument : Argument)
  | missingValue (flag : Flag)
  deriving DecidableEq, Repr

namespace Complaint

/-- The commands that a misspelt one may be. -/
def knownCommands : List Text := Command.all.map Command.name ++ [Program.helpCommand]

/-- The long options that a misspelt one may be: those of the command, and those of the program. -/
def knownFlags (command : Option Command) : List Text :=
  let own := command.elim [] fun c => c.flags ++ [Flag.help]
  (own ++ [Flag.version, Flag.help]).map Flag.long

/-- The sentence for a complaint.  Suggestions are made for commands and for long options. -/
def message : Complaint → Text
  | unknownCommand name =>
    "error: unknown command '".toList ++ name ++ "'".toList ++
      Suggestion.sentence name knownCommands
  | unknownFlag command arg =>
    "error: unknown option '".toList ++ arg ++ "'".toList ++
      if Suggestion.dashes.isPrefixOf arg then Suggestion.sentence arg (knownFlags command) else []
  | missingArgument argument =>
    "error: missing required argument '".toList ++ argument.name ++ "'".toList
  | missingValue flag => "error: option '".toList ++ flag.term ++ "' argument missing".toList

end Complaint

/-! ### Picking out options -/

/-- The argument that ends the options. -/
def Flag.terminator : Text := "--".toList

/-- Whether an argument looks like an option: a dash and something after it. -/
def Flag.isLike (arg : Text) : Bool :=
  match arg with
  | '-' :: _ :: _ => true
  | _ => false

/-- The option of a list that an argument carries together with its value: after the one-letter
spelling, or after the long one and an equals sign. -/
def Flag.joined? (flags : List Flag) (arg : Text) : Option (Flag × Text) :=
  (flags.filter takesValue).findSome? fun f =>
    ((f.letter?.bind fun c => ['-', c].isPrefixOf? arg) <|>
      (f.long ++ ['=']).isPrefixOf? arg).map fun value => (f, value)

/-- What a command has found in its arguments. -/
structure Scanned where
  operands : List Text
  /-- The first option the command does not know, and everything not understood after it. -/
  unknown : List Text
  json : Bool
  outputDir : Option Text
  deriving DecidableEq, Repr

namespace Scanned

/-- Nothing is found yet. -/
def empty : Scanned := ⟨[], [], false, none⟩

/-- With an option; the last value of an option counts. -/
def set (s : Scanned) (f : Flag) (value : Text) : Scanned :=
  match f with
  | .json => { s with json := true }
  | .outputDir => { s with outputDir := some value }
  | .version | .help => s

/-- With an argument that is no option of the command. -/
def leave (s : Scanned) (arg : Text) : Scanned :=
  if s.unknown ≠ [] ∨ Flag.isLike arg then { s with unknown := s.unknown ++ [arg] }
  else { s with operands := s.operands ++ [arg] }

/-- With everything that follows the end of the options. -/
def finish (s : Scanned) (rest : List Text) : Scanned :=
  if s.unknown ≠ [] then { s with unknown := s.unknown ++ Flag.terminator :: rest }
  else { s with operands := s.operands ++ rest }

/-- Picks the options of a list out of arguments.  Fails with an option whose value is missing. -/
def scan (flags : List Flag) (s : Scanned) : List Text → Except Flag Scanned
  | [] => .ok s
  | arg :: rest =>
    if arg = Flag.terminator then .ok (s.finish rest)
    else
      match flags.find? (·.isSpelled arg) with
      | some f =>
        if f.takesValue then
          match rest with
          | [] => .error f
          | value :: rest => scan flags (s.set f value) rest
        else scan flags (s.set f []) rest
      | none =>
        match Flag.joined? flags arg with
        | some (f, value) => scan flags (s.set f value) rest
        | none => scan flags (s.leave arg) rest

end Scanned

/-! ### Invocations -/

/-- What the arguments ask for. -/
inductive Invocation where
  | resolve (source : Text) (formats : Option Text) (json : Bool) (outputDir : Option Text)
  | encoders (json : Bool)
  | filters
  | version
  /-- A help page that was asked for. -/
  | help (page : Help.Page)
  /-- The help page of the program, shown because the arguments ask for nothing. -/
  | usage
  | refused (complaint : Complaint)
  deriving DecidableEq, Repr

namespace Invocation

/-- Whether an argument asks for the version. -/
def asksVersion (arg : Text) : Bool :=
  Flag.version.isSpelled arg || (Flag.version.letter?.any fun c => ['-', c].isPrefixOf arg)

/-- Whether an argument asks for help. -/
def asksHelp (arg : Text) : Bool := Flag.help.isSpelled arg

/-- The arguments up to the first that looks like an option, and the rest.  Where that one ends the
options, what follows it belongs to the first part. -/
def divide (args : List Text) : List Text × List Text :=
  let before := args.takeWhile fun arg => !Flag.isLike arg
  match args.dropWhile fun arg => !Flag.isLike arg with
  | [] => (before, [])
  | arg :: rest => if arg = Flag.terminator then (before ++ rest, []) else (before, arg :: rest)

/-- What a command is asked for with some operands and options. -/
def ofOperands (c : Command) (operands : List Text) (s : Scanned) : Invocation :=
  match c, operands with
  | .resolve, [] => refused (.missingArgument Command.sourceArgument)
  | .resolve, source :: more => resolve source more.head? s.json s.outputDir
  | .encoders, _ => encoders s.json
  | .filters, _ => filters

/-- What a command is asked for with some operands and arguments that are left to it. -/
def ofCommand (c : Command) (operands rest : List Text) : Invocation :=
  match Scanned.empty.scan c.flags rest with
  | .error f => refused (.missingValue f)
  | .ok s =>
    if s.unknown.any asksHelp then help (Help.ofCommand c)
    else
      match s.unknown with
      | arg :: _ => refused (.unknownFlag (some c) arg)
      | [] => ofOperands c (operands ++ s.operands) s

/-- The help page that the help command is asked for. -/
def ofHelp : List Text → Invocation
  | [] | [] :: _ => help Help.program
  | name :: _ =>
    match Command.ofName? name with
    | some c => help (Help.ofCommand c)
    | none => usage

/-- What some arguments ask for. -/
def ofArguments (args : List Text) : Invocation :=
  if (args.takeWhile (· ≠ Flag.terminator)).any asksVersion then version
  else
    match divide args with
    | ([], []) => usage
    | ([], arg :: rest) =>
      if (arg :: rest).any asksHelp then help Help.program else refused (.unknownFlag none arg)
    | (name :: operands, rest) =>
      match Command.ofName? name with
      | some c => ofCommand c operands rest
      | none =>
        if name = Program.helpCommand then ofHelp operands
        else if rest.any asksHelp then help Help.program
        else refused (.unknownCommand name)

end Invocation

end Transcode

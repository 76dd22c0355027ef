/-
**Settings taken from the environment.**

Three variables stand in for what a command line leaves out: a specification, whether to write
documents, and a directory.  Other variables are not looked at.

Main definitions:

* `Transcode.Settings` — the settings;
* `Transcode.Settings.declaration` — the declaration of the variables;
* `Transcode.Settings.load` — the settings of an environment, or the error of the checker.

Main results:

* `Transcode.Settings.load_of_fits` — an environment with nothing unexpected is read, whatever
  the checker.
-/

import Transcode.CommandLine.Environment

set_option relaxedAutoImplicit false
set_option autoImplicit false

namespace Transcode

/-- How results are shown: as text for people, or as documents. -/
inductive Format where
  | pretty
  | json
  deriving DecidableEq, Repr, Inhabited

/-- The name of a format in the environment. -/
def Format.name : Format → Text
  | pretty => "pretty".toList
  | json => "json".toList

/-- What the environment settles in advance. -/
structure Settings where
  /-- The specification to use if none is given. -/
  formats : Option Text
  format : Format
  /-- The directory to use if none is given. -/
  outputDir : Option Text
  deriving DecidableEq, Repr

namespace Settings

/-- The variable of the specification. -/
def formatsVariable : Text := "ENCODE_SPEC_FORMATS".toList

/-- The variable of the format. -/
def formatVariable : Text := "ENCODE_SPEC_OUTPUT".toList

/-- The variable of the directory. -/
def outputDirVariable : Text := "ENCODE_SPEC_OUTPUT_DIR".toList

/-- The declaration of the variables.  Only the format has a value to fall back on. -/
def declaration : List Variable :=
  [⟨formatsVariable, .anything, none⟩,
    ⟨formatVariable, .oneOf [Format.pretty.name, Format.json.name], some Format.pretty.name⟩,
    ⟨outputDirVariable, .nonempty, none⟩]

/-- What the values of the variables settle. -/
def ofValues (values : Environment) : Settings where
  formats := values formatsVariable
  format := if values formatVariable = some Format.json.name then .json else .pretty
  outputDir := values outputDirVariable

/-- The settings of an environment, or the error of the checker. -/
def load {ε : Type} (check : Checker ε) (env : Environment) : Except ε Settings :=
  (check declaration env).map ofValues

/-- An environment with nothing unexpected is read: what its variables say holds, and a variable
that is missing leaves the specification and the directory open, and the format pretty. -/
theorem load_of_fits {ε : Type} {check : Checker ε} (hcheck : check.Reads) {env : Environment}
    (h : env.Fits declaration) : load check env = .ok (ofValues env) := by
  obtain ⟨values, hvalues, heq⟩ := hcheck declaration env (by decide) h
  have hformats := heq ⟨formatsVariable, .anything, none⟩ (by simp [declaration])
  have hformat := heq ⟨formatVariable, .oneOf [Format.pretty.name, Format.json.name],
    some Format.pretty.name⟩ (by simp [declaration])
  have houtputDir := heq ⟨outputDirVariable, .nonempty, none⟩ (by simp [declaration])
  have hjson : values formatVariable = some Format.json.name ↔
      env formatVariable = some Format.json.name := by
    have hne : Format.pretty.name ≠ Format.json.name := by decide
    rw [hformat]
    cases env formatVariable <;> simp [hne]
  rw [load, hvalues]
  simp only [Except.map, ofValues, hformats, hjson, houtputDir, Option.or_none]

end Settings

end Transcode

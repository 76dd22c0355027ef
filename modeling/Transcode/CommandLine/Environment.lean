/-
**Variables of the environment, and what is expected of them.**

A program declares the variables that it looks at: what the value of each has to be like, and what
stands in for one that is missing.  Checking an environment against such a declaration is the work
of a library from outside, and a parameter of the program; what the program relies on is that an
environment with nothing unexpected is read.  The checker here stands in for that library where the
program runs.  It reports every variable with an unusable value, not only the first.

Main definitions:

* `Transcode.Expectation`, `Transcode.Variable` — declared variables;
* `Transcode.Checker`, `Transcode.Checker.Reads` — ways of checking, and what they are relied on
  for;
* `Transcode.Environment.Issue` — what can be wrong with a variable;
* `Transcode.Environment.check` — a checker.

Main results:

* `Transcode.Environment.reads_check` — this checker can be relied on.
-/

import Transcode.Text.Blank

set_option relaxedAutoImplicit false
set_option autoImplicit false

namespace Transcode

/-- The values of variables, as far as they are there. -/
abbrev Environment := Text → Option Text

/-! ### Declarations -/

/-- What the value of a variable has to be like. -/
inductive Expectation where
  | anything
  | oneOf (names : List Text)
  | nonempty
  deriving DecidableEq, Repr

/-- A value is as expected. -/
def Expectation.Admits : Expectation → Text → Prop
  | anything, _ => True
  | oneOf names, s => s ∈ names
  | nonempty, s => s ≠ []

instance : DecidableRel Expectation.Admits
  | .anything, _ => inferInstanceAs (Decidable True)
  | .oneOf names, s => inferInstanceAs (Decidable (s ∈ names))
  | .nonempty, s => inferInstanceAs (Decidable (s ≠ []))

/-- A variable that a program looks at. -/
structure Variable where
  name : Text
  expectation : Expectation
  /-- The value that stands in for a missing one. -/
  fallback : Option Text
  deriving DecidableEq, Repr

/-- Nothing in an environment is unexpected: every declared variable is missing or has a value that
can be used. -/
def Environment.Fits (env : Environment) (declared : List Variable) : Prop :=
  ∀ v ∈ declared, ∀ s ∈ env v.name, v.expectation.Admits s

instance (env : Environment) (declared : List Variable) : Decidable (env.Fits declared) :=
  inferInstanceAs (Decidable (∀ v ∈ declared, ∀ s ∈ env v.name, v.expectation.Admits s))

/-- A way of checking environments against declarations: the values of the declared variables, or an
error. -/
abbrev Checker (ε : Type) := List Variable → Environment → Except ε Environment

/-- What a checker is relied on for.  An environment with nothing unexpected is read: a variable has
the value that it has there, or the one that stands in for it. -/
def Checker.Reads {ε : Type} (check : Checker ε) : Prop :=
  ∀ (declared : List Variable) (env : Environment),
    (declared.map Variable.name).Nodup → env.Fits declared →
      ∃ values, check declared env = .ok values ∧
        ∀ v ∈ declared, values v.name = (env v.name).or v.fallback

namespace Environment

/-! ### Issues -/

/-- What can be wrong with a variable. -/
inductive Issue where
  /-- The value is not one of the names. -/
  | unknownName (name : Text) (names : List Text) (received : Text)
  /-- The variable is there and empty. -/
  | empty (name : Text)
  deriving DecidableEq, Repr

namespace Issue

/-- The variable that an issue is about. -/
def variableName : Issue → Text
  | unknownName name _ _ => name
  | empty name => name

/-- The kind of an issue. -/
def code : Issue → Text
  | unknownName .. => "invalid_enum_value".toList
  | empty _ => "too_small".toList

/-- A text in quotes. -/
def quoted (s : Text) : Text := "'".toList ++ s ++ "'".toList

/-- The sentence for an issue. -/
def message : Issue → Text
  | unknownName _ names received =>
    "Invalid enum value. Expected ".toList ++ " | ".toList.intercalate (names.map quoted) ++
      ", received ".toList ++ quoted received
  | empty _ => "String must contain at least 1 character(s)".toList

end Issue

/-- What is wrong with a value of a variable, if anything. -/
def issue? (v : Variable) (s : Text) : Option Issue :=
  match v.expectation with
  | .anything => none
  | .oneOf names => if s ∈ names then none else some (.unknownName v.name names s)
  | .nonempty => if s = [] then some (.empty v.name) else none

theorem issue?_eq_none {v : Variable} {s : Text} (h : v.expectation.Admits s) :
    issue? v s = none := by
  unfold issue?
  cases hexpected : v.expectation with
  | anything => rfl
  | oneOf names => exact if_pos (by rwa [hexpected] at h)
  | nonempty => exact if_neg (by rwa [hexpected] at h)

/-- What is wrong with the declared variables of an environment, in the order of the declaration. -/
def issues (declared : List Variable) (env : Environment) : List Issue :=
  declared.filterMap fun v => (env v.name).bind (issue? v)

/-! ### Checking -/

/-- The values of declared variables. -/
def values (declared : List Variable) (env : Environment) : Environment := fun name =>
  (declared.find? fun v => v.name == name).bind fun v => (env name).or v.fallback

/-- The values of the declared variables, or everything that is wrong with them. -/
def check : Checker (List Issue) := fun declared env =>
  match issues declared env with
  | [] => .ok (values declared env)
  | issue :: rest => .error (issue :: rest)

/-- An environment with nothing unexpected is read. -/
theorem reads_check : Checker.Reads check := by
  intro declared env hnodup hfits
  have hissues : issues declared env = [] := by
    refine List.filterMap_eq_nil_iff.2 fun v hv => ?_
    cases hvalue : env v.name with
    | none => rfl
    | some s => exact issue?_eq_none (hfits v hv s hvalue)
  refine ⟨values declared env, by rw [check, hissues], fun v hv => ?_⟩
  obtain ⟨before, after, rfl⟩ := List.append_of_mem hv
  have hbefore : before.find? (fun w => w.name == v.name) = none := by
    refine List.find?_eq_none.2 fun w hw hname => ?_
    have hdistinct := List.nodup_append.1 (List.map_append ▸ hnodup)
    exact hdistinct.2.2 _ (List.mem_map_of_mem hw) _ (List.mem_map_of_mem (by simp))
      (beq_iff_eq.1 hname)
  simp [values, List.find?_append, hbefore]

end Environment

end Transcode

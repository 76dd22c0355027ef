/-
**Structured documents.**

The values of the JSON data format with integers for numbers.  An object is the list of its
fields, in the order in which they are written.

Main definitions:

* `Transcode.Json` — a document;
* `Transcode.Json.isText`, `Transcode.Json.isFilledText`, `Transcode.Json.isGiven` — what a
  document that may be missing is good for;
* `Transcode.Json.optional` — a field that is written only if it has a value.
-/

import Transcode.Text.Blank

set_option relaxedAutoImplicit false
set_option autoImplicit false

namespace Transcode

/-- A document: nothing, a truth value, an integer, a text, a list or an object. -/
inductive Json where
  | null
  | bool (value : Bool)
  | number (value : Int)
  | text (value : Text)
  | list (items : List Json)
  | object (fields : List (Text × Json))
  deriving Inhabited

namespace Json

/-- An object of named fields, given with their names as strings. -/
def ofFields (fields : List (String × Json)) : Json :=
  object (fields.map fun f => (f.1.toList, f.2))

/-- A list of texts. -/
def texts (items : List Text) : Json := list (items.map text)

/-- A field that is written only if it has a value. -/
def optional {α : Type} (name : String) (value : Option α) (document : α → Json) :
    List (String × Json) :=
  value.toList.map fun a => (name, document a)

/-! ### What a value that may be missing is good for -/

/-- The text that a document is, if it is there and a text. -/
def asText? : Option Json → Option Text
  | some (text s) => some s
  | _ => none

/-- Whether the document is there and a text. -/
def isText (document : Option Json) : Bool := (asText? document).isSome

/-- Whether the document is there and a text that is not blank. -/
def isFilledText (document : Option Json) : Bool :=
  (asText? document).any fun s => !s.isBlank

/-- Whether the document is there and not `null`. -/
def isGiven : Option Json → Bool
  | none | some null => false
  | some _ => true

/-- Whether the document is one of the given texts. -/
def isOneOf (values : List Text) (document : Option Json) : Bool :=
  (asText? document).any values.contains

end Json

end Transcode

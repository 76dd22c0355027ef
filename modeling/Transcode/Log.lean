/-
**Records for the log.**

Main definitions:

* `Transcode.Record` — what is handed to the log at once.
-/

import Transcode.Json.Basic

set_option relaxedAutoImplicit false
set_option autoImplicit false

namespace Transcode

/-- How grave a record is. -/
inductive Record.Level where
  | debug
  | warn
  | error
  deriving DecidableEq, Repr

/-- A record for the log.  Whether it is written, where and how, is up to the logger. -/
structure Record where
  level : Record.Level
  /-- The part of the program that the record comes from. -/
  origin : Text
  /-- The particulars, as a document. -/
  particulars : Json
  message : Text

end Transcode

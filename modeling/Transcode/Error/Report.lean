/-
**Errors as they are reported.**

A report gives an error's particulars beside its code and message: once as one document, and once
as the fields that its kind of error has.  Besides the errors of specifications there are bare
ones, which have a message and a code of their own and may or may not carry particulars.

Main definitions:

* `Transcode.ParseError.fields`, `Transcode.ParseError.details` — the particulars of an error;
* `Transcode.ReportedError` — an error of a specification, or a bare one.
-/

import Transcode.Error.Basic
import Transcode.Json.Basic

set_option relaxedAutoImplicit false
set_option autoImplicit false

namespace Transcode

/-- A range as a document. -/
def Range.document (r : Range) : Json := .ofFields [("min", .number r.min), ("max", .number r.max)]

namespace ParseError

/-- The particulars of an error as one document.  Errors about a name of a closed set list the
names that would have been accepted. -/
def details : ParseError → Json
  | unrecognizedFilter remainder => .ofFields [("remainder", .text remainder)]
  | unknownVideoEncoder name supported
  | unknownAudioEncoder name supported
  | unknownProfile name supported =>
    .ofFields [("name", .text name), ("supported", .texts supported)]
  | unsupportedExtension extension supported =>
    .ofFields [("extension", .text extension), ("supported", .texts supported)]
  | unsupportedBitDepth numeral supported =>
    .ofFields [("bitDepth", .text numeral), ("supported", .list (supported.map .number))]
  | invalidNumber filter literal =>
    .ofFields [("filter", .text filter), ("literal", .text literal)]
  | outOfRange filter value allowed _ =>
    .ofFields [("filter", .text filter), ("value", .number value),
      ("allowedRange", allowed.document)]
  | bitrateTooLow value allowed =>
    .ofFields [("filter", .text "ab".toList), ("value", .number value),
      ("allowedRange", allowed.document)]
  | missingTrackFile identifier path =>
    .ofFields [("identifier", .text identifier), ("path", .text path)]

/-- The particulars of an error as its own fields, under the names that its kind gives them. -/
def fields : ParseError → Json
  | unknownVideoEncoder name _ | unknownAudioEncoder name _ =>
    .ofFields [("encoderName", .text name)]
  | unknownProfile name _ => .ofFields [("profileName", .text name)]
  | unsupportedExtension extension _ => .ofFields [("extension", .text extension)]
  | unsupportedBitDepth numeral _ => .ofFields [("bitDepth", .text numeral)]
  | e => e.details

end ParseError

/-- An error to report: one of a specification, or a bare one with a message and a code of its
own, which may stand for a refused specification or not. -/
inductive ReportedError where
  | specification (error : ParseError)
  | bare (refused : Bool) (message code : Text) (details : Option Json)

namespace ReportedError

/-- The sentence that tells what is wrong. -/
def message : ReportedError → Text
  | specification e => e.message
  | bare _ message _ _ => message

/-- The code of the error. -/
def code : ReportedError → Text
  | specification e => e.code
  | bare _ _ code _ => code

/-- The particulars of the error, if it carries any. -/
def details : ReportedError → Option Json
  | specification e => some e.details
  | bare _ _ _ details => details

/-- The error's own fields; a bare error has none. -/
def fields : ReportedError → Json
  | specification e => e.fields
  | bare _ _ _ _ => .object []

/-- Whether the error says that a specification is refused. -/
def isRefusal : ReportedError → Bool
  | specification _ => true
  | bare refused _ _ _ => refused

/-- Whether the error is about a number outside its range. -/
def isRangeError : ReportedError → Bool
  | specification e => e.isRangeError
  | bare _ _ _ _ => false

end ReportedError

end Transcode

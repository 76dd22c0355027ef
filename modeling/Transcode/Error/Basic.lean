/-
**What can be wrong with a specification.**

An error is its cause, with what the cause is about.  Its code names the kind of cause and is the
same for all errors of that kind; its message is a sentence about the one at hand.

Main definitions:

* `Transcode.ParseError` — the causes;
* `Transcode.ParseError.code`, `Transcode.ParseError.message` — code and message of an error;
* `Transcode.Failure` — an error of a specification, or any other one.
-/

import Transcode.Catalog.Range
import Transcode.Text.Decimal

set_option relaxedAutoImplicit false
set_option autoImplicit false

namespace Transcode

/-- Why a specification is refused.  An error about a name of a closed set carries the names that
would have been accepted. -/
inductive ParseError where
  /-- No clause can be read from here on. -/
  | unrecognizedFilter (remainder : Text)
  /-- There is no video encoder of that name. -/
  | unknownVideoEncoder (name : Text) (supported : List Text)
  /-- There is no audio encoder of that name. -/
  | unknownAudioEncoder (name : Text) (supported : List Text)
  /-- There is no profile of that name. -/
  | unknownProfile (name : Text) (supported : List Text)
  /-- There is no container with that extension. -/
  | unsupportedExtension (extension : Text) (supported : List Text)
  /-- The numeral is no bit depth. -/
  | unsupportedBitDepth (numeral : Text) (supported : List Int)
  /-- A number is missing, malformed, or too wide for the filter. -/
  | invalidNumber (filter literal : Text)
  /-- A number is outside the range that a setting allows.  The wording is the sentence for it
  where the usual one does not fit. -/
  | outOfRange (filter : Text) (value : Int) (allowed : Range) (wording : Option Text)
  /-- An audio bitrate is not positive. -/
  | bitrateTooLow (value : Int) (allowed : Range)
  /-- The file that a track identifier stands for does not exist. -/
  | missingTrackFile (identifier path : Text)
  deriving DecidableEq, Repr, Inhabited

namespace ParseError

/-- The code of an error: the kind of its cause. -/
def code : ParseError → Text
  | unrecognizedFilter _ => "UNRECOGNIZED_FILTER".toList
  | unknownVideoEncoder _ _ => "UNKNOWN_ENCODER_NAME".toList
  | unknownAudioEncoder _ _ => "UNKNOWN_AUDIO_ENCODER_NAME".toList
  | unknownProfile _ _ => "UNKNOWN_PROFILE".toList
  | unsupportedExtension _ _ => "UNSUPPORTED_EXTENSION".toList
  | unsupportedBitDepth _ _ => "UNSUPPORTED_BIT_DEPTH".toList
  | invalidNumber _ _ => "INVALID_NUMERIC_LITERAL".toList
  | outOfRange _ _ _ _ => "FILTER_VALUE_OUT_OF_RANGE".toList
  | bitrateTooLow _ _ => "FILTER_VALUE_OUT_OF_RANGE".toList
  | missingTrackFile _ _ => "MISSING_TRACK_FILE".toList

/-- The usual sentence for a number outside its range. -/
def rangeMessage (filter : Text) (value : Int) (allowed : Range) : Text :=
  "'".toList ++ filter ++ "' must be between ".toList ++ Text.ofInt allowed.min ++ " and ".toList ++
    Text.ofInt allowed.max ++ ", received ".toList ++ Text.ofInt value

/-- The sentence that tells what is wrong. -/
def message : ParseError → Text
  | unrecognizedFilter remainder => "Unrecognized filter: ".toList ++ remainder
  | unknownVideoEncoder name _ => "Unrecognized video encoder: ".toList ++ name
  | unknownAudioEncoder name _ => "Unrecognized audio encoder: ".toList ++ name
  | unknownProfile name _ => "Unrecognized profile: ".toList ++ name
  | unsupportedExtension extension _ => "Unsupported extension: ".toList ++ extension
  | unsupportedBitDepth numeral _ => "Unsupported bit depth: ".toList ++ numeral
  | invalidNumber filter literal =>
    "Invalid numeric value for '".toList ++ filter ++ "': ".toList ++
      (if literal = [] then "(empty)".toList else literal)
  | outOfRange filter value allowed wording => wording.getD (rangeMessage filter value allowed)
  | bitrateTooLow value _ => "'ab' must be greater than 0, got ".toList ++ Text.ofInt value
  | missingTrackFile identifier path =>
    "Track file not found for '".toList ++ identifier ++ "': ".toList ++ path

/-- Whether an error is about a number outside its range. -/
def isRangeError : ParseError → Bool
  | outOfRange _ _ _ _ | bitrateTooLow _ _ => true
  | _ => false

end ParseError

/-- What can be thrown: an error of a specification, or any other error, of which only the message
is known. -/
inductive Failure where
  | refused (error : ParseError)
  | plain (message : Text)
  deriving DecidableEq, Repr

end Transcode

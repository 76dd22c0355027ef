/-
**The grammar of clauses.**

Which texts are clauses, and what each of them says, stated without reading: a clause is a key and a
value that denotes the setting.  A clause in front of a further text is read whole only if the text
does not continue it, that is, if no longer text from the same place could be the value.

Main definitions:

* `Transcode.TrackRef.Denotes`, `Transcode.TrackRef.DenotesList` — references, and lists of them;
* `Transcode.Clause.ValueDenotes`, `Transcode.Clause.Denotes` — values, and clauses;
* `Transcode.Clause.StopsBefore` — a text does not continue a clause.
-/

import Transcode.Clause.Scan

set_option relaxedAutoImplicit false
set_option autoImplicit false

namespace Transcode

/-! ### Numerals -/

/-- Numerals of natural numbers: digits, at least one. -/
def Text.IsNatural (w : Text) : Prop := w ≠ [] ∧ ∀ c ∈ w, c.isDigit = true

/-- Numerals of integers: digits, at least one, with or without a minus sign. -/
def Text.IsInteger (w : Text) : Prop :=
  Text.IsNatural w ∨ ∃ digits, w = '-' :: digits ∧ Text.IsNatural digits

/-! ### Track references -/

namespace TrackRef

/-- What a reference is written as: an identifier, or an identifier, a dash and tags. -/
inductive Denotes : Text → TrackRef → Prop where
  | plain {identifier : Text} (h : Identifier.IsWellFormed identifier) :
      Denotes identifier (ofTags identifier [])
  | tagged {identifier tags : Text} (h : Identifier.IsWellFormed identifier) (hne : tags ≠ [])
      (htags : ∀ c ∈ tags, isTag c = true) :
      Denotes (identifier ++ '-' :: tags) (ofTags identifier tags)

/-- What a list of references is written as: references with bars between them. -/
inductive DenotesList : Text → List TrackRef → Prop where
  | single {written : Text} {ref : TrackRef} (h : Denotes written ref) : DenotesList written [ref]
  | cons {written more : Text} {ref : TrackRef} {refs : List TrackRef} (h : Denotes written ref)
      (hmore : DenotesList more refs) : DenotesList (written ++ '|' :: more) (ref :: refs)

/-- Whether a reference has tags. -/
def isTagged (ref : TrackRef) : Bool := ref.enabled || ref.forced

/-- A text does not continue a list that ends with a reference.  After tags no letter may follow;
after an identifier neither a letter or digit, nor a dot with one, nor a dash with a letter.  A bar
continues the list in any case. -/
def StopsBefore (ref : TrackRef) (rest : Text) : Prop :=
  rest.head? ≠ some '|' ∧
    if ref.isTagged then Text.Stops Char.isAlpha rest
    else
      Text.Stops Char.isAlphanum rest ∧
        (∀ tail, rest = '.' :: tail → Text.Stops Char.isAlphanum tail) ∧
        ∀ tail, rest = '-' :: tail → Text.Stops Char.isAlpha tail

end TrackRef

/-! ### Clauses -/

namespace Clause

/-- What the value of a clause is written as. -/
inductive ValueDenotes : Text → Clause → Prop where
  | videoEncoder (e : VideoEncoder) : ValueDenotes e.name (.videoEncoder e)
  | quantizer {w : Text} (h : Text.IsInteger w)
      (hr : Range.signed16.contains (Text.integer w) = true) :
      ValueDenotes w (.quantizer (Text.integer w))
  | speed {w : Text} (h : Text.IsNatural w)
      (hr : Range.unsigned8.contains (Text.natural w) = true) :
      ValueDenotes w (.speed (Text.natural w))
  | profile {w : Text} {p : Profile} (h : ∀ c ∈ w, c.isAlpha = true)
      (hp : Profile.lowerCase w = p.name) : ValueDenotes w (.profile p)
  | grain {w : Text} (h : Text.IsNatural w)
      (hr : Range.unsigned8.contains (Text.natural w) = true) :
      ValueDenotes w (.grain (Text.natural w))
  | compat {w : Text} (h : Text.IsNatural w)
      (hr : Range.unsigned8.contains (Text.natural w) = true) :
      ValueDenotes w (.compat (0 < Text.natural w))
  | container (c : Container) : ValueDenotes c.name (.container c)
  | bitDepth (d : BitDepth) : ValueDenotes d.name (.bitDepth d)
  | resolution {width height : Text} (hw : Text.IsNatural width) (hh : Text.IsNatural height)
      (hr : Resolution.IsEncodable ⟨Text.natural width, Text.natural height⟩) :
      ValueDenotes (width ++ 'x' :: height)
        (.resolution ⟨Text.natural width, Text.natural height⟩)
  | audioEncoder (e : AudioEncoder) : ValueDenotes e.name (.audioEncoder e)
  | audioBitrate {w : Text} (h : Text.IsNatural w)
      (hr : Range.unsigned32.contains (Text.natural w) = true) :
      ValueDenotes w (.audioBitrate (Text.natural w))
  | audioTracks {w : Text} {refs : List TrackRef} (h : TrackRef.DenotesList w refs) :
      ValueDenotes w (.audioTracks refs)
  | audioNormalize : ValueDenotes [] .audioNormalize
  | subtitleTracks {w : Text} {refs : List TrackRef} (h : TrackRef.DenotesList w refs) :
      ValueDenotes w (.subtitleTracks refs)

/-- What a clause is written as: a key of its filter, and its value. -/
def Denotes (written : Text) (clause : Clause) : Prop :=
  ∃ key ∈ clause.filter.keys, ∃ value, written = key ++ value ∧ ValueDenotes value clause

/-- A text does not continue a clause.  What would continue it depends on what its value is made
of; nothing continues the clause that is a key alone. -/
def StopsBefore : Clause → Text → Prop
  | .videoEncoder _, rest | .container _, rest | .audioEncoder _, rest =>
    Text.Stops Char.isAlphanum rest
  | .profile _, rest => Text.Stops Char.isAlpha rest
  | .quantizer _, rest | .speed _, rest | .grain _, rest | .compat _, rest | .bitDepth _, rest
  | .resolution _, rest | .audioBitrate _, rest => Text.Stops Char.isDigit rest
  | .audioTracks refs, rest | .subtitleTracks refs, rest =>
    ∀ ref ∈ refs.getLast?, ref.StopsBefore rest
  | .audioNormalize, _ => True

end Clause

end Transcode

/-
**Editing an output in place.**

An output can be edited where it stands: an edit looks at the output, sets some of it, and may break
off with an error.  What was set before an edit breaks off stays set, so it matters that a setting
is checked first and set then.  An edit that broke off does not keep the next one from going on.

Main definitions:

* `Transcode.Output.Edit`, `Transcode.Output.Edit.on` — edits, and what an edit makes of an output;
* `Transcode.Output.Edit.apply` — the edit that applies a setting;
* `Transcode.Output.Edit.each` — several settings applied, whichever of the edits break off.

Main results:

* `Transcode.Output.Edit.on_bind` — one edit after another.
-/

import Transcode.Error.Basic
import Transcode.Output.Basic

set_option relaxedAutoImplicit false
set_option autoImplicit false

namespace Transcode.Output

/-- Work on an output in place, which may break off with an error. -/
abbrev Edit := ExceptT ParseError (StateM Output)

namespace Edit

/-- What an edit makes of an output: its value or the error that it broke off with, and the output
as it is then. -/
def on {α : Type} (x : Edit α) (o : Output) : Except ParseError α × Output := x.run.run o

/-! ### Single edits -/

/-- Breaks off if a value of a filter is outside its range. -/
def check (filter : Filter) (value : Int) (allowed : Range) : Edit Unit :=
  if value < allowed.min ∨ allowed.max < value then
    throw (.outOfRange filter.name value allowed none)
  else pure ()

/-- Sets a field of the video configuration, where the encoder has it. -/
def setVideo (set : Video → Video) : Edit Unit := modify fun o => { o with video := set o.video }

/-- Sets the quantizer: nothing where the video is copied, else the number, which is checked if the
encoder has a range for it. -/
def setQuantizer (value : Int) : Edit Unit := do
  let e := (← get).video.encoder
  if e ≠ .copy then
    if let some allowed := e.quantizerRange? then check .quantizer value allowed
    setVideo (Video.withCrf value)

/-- Sets a number that only the AV1 encoders have: nothing where the encoder is another one, else
the number once it is checked. -/
def setPinned (filter : Filter) (allowed : Range) (set : Video → Video) (value : Int) :
    Edit Unit := do
  if (← get).video.encoder.isPinned then
    check filter value allowed
    setVideo set

/-- Sets the audio bitrate, which must not be too low. -/
def setBitrate (kbps : Int) : Edit Unit := do
  if kbps < Range.bitrate.min then throw (.bitrateTooLow kbps Range.bitrate)
  modify fun o => { o with audioBitrate := kbps }

/-- Applies a setting.  The encoder is chosen before settings are applied. -/
def apply : Token → Edit Unit
  | .videoEncoder _ => pure ()
  | .quantizer value => setQuantizer value
  | .speed value => setPinned .speed Range.speed (Video.withSpeed value) value
  | .profile profile => setVideo (Video.withProfile profile)
  | .grain value => setPinned .grain Range.grain (Video.withGrain value) value
  | .compat enabled => setVideo (Video.withCompat enabled)
  | .container container => modify fun o => { o with container := container }
  | .bitDepth depth => modify fun o => { o with bitDepth := some depth }
  | .resolution resolution => modify fun o => { o with resolution := some resolution }
  | .audioEncoder encoder => modify fun o => { o with audioEncoder := encoder }
  | .audioBitrate kbps => setBitrate kbps
  | .audioTracks tracks => modify fun o => { o with audioTracks := tracks }
  | .audioNormalize => modify fun o => { o with audioNormalize := true }
  | .subtitleTracks tracks => modify fun o => { o with subtitleTracks := tracks }

/-- Applies several settings, one after the other: how each edit ended, and the output after all of
them.  An error is caught, and the next setting is applied to the output as it is then. -/
def each (tokens : List Token) (o : Output) : List (Except ParseError Unit) × Output :=
  (tokens.mapM fun token => (apply token).run).run o

/-! ### One edit after another -/

section

variable {α β : Type} {o : Output}

theorem on_pure (a : α) : (pure a : Edit α).on o = (.ok a, o) := rfl

theorem on_throw (e : ParseError) : (throw e : Edit α).on o = (.error e, o) := rfl

theorem on_get_bind (f : Output → Edit β) : (get >>= f : Edit β).on o = (f o).on o := rfl

/-- One edit after another: the second goes on with the output that the first one left, unless the
first one broke off. -/
theorem on_bind (x : Edit α) (f : α → Edit β) :
    (x >>= f).on o =
      match x.on o with
      | (.ok a, o') => (f a).on o'
      | (.error e, o') => (.error e, o') := by
  have hrun : (x >>= f).on o = ((ExceptT.bindCont f (x.on o).1).run (x.on o).2) := rfl
  rw [hrun]
  cases x.on o with
  | mk outcome o' => cases outcome <;> rfl

end

/-- The first setting is applied, and then the others to the output that it leaves. -/
theorem each_cons (token : Token) (tokens : List Token) (o : Output) :
    each (token :: tokens) o =
      (((apply token).on o).1 :: (each tokens ((apply token).on o).2).1,
        (each tokens ((apply token).on o).2).2) := by
  unfold each
  rw [List.mapM_cons]
  rfl

end Edit

end Transcode.Output

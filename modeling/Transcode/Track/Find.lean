/-
**Finding what a track identifier stands for.**

Files are looked for beside the source, under its stem: the whole identifier as an extension
first, and only if there is no such file a track number and the extension of another.

Main definitions:

* `Transcode.TrackSource.find` — what an identifier stands for beside a source.

Main results:

* `Transcode.TrackSource.find_of_stream` — a stream number asks for no file.
-/

import Transcode.Lookup.Basic
import Transcode.Track.Basic
import Transcode.Track.Identifier

set_option relaxedAutoImplicit false
set_option autoImplicit false

namespace Transcode.TrackSource

/-- What an identifier stands for beside a source: a stream of the source, the file with that
extension, or a numbered track of a file.  If none of them exists the error names the file that
was looked for first. -/
def find (source identifier : Text) : Attempt TrackSource :=
  match Identifier.stream? identifier with
  | some index => pure (video index)
  | none => do
    let path := Path.withExtension source identifier
    if ← Lookup.isFile path then
      pure (external path none)
    else
      match Identifier.numbered? identifier with
      | none => throw (.missingTrackFile identifier path)
      | some (index, ext) => do
        let file := Path.withExtension source ext
        if ← Lookup.isFile file then
          pure (external file (some index))
        else
          throw (.missingTrackFile identifier path)

theorem find_of_stream {source identifier : Text} {index : Nat}
    (h : Identifier.stream? identifier = some index) :
    find source identifier = pure (video index) := by
  simp [find, h]

end Transcode.TrackSource

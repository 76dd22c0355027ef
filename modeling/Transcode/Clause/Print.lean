/-
**Writing clauses.**

Every clause has a written form: the usual key of its filter and its value, with numbers as plain
numerals and tags in a fixed order.

Main definitions:

* `Transcode.TrackRef.print`, `Transcode.TrackRef.printList` — references, and lists of them;
* `Transcode.Clause.print` — a clause;
* `Transcode.Segment.print` — the clauses of one output.

Main results:

* `Transcode.Filter.usualKey_mem_keys` — clauses are written under a key of their filter.
-/

import Transcode.Clause.Segment

set_option relaxedAutoImplicit false
set_option autoImplicit false

namespace Transcode

/-! ### Track references -/

namespace TrackRef

/-- The tags of a reference, with the dash before them; nothing if it has none. -/
def printTags (ref : TrackRef) : Text :=
  match ref.enabled, ref.forced with
  | false, false => []
  | true, false => "-e".toList
  | false, true => "-f".toList
  | true, true => "-ef".toList

/-- A reference: its identifier and its tags. -/
def print (ref : TrackRef) : Text := ref.identifier ++ ref.printTags

/-- A list of references, with bars between them. -/
def printList (refs : List TrackRef) : Text := ['|'].intercalate (refs.map print)

end TrackRef

/-! ### Clauses -/

/-- The key under which a filter is written. -/
def Filter.usualKey : Filter → Text
  | videoEncoder => "enc=".toList
  | quantizer => "q=".toList
  | speed => "s=".toList
  | profile => "p=".toList
  | grain => "grain=".toList
  | compat => "compat=".toList
  | container => "ext=".toList
  | bitDepth => "bd=".toList
  | resolution => "res=".toList
  | audioEncoder => "aenc=".toList
  | audioBitrate => "ab=".toList
  | audioTracks => "at=".toList
  | audioNormalize => "an=1".toList
  | subtitleTracks => "st=".toList

/-- Clauses are written under a key of their filter. -/
theorem Filter.usualKey_mem_keys (f : Filter) : f.usualKey ∈ f.keys := by cases f <;> decide

namespace Clause

/-- The value of a clause. -/
def printValue : Clause → Text
  | .videoEncoder e => e.name
  | .quantizer value | .speed value | .grain value | .audioBitrate value => Text.ofInt value
  | .profile p => p.name
  | .compat enabled => if enabled then ['1'] else ['0']
  | .container c => c.name
  | .bitDepth d => d.name
  | .resolution r => r.shown
  | .audioEncoder e => e.name
  | .audioTracks refs | .subtitleTracks refs => TrackRef.printList refs
  | .audioNormalize => []

/-- A clause: the usual key of its filter, and its value. -/
def print (clause : Clause) : Text := clause.filter.usualKey ++ clause.printValue

example : (scan (print (.resolution ⟨1920, 1080⟩))).toOption =
    some (.resolution ⟨1920, 1080⟩, []) := by decide

end Clause

/-- The clauses of one output, with commas between them. -/
def Segment.print (clauses : List Clause) : Text := [','].intercalate (clauses.map Clause.print)

end Transcode

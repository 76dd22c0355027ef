/-
**Reports on an output for a source.**

Main definitions:

* `Transcode.Report` — what is to be known about an output before it is encoded;
* `Transcode.Output.report` — the report on an output.
-/

import Transcode.Output.Name
import Transcode.Output.Summary

set_option relaxedAutoImplicit false
set_option autoImplicit false

namespace Transcode

/-- What is to be known about an output of a source before it is encoded. -/
structure Report where
  /-- The encoder part of the name. -/
  suffix : Text
  /-- The path of the encoded file. -/
  path : Text
  /-- The output in one line. -/
  summary : Text
  /-- What the encoding front end calls the encoder. -/
  backend : Text
  /-- Whether the encoder scales by pinning threads. -/
  pinned : Bool
  /-- Whether the path looks like that of an encoded file. -/
  processed : Bool
  deriving DecidableEq, Repr

/-- The report on an output of a source, in the given directory or beside the source. -/
def Output.report (source : Text) (o : Output) (dir : Option Text) : Report where
  suffix := o.video.suffix
  path := o.path source dir
  summary := o.summary
  backend := o.video.encoder.backend
  pinned := o.video.encoder.isPinned
  processed := Path.isProcessed (o.path source dir)

end Transcode

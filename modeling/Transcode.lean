import Transcode.Clause.Grammar
import Transcode.Main
import Transcode.Output.Described
import Transcode.Output.Print
import Transcode.Output.Valid
import Transcode.Proofs.Clause.Acceptance
import Transcode.Proofs.Clause.Printed
import Transcode.Proofs.CommandLine.Resolving
import Transcode.Proofs.Output.Described
import Transcode.Proofs.Output.Fold
import Transcode.Proofs.Output.Processed
import Transcode.Proofs.Output.Reordering
import Transcode.Proofs.Output.Settled
import Transcode.Proofs.Output.Summary
import Transcode.Proofs.Path.Component
import Transcode.Proofs.Path.Extension
import Transcode.Proofs.Segment.Composition
import Transcode.Proofs.Segment.Dashed
import Transcode.Proofs.Session.Atomicity
import Transcode.Proofs.Specification.Beside
import Transcode.Proofs.Specification.Failing
import Transcode.Proofs.Specification.Growth
import Transcode.Proofs.Specification.Reordering
import Transcode.Proofs.Specification.RoundTrip
import Transcode.Proofs.Specification.Splitting
import Transcode.Proofs.Specification.TrackFiles
import Transcode.Proofs.Specification.Validity
import Transcode.Proofs.Track.Named
import Transcode.Proofs.Track.Order
import Transcode.Session

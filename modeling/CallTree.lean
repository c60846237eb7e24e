import CallTree.Database.Table
import CallTree.Json.Text.RoundTrip
import CallTree.Record.Json
import CallTree.Settings.Json
import CallTree.Tracer.Session
import CallTree.Transaction.Json
import CallTree.Proofs.Forest.Children
import CallTree.Proofs.Forest.Preorder
import CallTree.Proofs.Frame.Settling
import CallTree.Proofs.Tracer.Operation
import CallTree.Proofs.Tracer.Ownership
import CallTree.Proofs.Tracer.Listing
import CallTree.Proofs.Tracer.Depth
import CallTree.Proofs.Script.Basic
import CallTree.Proofs.Script.Replay
import CallTree.Proofs.Script.Reconstruction
import CallTree.Proofs.Tracer.Moves
import CallTree.Proofs.Tracer.Finality
import CallTree.Proofs.Tracer.Attribution
import CallTree.Proofs.Outline.Basic
import CallTree.Proofs.Tracer.Lifetime
import CallTree.Proofs.Outline.Run
import CallTree.Proofs.Tracer.Refusals
import CallTree.Proofs.Tracer.Standing
import CallTree.Proofs.Tracer.Openings
import CallTree.Proofs.Tracer.Spending
import CallTree.Proofs.Record.Concealment
import CallTree.Proofs.Record.Paths
import CallTree.Proofs.Tracer.Origin
import CallTree.Proofs.Tracer.Allowance
import CallTree.Proofs.Tracer.Repeats
import CallTree.Proofs.Tracer.Lookahead
import CallTree.Proofs.Tracer.FirstFailure
import CallTree.Proofs.Duration
import CallTree.Proofs.Record.Recovery
import CallTree.Proofs.Json.Spelling
import CallTree.Proofs.Transaction.Recovery
import CallTree.Proofs.Memory
import CallTree.Proofs.Tracer.Reuse
import CallTree.Proofs.Database.Storage
import CallTree.Proofs.Tracer.Pending
import CallTree.Proofs.Tracer.Stack

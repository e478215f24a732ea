import BuildFlow.Assertion
import BuildFlow.Attributes
import BuildFlow.Rehearsal
import BuildFlow.Tree.Inspect
import BuildFlow.Proofs.Success
import BuildFlow.Proofs.Termination
import BuildFlow.Proofs.Order
import BuildFlow.Proofs.Stopping
import BuildFlow.Proofs.Attempts
import BuildFlow.Proofs.Kill.Heed
import BuildFlow.Proofs.Kill.Run
import BuildFlow.Proofs.Surfacing
import BuildFlow.Proofs.Undisturbed
import BuildFlow.Proofs.Kill.Host
import BuildFlow.Proofs.Tree.Tour
import BuildFlow.Proofs.Kill.Entry
import BuildFlow.Proofs.Kill.Ties
import BuildFlow.Proofs.Kill.Builds
import BuildFlow.Proofs.Kill.Step
import BuildFlow.Proofs.Kill.Pass
import BuildFlow.Proofs.Kill.Settle
import BuildFlow.Proofs.Kill.Once
import BuildFlow.Proofs.Kill.Own
import BuildFlow.Proofs.Kill.Loop
import BuildFlow.Proofs.Kill.Settlement
import BuildFlow.Proofs.Kill.Complete
import BuildFlow.Proofs.Kill.Leftover
import BuildFlow.Proofs.Kill.Loss
import BuildFlow.Proofs.Tree.Honest
import BuildFlow.Proofs.Overlap
import BuildFlow.Proofs.Sums
import BuildFlow.Proofs.Aborted
import BuildFlow.Proofs.Restart
import BuildFlow.Proofs.Outcomes
import BuildFlow.Proofs.Tally
import BuildFlow.Proofs.Secrecy
import BuildFlow.Proofs.Shuffle
import BuildFlow.Proofs.Scopes
import BuildFlow.Proofs.Scoped
import BuildFlow.Proofs.Precedence
import BuildFlow.Proofs.Finished
import BuildFlow.Proofs.Headroom
import BuildFlow.Proofs.Verdict
import BuildFlow.Proofs.Supersession
import BuildFlow.Proofs.Naming
import BuildFlow.Proofs.Timeout
import BuildFlow.Proofs.Listing
import BuildFlow.Proofs.Acceptance
import BuildFlow.Proofs.Requests
import BuildFlow.Proofs.Display
import BuildFlow.Proofs.Windows
import BuildFlow.Proofs.Numbers
import BuildFlow.Proofs.Export
import BuildFlow.Proofs.Runner.Forward
import BuildFlow.Proofs.Runner.Handle

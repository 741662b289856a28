import TestRig.Main
import TestRig.Proofs.Path.Join
import TestRig.Proofs.Tree.Arrival
import TestRig.Proofs.Tree.Change
import TestRig.Proofs.Tree.Growth
import TestRig.Proofs.Job.Sequence
import TestRig.Proofs.Web.Chain
import TestRig.Proofs.Job.Ending
import TestRig.Proofs.Tree.Denotation
import TestRig.Proofs.Setup.Containment
import TestRig.Proofs.Setup.Exclusion
import TestRig.Proofs.Setup.OneShot
import TestRig.Proofs.Setup.Success
import TestRig.Proofs.Invocation.Preimage
import TestRig.Proofs.Job.Parts
import TestRig.Proofs.Setup.Transcript
import TestRig.Proofs.Tree.Stability
import TestRig.Proofs.Setup.Archives
import TestRig.Proofs.Launch.Child
import TestRig.Proofs.Program.Refinement
import TestRig.Proofs.Program.Archive
import TestRig.Proofs.Program.Selection
import TestRig.Proofs.Tree.Account
import TestRig.Proofs.Launch.Runner
import TestRig.Proofs.Program.History
import TestRig.Proofs.Job.Verdict
import TestRig.Proofs.Web.Route
import TestRig.Proofs.Tree.Resolution
import TestRig.Proofs.Job.Prospect
import TestRig.Proofs.Job.Redirection
import TestRig.Proofs.Job.Succession
import TestRig.Proofs.Launch.Status
import TestRig.Proofs.Layout.Paths
import TestRig.Proofs.Launch.Options
import TestRig.Proofs.Text.WellFormed
import TestRig.Proofs.Launch.Recovery
import TestRig.Proofs.Path.Components
import TestRig.Proofs.Layout.Sameness
import TestRig.Proofs.Layout.Collision
import TestRig.Proofs.Text.Characters
import TestRig.Proofs.Text.Decoding
import TestRig.Proofs.Text.Boundary
import TestRig.Proofs.Launch.Display
import TestRig.Proofs.Program.Dispatch
import TestRig.Proofs.Layout.Naming

import FaultDrill.Main
import FaultDrill.Rehearsal
import FaultDrill.Proofs.Collisions
import FaultDrill.Proofs.Collisions.Positions
import FaultDrill.Proofs.CommandLine.Run
import FaultDrill.Proofs.DocumentFile
import FaultDrill.Proofs.Duration.Exact
import FaultDrill.Proofs.Lifecycle.Isolation
import FaultDrill.Proofs.Lifecycle.Session
import FaultDrill.Proofs.Manifest.Reading
import FaultDrill.Proofs.Manifest.Value
import FaultDrill.Proofs.Probability
import FaultDrill.Proofs.Probability.Bias
import FaultDrill.Proofs.Probability.RoundTrip
import FaultDrill.Proofs.Recipe
import FaultDrill.Proofs.Scenario
import FaultDrill.Proofs.Scenario.FirstFailure
import FaultDrill.Proofs.Workspace.Containment
import FaultDrill.Proofs.Workspace.Contexts
import FaultDrill.Proofs.Lifecycle.Vanishing
import FaultDrill.Proofs.Path.Components
import FaultDrill.Proofs.FileTree.Region
import FaultDrill.Proofs.Workspace.Delivery
import FaultDrill.Proofs.Naming.Runs
import FaultDrill.Proofs.Format.Limits
import FaultDrill.Proofs.Format.Selection
import FaultDrill.Proofs.Discovery
import FaultDrill.Proofs.Json.Variants

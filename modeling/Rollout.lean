import Rollout.Command.Run
import Rollout.Main
import Rollout.Proofs.FileTree.PathText
import Rollout.Proofs.FileTree.Change
import Rollout.Proofs.FileTree.Place
import Rollout.Proofs.FileTree.Folders
import Rollout.Proofs.FileTree.OwnFolder
import Rollout.Proofs.FileTree.Move
import Rollout.Proofs.FileTree.Write
import Rollout.Proofs.Switch.Phases
import Rollout.Proofs.Switch.Course
import Rollout.Proofs.Output.Files
import Rollout.Proofs.Switch.Means
import Rollout.Proofs.Switch.Effects
import Rollout.Proofs.Switch.EarlyEnd
import Rollout.Proofs.Output.DeployFiles
import Rollout.Proofs.Switch.Custody
import Rollout.Proofs.Switch.NothingLost
import Rollout.Proofs.Compile.Profile
import Rollout.Proofs.Switch.FinalTree
import Rollout.Proofs.Switch.Completed
import Rollout.Proofs.Switch.Contained
import Rollout.Proofs.Compile.Plan
import Rollout.Proofs.Compile.Separation
import Rollout.Proofs.Compile.Restriction
import Rollout.Proofs.Workspace.RoundTrip
import Rollout.Proofs.Workspace.Foreign
import Rollout.Proofs.Compile.Registry
import Rollout.Proofs.Switch.Stream
import Rollout.Proofs.Switch.Reload
import Rollout.Proofs.Command.SameFolder
import Rollout.Proofs.Switch.Leftover
import Rollout.Proofs.Switch.Destination
import Rollout.Proofs.Compile.Shown
import Rollout.Proofs.Output.Jobs
import Rollout.Proofs.Compile.ByJob
import Rollout.Proofs.Workspace.Noted
import Rollout.Proofs.Switch.Declared
import Rollout.Proofs.Switch.Rerun
import Rollout.Proofs.Switch.Determined
import Rollout.Proofs.Switch.Retry
import Rollout.Proofs.Compile.Instances
import Rollout.Proofs.Compile.ChartFiles
import Rollout.Proofs.Options.Flattened
import Rollout.Proofs.Options.Layers
import Rollout.Proofs.Switch.Arrived
import Rollout.Proofs.Switch.Released
import Rollout.Proofs.Switch.GroupedAnswers
import Rollout.Proofs.Switch.Seeded
import Rollout.Proofs.Compile.ReleaseNames
import Rollout.Proofs.Compile.Ports
import Rollout.Proofs.Output.Overlays
import Rollout.Proofs.Output.Coverage
import Rollout.Proofs.Output.CommandLine
import Rollout.Proofs.Settings.Precedence
import Rollout.Proofs.Config.UnknownKeys
import Rollout.Proofs.Config.Overrides
import Rollout.Proofs.Compile.ChartTable
import Rollout.Proofs.Compile.BuildTarget
import Rollout.Proofs.Switch.EventLines
import Rollout.Proofs.FileTree.WholeFiles
import Rollout.Proofs.Command.Answers
import Rollout.Proofs.Command.Discovery
import Rollout.Proofs.Config.Suggestion

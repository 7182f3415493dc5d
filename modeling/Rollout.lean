import Rollout.Text.Blank
import Rollout.Text.Search
import Rollout.Text.Utf8
import Rollout.Duration
import Rollout.Path
import Rollout.Shell.Quote
import Rollout.Shell.Command
import Rollout.Target
import Rollout.FileSystem
import Rollout.Event
import Rollout.LocalCommand
import Rollout.Channel
import Rollout.Batch
import Rollout.Rehearsal.Observed
import Rollout.Rehearsal.World
import Rollout.Toml.Reader
import Rollout.Plan.Locator
import Rollout.Task
import Rollout.Rehearsal.Settings.Load
import Rollout.Rehearsal.VariableGuard
import Rollout.Rehearsal.Machine
import Rollout.Inspect
import Rollout.Text.Json
import Rollout.CommandLine.Arguments
import Rollout.CommandLine.Command
import Rollout.CommandLine.Listing
import Rollout.CommandLine.Run
import Rollout.Manual
import Rollout.Main
import Rollout.Proofs.Armor
import Rollout.Proofs.Chain
import Rollout.Proofs.Channel
import Rollout.Proofs.Claim
import Rollout.Proofs.Completion
import Rollout.Proofs.Confinement
import Rollout.Proofs.Consistency
import Rollout.Proofs.Course
import Rollout.Proofs.Custody
import Rollout.Proofs.Document
import Rollout.Proofs.ExitCode
import Rollout.Proofs.Falter
import Rollout.Proofs.Fitness
import Rollout.Proofs.Group
import Rollout.Proofs.HostKey
import Rollout.Proofs.Independence
import Rollout.Proofs.Landing
import Rollout.Proofs.Listing
import Rollout.Proofs.Locator
import Rollout.Proofs.Login
import Rollout.Proofs.Lookup
import Rollout.Proofs.Mode
import Rollout.Proofs.Naming
import Rollout.Proofs.Parking
import Rollout.Proofs.Quotation
import Rollout.Proofs.Recorded
import Rollout.Proofs.Replay
import Rollout.Proofs.Request
import Rollout.Proofs.Resolution
import Rollout.Proofs.Schedule
import Rollout.Proofs.Secrecy
import Rollout.Proofs.Session
import Rollout.Proofs.ShardLock
import Rollout.Proofs.Swap
import Rollout.Proofs.Unopened

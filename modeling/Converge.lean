import Converge.Account
import Converge.Channel
import Converge.Charm
import Converge.Collaborator
import Converge.Command.Line
import Converge.Command.Output
import Converge.Command.Run
import Converge.Command.Usage
import Converge.Command.Verb
import Converge.Dict
import Converge.Disk.Basic
import Converge.Disk.FileTree
import Converge.Disk.Path
import Converge.DotEnv.Assignment
import Converge.DotEnv.Lines
import Converge.DotEnv.Load
import Converge.Double
import Converge.Environment
import Converge.Error
import Converge.Json.Basic
import Converge.Json.Decode
import Converge.Json.Reader
import Converge.Json.Render
import Converge.Json.Tree
import Converge.Main
import Converge.Membership.Document
import Converge.Membership.FileStore
import Converge.Outcome
import Converge.Placement
import Converge.Plan
import Converge.Plugin.Feature
import Converge.Plugin.Lifecycle
import Converge.Plugin.Record
import Converge.Proofs.AbsolutePath
import Converge.Proofs.Alignment
import Converge.Proofs.AttemptBudget
import Converge.Proofs.Backing
import Converge.Proofs.BesidePath
import Converge.Proofs.Calendar
import Converge.Proofs.ChannelGrammar
import Converge.Proofs.CharmAddress
import Converge.Proofs.Commutation
import Converge.Proofs.Composition
import Converge.Proofs.Contract
import Converge.Proofs.Digits
import Converge.Proofs.DocumentText
import Converge.Proofs.DoubleText
import Converge.Proofs.EffectiveSettings
import Converge.Proofs.EnvironmentLayer
import Converge.Proofs.Execution
import Converge.Proofs.Explained
import Converge.Proofs.FailStop
import Converge.Proofs.FailingStep
import Converge.Proofs.FaultyDisk
import Converge.Proofs.FeatureOrder
import Converge.Proofs.FileBacked
import Converge.Proofs.Flawless
import Converge.Proofs.Fleet
import Converge.Proofs.HealedRecord
import Converge.Proofs.Hindrance
import Converge.Proofs.Interleaving
import Converge.Proofs.KeptPlacement
import Converge.Proofs.Legible
import Converge.Proofs.Lifecycle
import Converge.Proofs.LifecycleOrder
import Converge.Proofs.LoadedSettings
import Converge.Proofs.MachineMoves
import Converge.Proofs.NearestFile
import Converge.Proofs.NormalForm
import Converge.Proofs.Numeral
import Converge.Proofs.Observation
import Converge.Proofs.OppositeChecks
import Converge.Proofs.OutcomeText
import Converge.Proofs.PlainPath
import Converge.Proofs.PluginHistory
import Converge.Proofs.PluginListing
import Converge.Proofs.PluginRecord
import Converge.Proofs.PluginText
import Converge.Proofs.Quotation
import Converge.Proofs.ReadTime
import Converge.Proofs.Reconciliation
import Converge.Proofs.RecordChange
import Converge.Proofs.Refreshing
import Converge.Proofs.Reread
import Converge.Proofs.Rerun
import Converge.Proofs.Retrying
import Converge.Proofs.RevisionLookup
import Converge.Proofs.Rollout
import Converge.Proofs.RoundTrip
import Converge.Proofs.Rounding
import Converge.Proofs.ServedStore
import Converge.Proofs.SettledCommands
import Converge.Proofs.SharedMachine
import Converge.Proofs.SimulatedStore
import Converge.Proofs.Spread
import Converge.Proofs.Stages
import Converge.Proofs.StoreRefinement
import Converge.Proofs.StoredFleet
import Converge.Proofs.Tolerance
import Converge.Proofs.TreePaths
import Converge.Proofs.TypedText
import Converge.Proofs.Undoing
import Converge.Proofs.UnitTask
import Converge.Proofs.UpdateOrder
import Converge.Proofs.UpwardSearch
import Converge.Proofs.Verbatim
import Converge.Proofs.Watch
import Converge.Proofs.WatchedHost
import Converge.Proofs.WholeText
import Converge.Proofs.WriteBack
import Converge.Proofs.WrittenTime
import Converge.Retry
import Converge.Settings.Basic
import Converge.Settings.Load
import Converge.Settings.Overrides
import Converge.Settings.Text
import Converge.Settings.Validation
import Converge.Simulation.Call
import Converge.Simulation.Host
import Converge.Simulation.Script
import Converge.Simulation.World
import Converge.Step
import Converge.Task.Apply
import Converge.Task.Basic
import Converge.Task.Deploy
import Converge.Task.Place
import Converge.Task.Refresh
import Converge.Task.Units
import Converge.Task.Withdraw
import Converge.Terminal.Paint
import Converge.Terminal.Table
import Converge.Text.Alphanumeric
import Converge.Text.Blank
import Converge.Text.CharSet
import Converge.Text.CharWidth
import Converge.Text.Digits
import Converge.Text.Emoji
import Converge.Text.Ligature
import Converge.Text.Split
import Converge.Text.Width
import Converge.Timestamp
import Converge.Topology
import Converge.Update
import Converge.Yaml.Cursor
import Converge.Yaml.Node
import Converge.Yaml.Property
import Converge.Yaml.Scalar
import Converge.Yaml.Scan
import Converge.Yaml.Token

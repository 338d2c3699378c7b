import ComponentBuild.BuildError
import ComponentBuild.CommandLine.Arguments
import ComponentBuild.CommandLine.Reach
import ComponentBuild.CommandLine.Run
import ComponentBuild.Component.Basic
import ComponentBuild.Component.Manifest
import ComponentBuild.Config.Basic
import ComponentBuild.Config.Environment
import ComponentBuild.Config.Locate
import ComponentBuild.Config.Reader
import ComponentBuild.Config.Warning
import ComponentBuild.Decimal
import ComponentBuild.Declarations.Artifact
import ComponentBuild.Declarations.Block
import ComponentBuild.Diagnostic
import ComponentBuild.Digest.Sha256
import ComponentBuild.Event.Basic
import ComponentBuild.Event.Console
import ComponentBuild.Frontend.Basic
import ComponentBuild.Frontend.Manifests
import ComponentBuild.Imports.Renaming
import ComponentBuild.Imports.Table
import ComponentBuild.Json.Printer
import ComponentBuild.Json.Reader
import ComponentBuild.Json.Token
import ComponentBuild.Json.Value
import ComponentBuild.Main
import ComponentBuild.Pass.Record
import ComponentBuild.Pass.Run
import ComponentBuild.Path.Basic
import ComponentBuild.Path.Normal
import ComponentBuild.Path.Part
import ComponentBuild.Proofs.Component.Manifest
import ComponentBuild.Proofs.Component.Name
import ComponentBuild.Proofs.Config.Suggestion
import ComponentBuild.Proofs.Declarations.DeclaredNames
import ComponentBuild.Proofs.Declarations.Documentation
import ComponentBuild.Proofs.Declarations.ImportStatements
import ComponentBuild.Proofs.Declarations.InterfaceNames
import ComponentBuild.Proofs.Declarations.InternalMembers
import ComponentBuild.Proofs.Declarations.TableContents
import ComponentBuild.Proofs.Event.Stream
import ComponentBuild.Proofs.Frontend.Emitted
import ComponentBuild.Proofs.Frontend.FirstDeclared
import ComponentBuild.Proofs.Frontend.Incremental
import ComponentBuild.Proofs.Frontend.Listing
import ComponentBuild.Proofs.Frontend.Preview
import ComponentBuild.Proofs.Frontend.Succession
import ComponentBuild.Proofs.Frontend.Updates
import ComponentBuild.Proofs.Imports.Alias
import ComponentBuild.Proofs.Imports.Calls
import ComponentBuild.Proofs.Imports.Filling
import ComponentBuild.Proofs.Imports.LeastNumber
import ComponentBuild.Proofs.Imports.Names
import ComponentBuild.Proofs.Imports.RenamingBack
import ComponentBuild.Proofs.Imports.Reserving
import ComponentBuild.Proofs.Imports.Standalone
import ComponentBuild.Proofs.Imports.Taken
import ComponentBuild.Proofs.Json.Compact
import ComponentBuild.Proofs.Json.Lexing
import ComponentBuild.Proofs.Json.RoundTrip
import ComponentBuild.Proofs.Pass.Again
import ComponentBuild.Proofs.Pass.Artifacts
import ComponentBuild.Proofs.Pass.Build
import ComponentBuild.Proofs.Pass.Events
import ComponentBuild.Proofs.Pass.LifeCycle
import ComponentBuild.Proofs.Pass.Outputs
import ComponentBuild.Proofs.Path.Bytes
import ComponentBuild.Proofs.Path.Ending
import ComponentBuild.Proofs.Path.Parent
import ComponentBuild.Proofs.Path.Parts
import ComponentBuild.Proofs.Path.Relative
import ComponentBuild.Proofs.Path.Resolving
import ComponentBuild.Proofs.Path.Retraction
import ComponentBuild.Proofs.Path.Specifier
import ComponentBuild.Proofs.Scheduler.Conservation
import ComponentBuild.Proofs.Scheduler.Deadline
import ComponentBuild.Proofs.Scheduler.Guard
import ComponentBuild.Proofs.Scheduler.OneShot
import ComponentBuild.Proofs.Scheduler.Queue
import ComponentBuild.Proofs.Session.Blocks
import ComponentBuild.Proofs.Session.Coalescing
import ComponentBuild.Proofs.Session.Completion
import ComponentBuild.Proofs.Session.FailedUpdates
import ComponentBuild.Proofs.Session.FullBuild
import ComponentBuild.Proofs.Session.Life
import ComponentBuild.Proofs.Session.Outputs
import ComponentBuild.Proofs.Session.Preview
import ComponentBuild.Proofs.Session.Protocol
import ComponentBuild.Proofs.Session.Receipts
import ComponentBuild.Proofs.Session.Rest
import ComponentBuild.Proofs.Session.Tasks
import ComponentBuild.Proofs.Session.Teardown
import ComponentBuild.Proofs.Session.Trace
import ComponentBuild.Proofs.Session.Updating
import ComponentBuild.Proofs.Session.WatchClosing
import ComponentBuild.Proofs.Session.Worker
import ComponentBuild.Proofs.SortedMap.Entries
import ComponentBuild.Proofs.SortedMap.Inverted
import ComponentBuild.Proofs.SortedMap.Lookup
import ComponentBuild.Proofs.SortedMap.Separating
import ComponentBuild.Proofs.Storage.Directories
import ComponentBuild.Proofs.Storage.Edits
import ComponentBuild.Proofs.Storage.Memory
import ComponentBuild.Proofs.Storage.Rooted
import ComponentBuild.Proofs.Storage.Tree
import ComponentBuild.Proofs.Text.EditScripts
import ComponentBuild.Proofs.Text.EditTable
import ComponentBuild.Proofs.Text.Passages
import ComponentBuild.Proofs.Text.Utf8
import ComponentBuild.Proofs.Watch.Delivery
import ComponentBuild.Proofs.Workspace.Accounting
import ComponentBuild.Proofs.Workspace.Cache
import ComponentBuild.Proofs.Workspace.Calls
import ComponentBuild.Proofs.Workspace.Clearing
import ComponentBuild.Proofs.Workspace.Commit
import ComponentBuild.Proofs.Workspace.Detection
import ComponentBuild.Proofs.Workspace.Directories
import ComponentBuild.Proofs.Workspace.DirectoryReport
import ComponentBuild.Proofs.Workspace.Edited
import ComponentBuild.Proofs.Workspace.Immediate
import ComponentBuild.Proofs.Workspace.InFlight
import ComponentBuild.Proofs.Workspace.InPlace
import ComponentBuild.Proofs.Workspace.Levels
import ComponentBuild.Proofs.Workspace.Listing
import ComponentBuild.Proofs.Workspace.Prediction
import ComponentBuild.Proofs.Workspace.Pruning
import ComponentBuild.Proofs.Workspace.Reading
import ComponentBuild.Proofs.Workspace.Repeating
import ComponentBuild.Proofs.Workspace.Report
import ComponentBuild.Proofs.Workspace.Rounds
import ComponentBuild.Proofs.Workspace.Settling
import ComponentBuild.Proofs.Workspace.Staging
import ComponentBuild.Proofs.Workspace.Tree
import ComponentBuild.Proofs.Workspace.WellFormed
import ComponentBuild.Scheduler.Debouncer
import ComponentBuild.Scheduler.Guard
import ComponentBuild.Scheduler.OneShot
import ComponentBuild.Scheduler.Worker
import ComponentBuild.Session.Basic
import ComponentBuild.Session.Build
import ComponentBuild.SortedMap.Basic
import ComponentBuild.SortedMap.Order
import ComponentBuild.Storage.Basic
import ComponentBuild.Storage.Disk
import ComponentBuild.Storage.Disk.Basic
import ComponentBuild.Storage.Disk.Search
import ComponentBuild.Storage.IgnoreFile
import ComponentBuild.Storage.Memory
import ComponentBuild.Text.Diff
import ComponentBuild.Text.EditDistance
import ComponentBuild.Text.Glob.Basic
import ComponentBuild.Text.Glob.Nesting
import ComponentBuild.Text.Glob.Reader
import ComponentBuild.Text.Letter
import ComponentBuild.Text.Lines
import ComponentBuild.Text.Printable
import ComponentBuild.Text.Reading
import ComponentBuild.Text.Uppercase
import ComponentBuild.Text.Utf8
import ComponentBuild.Toml.Document
import ComponentBuild.Toml.Scalar
import ComponentBuild.Toml.Value
import ComponentBuild.Watch.Hub
import ComponentBuild.Workspace.Access
import ComponentBuild.Workspace.Basic
import ComponentBuild.Workspace.Commit

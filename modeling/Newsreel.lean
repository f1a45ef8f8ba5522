import Newsreel.History.Ledger
import Newsreel.Main
import Newsreel.Proofs.Context.Locate
import Newsreel.Proofs.Context.ReadWrite
import Newsreel.Proofs.Context.LoopAlias
import Newsreel.Proofs.Attempt
import Newsreel.Proofs.Context.Local
import Newsreel.Proofs.Transform.LocalLoop
import Newsreel.Proofs.Transform.Stops
import Newsreel.Proofs.Run.FailedStep
import Newsreel.Proofs.Run.Ending
import Newsreel.Proofs.Template.Scan
import Newsreel.Proofs.Context.Format
import Newsreel.Proofs.Template.Printing
import Newsreel.Proofs.Files.Places
import Newsreel.Proofs.Run.Invariant
import Newsreel.Proofs.Run.Remembered
import Newsreel.Proofs.Context.Credentials
import Newsreel.Proofs.Fetch.Credentials
import Newsreel.Proofs.Run.Credentials
import Newsreel.Proofs.Fetch.Quoting
import Newsreel.Proofs.Run.ErrorTexts
import Newsreel.Proofs.Text.Padded
import Newsreel.Proofs.Calendar.Order
import Newsreel.Proofs.History.Backends
import Newsreel.Proofs.Calendar.Stamp
import Newsreel.Proofs.Files.Directories
import Newsreel.Proofs.Fetch.Snapshots
import Newsreel.Proofs.Media.Crossfade
import Newsreel.Proofs.Run.Outputs
import Newsreel.Proofs.Files.Elsewhere
import Newsreel.Proofs.Fetch.Isolation
import Newsreel.Proofs.Run.Owners
import Newsreel.Proofs.Run.Reports
import Newsreel.Proofs.Run.Again
import Newsreel.Proofs.Fault
import Newsreel.Proofs.Run.Pieces
import Newsreel.Proofs.Document.Types
import Newsreel.Proofs.Run.Causes
import Newsreel.Proofs.Files.Grounds
import Newsreel.Proofs.Run.Course
import Newsreel.Proofs.Run.Beside
import Newsreel.Proofs.Run.Interleaving
import Newsreel.Proofs.Context.Refusal
import Newsreel.Proofs.Run.Reserved
import Newsreel.Proofs.Run.Touched
import Newsreel.Proofs.Run.Testing
import Newsreel.Proofs.Context.Braces
import Newsreel.Proofs.Context.Leaves
import Newsreel.Proofs.Transform.Outputs
import Newsreel.Proofs.Fetch.Journal
import Newsreel.Proofs.Fetch.Names
import Newsreel.Proofs.Fetch.Fallback
import Newsreel.Proofs.Config.Override
import Newsreel.Proofs.Fetch.Closest
import Newsreel.Proofs.Run.Layers
import Newsreel.Proofs.Config.Name
import Newsreel.Proofs.Context.Proper
import Newsreel.Proofs.Fetch.Params
import Newsreel.Proofs.Decimal.Text
import Newsreel.Proofs.Json.Strings
import Newsreel.Proofs.Json.Printer
import Newsreel.Proofs.Fetch.Keyed
import Newsreel.Proofs.Media.Assembly
import Newsreel.Proofs.Media.Playable
import Newsreel.Proofs.Media.FileList
import Newsreel.Proofs.Transform.Replacement
import Newsreel.Proofs.History.Latest
import Newsreel.Proofs.Transform.Dates
import Newsreel.Proofs.Context.Unwritable
import Newsreel.Proofs.Context.Aliases
import Newsreel.Proofs.Context.KeyFrames
import Newsreel.Proofs.Web.Charset
import Newsreel.Proofs.Template.Places
import Newsreel.Proofs.Document.Shapes
import Newsreel.Proofs.Document.Registration

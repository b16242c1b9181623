import GatedConsole.Command.Catalog
import GatedConsole.Command.Visible
import GatedConsole.Main
import GatedConsole.Console.Prompt
import GatedConsole.Session.Script
import GatedConsole.Proofs.Task.Ensures
import GatedConsole.Proofs.Task.Watch
import GatedConsole.Proofs.Interpreter.Lines
import GatedConsole.Proofs.Session.Authority
import GatedConsole.Proofs.Task.Alike
import GatedConsole.Proofs.Task.Locked
import GatedConsole.Proofs.Interpreter.Hosted
import GatedConsole.Proofs.Task.Serial
import GatedConsole.Proofs.Session.Serialization
import GatedConsole.Proofs.Files.Tree
import GatedConsole.Proofs.Text.Utf8
import GatedConsole.Proofs.Json.Plain
import GatedConsole.Proofs.Store
import GatedConsole.Proofs.Macro.Keeping
import GatedConsole.Proofs.Session.Journal
import GatedConsole.Proofs.Json.Numbers
import GatedConsole.Proofs.Json.Strings
import GatedConsole.Proofs.Json.RoundTrip
import GatedConsole.Proofs.Macro.Format
import GatedConsole.Proofs.Macro.RoundTrip
import GatedConsole.Proofs.Task.Runs
import GatedConsole.Proofs.Interpreter.Moves
import GatedConsole.Proofs.Session.Chronicle
import GatedConsole.Proofs.Session.Course
import GatedConsole.Proofs.Session.Recall
import GatedConsole.Proofs.Session.Veil
import GatedConsole.Proofs.Command.Registry
import GatedConsole.Proofs.Command.Building
import GatedConsole.Proofs.Text.Words
import GatedConsole.Proofs.Text.Clean
import GatedConsole.Proofs.Text.Newline
import GatedConsole.Proofs.Session.TabOrder
import GatedConsole.Proofs.Session.TabSet
import GatedConsole.Proofs.Interpreter.Answering
import GatedConsole.Proofs.Interpreter.Offers
import GatedConsole.Proofs.Json.LineEnds
import GatedConsole.Proofs.Json.Grammar
import GatedConsole.Proofs.Files.Naming
import GatedConsole.Proofs.Macro.Media
import GatedConsole.Proofs.Interpreter.Answers
import GatedConsole.Proofs.Session.Containment
import GatedConsole.Proofs.Interpreter.Report
import GatedConsole.Proofs.Interpreter.Replays
import GatedConsole.Proofs.Interpreter.Expansion
import GatedConsole.Proofs.Interpreter.Workload
import GatedConsole.Proofs.Interpreter.Clean
import GatedConsole.Proofs.Json.Faults
import GatedConsole.Proofs.Files.Children
import GatedConsole.Proofs.Settings
import GatedConsole.Proofs.Console.Opening
import GatedConsole.Proofs.Session.Submitting
import GatedConsole.Proofs.Session.Failures
import GatedConsole.Proofs.Session.Clean
import GatedConsole.Proofs.Session.Clearing
import GatedConsole.Proofs.Session.Showing
import GatedConsole.Proofs.Console.Turns
import GatedConsole.Proofs.Console.Screen
import GatedConsole.Proofs.Files.Footprint
import GatedConsole.Proofs.Session.Stored
import GatedConsole.Proofs.Console.Footprint
import GatedConsole.Proofs.Keyed
import GatedConsole.Proofs.Invocation
import GatedConsole.Proofs.Interpreter.Listing
import GatedConsole.Proofs.Text.Lowercase
import GatedConsole.Proofs.Interpreter.Suggestions
import GatedConsole.Proofs.Session.Walk
import GatedConsole.Proofs.Console.Keys
import GatedConsole.Proofs.Interpreter.Narrowing
import GatedConsole.Proofs.Console.Completion
import GatedConsole.Proofs.Files.Keys
import GatedConsole.Proofs.Store.Folder
import GatedConsole.Proofs.Store.Requests
import GatedConsole.Proofs.History.Numbering
import GatedConsole.Proofs.Macro.Surrogates
import GatedConsole.Proofs.Json.Settled
import GatedConsole.Proofs.Settings.Saved
import GatedConsole.Proofs.Store.AllOrNothing

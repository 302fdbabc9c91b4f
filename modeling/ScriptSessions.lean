import ScriptSessions.Main
import ScriptSessions.Json.Parser
import ScriptSessions.Session.Describe
import ScriptSessions.Proofs.Session.Edits
import ScriptSessions.Proofs.Session.Gate
import ScriptSessions.Proofs.Host.Closing
import ScriptSessions.Proofs.Reference.Cells
import ScriptSessions.Proofs.Reference.Winner
import ScriptSessions.Proofs.Session.Requests
import ScriptSessions.Proofs.Session.Outcomes
import ScriptSessions.Proofs.Reference.Entries
import ScriptSessions.Proofs.Reference.Origin
import ScriptSessions.Proofs.Session.Holdings
import ScriptSessions.Proofs.Reference.Defaults
import ScriptSessions.Proofs.Host.Live
import ScriptSessions.Proofs.Path
import ScriptSessions.Proofs.Reference.Names
import ScriptSessions.Proofs.Host.References
import ScriptSessions.Proofs.Host.Names
import ScriptSessions.Proofs.Host.History
import ScriptSessions.Proofs.Reference.Resolve
import ScriptSessions.Proofs.Session.Alike
import ScriptSessions.Proofs.Reference.Keys
import ScriptSessions.Proofs.Reference.Tracked
import ScriptSessions.Proofs.Session.Chronicle
import ScriptSessions.Proofs.Session.Counts
import ScriptSessions.Proofs.Host.Chronicle
import ScriptSessions.Proofs.Session.Scan
import ScriptSessions.Proofs.Session.Registry
import ScriptSessions.Proofs.Host.Opening
import ScriptSessions.Proofs.Host.Bookkeeping
import ScriptSessions.Proofs.Host.Delivery
import ScriptSessions.Proofs.Host.ConfigFile
import ScriptSessions.Proofs.Reference.DefaultMerge
import ScriptSessions.Proofs.Session.Locations
import ScriptSessions.Proofs.Host.Isolation
import ScriptSessions.Proofs.Documentation.Provision
import ScriptSessions.Proofs.Reference.Absolute
import ScriptSessions.Proofs.Reference.Failure
import ScriptSessions.Proofs.Session.Updates
import ScriptSessions.Proofs.Host.Lineage
import ScriptSessions.Proofs.Routes
import ScriptSessions.Proofs.Text
import ScriptSessions.Proofs.Reference.Spellings
import ScriptSessions.Proofs.Documentation.Summaries
import ScriptSessions.Proofs.Reference.Loading
import ScriptSessions.Proofs.Reference.Archive
import ScriptSessions.Proofs.Reference.Asked
import ScriptSessions.Proofs.Session.Values
import ScriptSessions.Proofs.CommandLine.ExitStatus
import ScriptSessions.Proofs.Session.Locality
import ScriptSessions.Proofs.Host.Listing
import ScriptSessions.Proofs.Json.Records

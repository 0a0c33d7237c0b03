import Nsql.Sample.Cursor
import Nsql.Sample.Expectation
import Nsql.Sample.Texts
import Nsql.Server.Session
import Nsql.Workspace.Schedule
import Nsql.Proofs.Document.Agreement
import Nsql.Proofs.Document.Lines
import Nsql.Proofs.Workspace.Interleaving
import Nsql.Proofs.Workspace.Turns
import Nsql.Proofs.Workspace.Passes
import Nsql.Proofs.Workspace.Engines
import Nsql.Proofs.Workspace.Clearing
import Nsql.Proofs.Workspace.Convergence
import Nsql.Proofs.Workspace.Staleness
import Nsql.Proofs.Workspace.Reconfiguration
import Nsql.Proofs.Scan.Locality
import Nsql.Proofs.Document.Ranges
import Nsql.Proofs.Server.View
import Nsql.Proofs.Workspace.Schedule
import Nsql.Proofs.Workspace.Reopening
import Nsql.Proofs.Scan.ClosedForm
import Nsql.Proofs.Server.Settings
import Nsql.Proofs.Workspace.Isolation
import Nsql.Proofs.Workspace.Alone
import Nsql.Proofs.Document.Offsets
import Nsql.Proofs.Workspace.Batches
import Nsql.Proofs.Report.Translation
import Nsql.Proofs.Scan.Hints
import Nsql.Proofs.Document.Hover
import Nsql.Proofs.Scan.Coverage
import Nsql.Proofs.Scan.Filtering
import Nsql.Proofs.Sample.Cursor
import Nsql.Proofs.Document.Joins
import Nsql.Proofs.Scan.LineEndings
import Nsql.Proofs.Scan.InertLines
import Nsql.Proofs.Json.Grammar
import Nsql.Proofs.Json.Tokens
import Nsql.Proofs.Json.Skipping
import Nsql.Proofs.Json.Writing
import Nsql.Proofs.Report.Description
import Nsql.Proofs.Report.Reading
import Nsql.Proofs.Document.Cutting
import Nsql.Proofs.Scan.Keywords
import Nsql.Proofs.Scan.Collecting
import Nsql.Proofs.Server.Session

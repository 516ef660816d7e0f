import RecordConsole.Main
import RecordConsole.Proofs.Confinement
import RecordConsole.Proofs.Resolution
import RecordConsole.Proofs.Snapshot
import RecordConsole.Proofs.Siblings
import RecordConsole.Proofs.Grammar
import RecordConsole.Proofs.Retrieval
import RecordConsole.Proofs.Json.Outline
import RecordConsole.Proofs.Json.Unambiguous
import RecordConsole.Proofs.Decimal.RoundingInterval
import RecordConsole.Proofs.Decimal.Written
import RecordConsole.Proofs.Json.Inspection
import RecordConsole.Proofs.Roster
import RecordConsole.Proofs.Host
import RecordConsole.Proofs.Registration
import RecordConsole.Proofs.Keyword
import RecordConsole.Proofs.Service
import RecordConsole.Proofs.Store
import RecordConsole.Proofs.Registry
import RecordConsole.Proofs.Rendering
import RecordConsole.Proofs.NormalForm
import RecordConsole.Proofs.Blanks
import RecordConsole.Proofs.FailedSave
import RecordConsole.Proofs.Json.Layout
import RecordConsole.Proofs.Flattening
import RecordConsole.Proofs.Deliveries
import RecordConsole.Proofs.Json.Places
import RecordConsole.Proofs.Json.Squeezing
import RecordConsole.Proofs.Hint
import RecordConsole.Proofs.Suggestion
import RecordConsole.Proofs.Identities
import RecordConsole.Proofs.Json.Extent
import RecordConsole.Proofs.Ids

import SchemaPlan.Main
import SchemaPlan.Proofs.WellFormed
import SchemaPlan.Proofs.Pairing
import SchemaPlan.Proofs.Replay.Run
import SchemaPlan.Proofs.Replay.Columns
import SchemaPlan.Proofs.Replay.ColumnPlan
import SchemaPlan.Proofs.Replay.Tables
import SchemaPlan.Proofs.Soundness
import SchemaPlan.Proofs.Agreement
import SchemaPlan.Proofs.Replay.Definitions
import SchemaPlan.Proofs.Convergence
import SchemaPlan.Proofs.Mirror
import SchemaPlan.Proofs.Json.Reading
import SchemaPlan.Proofs.Json.Records
import SchemaPlan.Proofs.Documents
import SchemaPlan.Proofs.Actions
import SchemaPlan.Proofs.RoundTrip
import SchemaPlan.Proofs.Importing
import SchemaPlan.Proofs.IndexNames
import SchemaPlan.Proofs.Replay.Indexes
import SchemaPlan.Proofs.Applying
import SchemaPlan.Proofs.SafeMode
import SchemaPlan.Proofs.Classification
import SchemaPlan.Proofs.Replay.Keys
import SchemaPlan.Proofs.Replay.Coverage
import SchemaPlan.Proofs.IndexOrigins
import SchemaPlan.Proofs.Likeness
import SchemaPlan.Proofs.Locality
import SchemaPlan.Proofs.Storing
import SchemaPlan.Proofs.PrimaryKeys
import SchemaPlan.Proofs.Ranking
import SchemaPlan.Proofs.Renaming
import SchemaPlan.Proofs.SharedTables
import SchemaPlan.Proofs.Comparing
import SchemaPlan.Proofs.CharacterSets
import SchemaPlan.Proofs.Validation
import SchemaPlan.Proofs.Conversions
import SchemaPlan.Proofs.Survivors
import SchemaPlan.Proofs.DefinitionTexts
import SchemaPlan.Proofs.ByteOrder
import SchemaPlan.Proofs.Creation
import SchemaPlan.Proofs.Analysis
import SchemaPlan.Proofs.Json.Values
import SchemaPlan.Proofs.Loaders
import SchemaPlan.Proofs.Scripts
import SchemaPlan.Proofs.QuotedDefaults
import SchemaPlan.Proofs.StatementNames
import SchemaPlan.Proofs.SummaryTable
import SchemaPlan.Proofs.Calendar
import SchemaPlan.Proofs.ChangeLog
import SchemaPlan.Proofs.PrintedComparisons
import SchemaPlan.Proofs.TypeTags

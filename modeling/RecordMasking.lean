import RecordMasking.BuildLog
import RecordMasking.Derive
import RecordMasking.Generator
import RecordMasking.Host.RuntimeName
import RecordMasking.Samples
import RecordMasking.Source.SourceSchema
import RecordMasking.Proofs.PathSet
import RecordMasking.Proofs.Sighting
import RecordMasking.Proofs.FieldOrder
import RecordMasking.Proofs.Resolution
import RecordMasking.Proofs.Closure
import RecordMasking.Proofs.Run
import RecordMasking.Proofs.Eligibility
import RecordMasking.Proofs.MaskTable
import RecordMasking.Proofs.Rerooting
import RecordMasking.Proofs.TypedValue
import RecordMasking.Proofs.Masking
import RecordMasking.Proofs.Evaluation
import RecordMasking.Proofs.TokenReader
import RecordMasking.Proofs.MaskReader
import RecordMasking.Proofs.Rendering
import RecordMasking.Proofs.Synthesis
import RecordMasking.Proofs.Coverage
import RecordMasking.Proofs.Severity
import RecordMasking.Proofs.Delegation
import RecordMasking.Proofs.Entries
import RecordMasking.Proofs.Route
import RecordMasking.Proofs.TargetPath
import RecordMasking.Proofs.Writing
import RecordMasking.Proofs.History
import RecordMasking.Proofs.Grounded
import RecordMasking.Proofs.ProperName
import RecordMasking.Proofs.Repetition
import RecordMasking.Proofs.Registry
import RecordMasking.Proofs.Verdict
import RecordMasking.Proofs.Account
import RecordMasking.Proofs.CrateViews
import RecordMasking.Proofs.OwnFields
import RecordMasking.Proofs.Recut
import RecordMasking.Proofs.Agreement
import RecordMasking.Proofs.Beside
import RecordMasking.Proofs.DeclarationOrder
import RecordMasking.Proofs.FirstOfEach
import RecordMasking.Proofs.Redeclaration
import RecordMasking.Proofs.EntryFile
import RecordMasking.Proofs.Bookkeeping
import RecordMasking.Proofs.Ending
import RecordMasking.Proofs.Markers
import RecordMasking.Proofs.PrintedLines
import RecordMasking.Proofs.WrittenField
import RecordMasking.Proofs.OwnNames
import RecordMasking.Proofs.ImportedNames
import RecordMasking.Proofs.ImportTree
import RecordMasking.Proofs.Synonyms
import RecordMasking.Proofs.HiddenFields
import RecordMasking.Proofs.Assertions
import RecordMasking.Proofs.StringLiteral
import RecordMasking.Proofs.Canonical
import RecordMasking.Proofs.IndexFile
import RecordMasking.Proofs.Indexes
import RecordMasking.Proofs.Splitting
import RecordMasking.Proofs.SpelledText
import RecordMasking.Proofs.WrittenText
import RecordMasking.Proofs.WrittenRecord
import RecordMasking.Proofs.ManifestText
import RecordMasking.Proofs.PathText
import RecordMasking.Proofs.ListedPaths
import RecordMasking.Proofs.FieldVisibility
import RecordMasking.Proofs.PrefixDecisions
import RecordMasking.Proofs.MaskedTwice
import RecordMasking.Proofs.GlobImports
import RecordMasking.Proofs.Implementations
import RecordMasking.Proofs.OnTheWay
import RecordMasking.Proofs.ArtifactFiles
import RecordMasking.Proofs.ObjectText
import RecordMasking.Proofs.ConfigText

import BaseLang.Main
import BaseLang.Proofs.Files
import BaseLang.Proofs.Printing
import BaseLang.Registry
import BaseLang.SourceUnit
import BaseLang.Proofs.Artifacts
import BaseLang.Proofs.Extraction
import BaseLang.Proofs.Regeneration
import BaseLang.Proofs.Repetition
import BaseLang.Proofs.Failure
import BaseLang.Proofs.Course
import BaseLang.Proofs.Canonical
import BaseLang.Proofs.Idempotence
import BaseLang.Proofs.Collection
import BaseLang.Proofs.Encoding
import BaseLang.Proofs.Initialisation
import BaseLang.Proofs.Stages
import BaseLang.Proofs.Decision
import BaseLang.Proofs.QualifiedName
import BaseLang.Proofs.Compilation
import BaseLang.Proofs.Definitions
import BaseLang.Proofs.GeneratedSource
import BaseLang.Proofs.Commands
import BaseLang.Proofs.Frame
import BaseLang.Proofs.Interference
import BaseLang.Proofs.TokenClasses
import BaseLang.Proofs.Lexemes
import BaseLang.Proofs.ReadErrors
import BaseLang.Proofs.Chain
import BaseLang.Proofs.DecodedTables
import BaseLang.Proofs.Imports
import BaseLang.Proofs.Augmentation
import BaseLang.Proofs.Positions
import BaseLang.Proofs.PrettyTable
import BaseLang.Proofs.Nameable
import BaseLang.Proofs.Outputs
import BaseLang.Proofs.Suffixes
import BaseLang.Proofs.Placeholders
import BaseLang.Proofs.Brackets
import BaseLang.Proofs.Indices
import BaseLang.Proofs.Quoting
import BaseLang.Proofs.Widths
import BaseLang.Proofs.Documents
import BaseLang.Proofs.Arrangement
import BaseLang.Proofs.LongLines
import BaseLang.Proofs.Excerpts

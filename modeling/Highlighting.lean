import Highlighting.Buffer.Basic
import Highlighting.Buffer.Edit
import Highlighting.Buffer.Pass
import Highlighting.Catalog
import Highlighting.CommandLine
import Highlighting.Contexts
import Highlighting.Error
import Highlighting.Folding.Markers
import Highlighting.Folding.Range
import Highlighting.Handle
import Highlighting.Language.Basic
import Highlighting.Language.Builtin
import Highlighting.Language.File
import Highlighting.Language.Rule
import Highlighting.Language.Scan
import Highlighting.Line
import Highlighting.Main
import Highlighting.Pattern.Basic
import Highlighting.Pattern.Bracket
import Highlighting.Pattern.CharSet
import Highlighting.Pattern.Escape
import Highlighting.Pattern.Expr
import Highlighting.Pattern.Flaw
import Highlighting.Pattern.Match
import Highlighting.Pattern.Parser
import Highlighting.Proofs.Annotating
import Highlighting.Proofs.Brackets
import Highlighting.Proofs.Determinism
import Highlighting.Proofs.Edits
import Highlighting.Proofs.FromScratch
import Highlighting.Proofs.Incremental
import Highlighting.Proofs.Interning
import Highlighting.Proofs.Keeping
import Highlighting.Proofs.OpenRegions
import Highlighting.Proofs.Operations
import Highlighting.Proofs.Overflow
import Highlighting.Proofs.Partners
import Highlighting.Proofs.Passes
import Highlighting.Proofs.Reachability
import Highlighting.Proofs.Regions
import Highlighting.Proofs.Rehighlighting
import Highlighting.Proofs.Scanning
import Highlighting.Proofs.Sharing
import Highlighting.Proofs.Window
import Highlighting.Refusal
import Highlighting.Session
import Highlighting.Settings
import Highlighting.Shared
import Highlighting.Text.Bytes
import Highlighting.Text.Cursor
import Highlighting.Text.Newlines
import Highlighting.Text.Path
import Highlighting.Text.Store
import Highlighting.Token
import Highlighting.Toml.Basic
import Highlighting.Toml.Document
import Highlighting.Toml.Number
import Highlighting.Toml.Reading
import Highlighting.Toml.Text
import Highlighting.Unicode.Blank
import Highlighting.Unicode.CaseFold
import Highlighting.Unicode.Lowercase
import Highlighting.Unicode.Ranges
import Highlighting.Unicode.Word
import Highlighting.Proofs.Transactions
import Highlighting.Proofs.Answering
import Highlighting.Proofs.Provenance
import Highlighting.Proofs.Rebuilds
import Highlighting.Proofs.Frontiers
import Highlighting.Proofs.Reporting
import Highlighting.Proofs.Asking
import Highlighting.Proofs.Locality
import Highlighting.Proofs.Contracts
import Highlighting.Proofs.Strict
import Highlighting.Proofs.Refusals
import Highlighting.Proofs.Layout
import Highlighting.Proofs.Strides
import Highlighting.Proofs.Histories
import Highlighting.Proofs.Unnested
import Highlighting.Proofs.Renaming
import Highlighting.Proofs.Recovery
import Highlighting.Proofs.Watermark
import Highlighting.Proofs.Again
import Highlighting.Proofs.Laminar
import Highlighting.Proofs.Unclosed
import Highlighting.Proofs.Searching
import Highlighting.Proofs.Literals
import Highlighting.Proofs.Escapes
import Highlighting.Proofs.Precedence
import Highlighting.Proofs.Joining
import Highlighting.Proofs.Rounds
import Highlighting.Proofs.Unbroken
import Highlighting.Proofs.Undoing
import Highlighting.Proofs.Lines
import Highlighting.Proofs.Definitions
import Highlighting.Proofs.Matching
import Highlighting.Proofs.Quoting
import Highlighting.Proofs.Enclosed
import Highlighting.Proofs.RawStrings
import Highlighting.Proofs.Fences
import Highlighting.Proofs.Latest
import Highlighting.Proofs.Additions
import Highlighting.Proofs.Assignments

import TextScopes.Document
import TextScopes.Library.Directories
import TextScopes.Library.Embedded
import TextScopes.Registry
import TextScopes.Store.Flaw
import TextScopes.Proofs.Tokenizer.Memo
import TextScopes.Proofs.Store.Change
import TextScopes.Proofs.Table
import TextScopes.Proofs.Tokenizer.Forest
import TextScopes.Proofs.Tokenizer.Crossing
import TextScopes.Proofs.Tokenizer.Shift
import TextScopes.Proofs.Tokenizer.Stretch
import TextScopes.Proofs.Grammar.Words
import TextScopes.Proofs.Expression.Literal
import TextScopes.Proofs.Text.Cuts
import TextScopes.Proofs.Store.Forest
import TextScopes.Proofs.Document.Incremental
import TextScopes.Proofs.Document.Places
import TextScopes.Proofs.Store.Sound
import TextScopes.Proofs.Tokenizer.Inside
import TextScopes.Proofs.Document.Changed
import TextScopes.Proofs.Expression.Looking
import TextScopes.Proofs.Document.Stopping
import TextScopes.Proofs.Document.Restart
import TextScopes.Proofs.Grammar.Overwriting
import TextScopes.Proofs.Tokenizer.Agreement
import TextScopes.Proofs.Store.Nesting
import TextScopes.Proofs.Store.Queries
import TextScopes.Proofs.Registry.Caching
import TextScopes.Proofs.Grammar.Languages
import TextScopes.Proofs.Json.Size
import TextScopes.Proofs.Library.Loading
import TextScopes.Proofs.Library.Embedded
import TextScopes.Proofs.Registry.Loading
import TextScopes.Proofs.Grammar.Arena
import TextScopes.Proofs.Grammar.Building
import TextScopes.Proofs.Grammar.Holding
import TextScopes.Proofs.Grammar.Refused
import TextScopes.Proofs.Store.Stack
import TextScopes.Proofs.Store.Composition
import TextScopes.Proofs.Store.Top
import TextScopes.Proofs.Tokenizer.Malformed
import TextScopes.Proofs.Expression.Filling
import TextScopes.Proofs.Tokenizer.Groups
import TextScopes.Proofs.Theme.Runs
import TextScopes.Proofs.Tokenizer.Reopening
import TextScopes.Proofs.Expression.Swapping
import TextScopes.Proofs.Grammar.Candidates
import TextScopes.Proofs.Grammar.Reachable
import TextScopes.Proofs.Store.Covering
import TextScopes.Proofs.Text.Pieces
import TextScopes.Proofs.Theme.Merging
import TextScopes.Proofs.Theme.Color
import TextScopes.Proofs.Expression.Verbatim
import TextScopes.Proofs.Store.Removal
import TextScopes.Proofs.Tokenizer.Moving

import TagIndex.Main
import TagIndex.Proofs.Currency
import TagIndex.Proofs.KeysOfIds
import TagIndex.Proofs.FailedOpen
import TagIndex.Proofs.ScopeOrder
import TagIndex.Proofs.SharedKeys
import TagIndex.Text.Shortened
import TagIndex.Proofs.Atomicity
import TagIndex.Proofs.Queries
import TagIndex.Proofs.Answers
import TagIndex.Proofs.LateFilters
import TagIndex.Proofs.Ceiling
import TagIndex.Proofs.DeclarationOrder
import TagIndex.Proofs.Rollback
import TagIndex.Proofs.Registry
import TagIndex.Proofs.Restoring
import TagIndex.Proofs.Repetition
import TagIndex.Proofs.LargerLimits
import TagIndex.Proofs.Uncut
import TagIndex.Proofs.Importing
import TagIndex.Proofs.PrefixRanges
import TagIndex.Proofs.Patterns
import TagIndex.Proofs.MergedScopes
import TagIndex.Proofs.NameStarts
import TagIndex.Proofs.AcceptedLines
import TagIndex.Proofs.SelectingOptions
import TagIndex.Proofs.OneScope
import TagIndex.Proofs.FileLevel
import TagIndex.Proofs.Repeats
import TagIndex.Proofs.CaseModes
import TagIndex.Proofs.TypeNames
import TagIndex.Proofs.Operators
import TagIndex.Proofs.EnclosingScope
import TagIndex.Proofs.FilePaths
import TagIndex.Proofs.DeletedFiles
import TagIndex.Proofs.Healing
import TagIndex.Proofs.Clearing
import TagIndex.Proofs.Narrowing
import TagIndex.Proofs.Macros
import TagIndex.Proofs.Accounts
import TagIndex.Proofs.Bases
import TagIndex.Proofs.Keeping
import TagIndex.Proofs.Parameters
import TagIndex.Proofs.Layers
import TagIndex.Proofs.Printed

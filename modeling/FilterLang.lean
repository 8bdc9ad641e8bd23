import FilterLang.Double.ReadBack
import FilterLang.Editor
import FilterLang.Main
import FilterLang.Proofs.Editor.Run
import FilterLang.Proofs.Editor.Removal
import FilterLang.Proofs.Service.Compile
import FilterLang.Proofs.Query.Acceptance
import FilterLang.Proofs.Query.RoundTrip
import FilterLang.Proofs.Query.Rejected
import FilterLang.Proofs.Suggestion.Committed
import FilterLang.Proofs.Suggestion.Typing
import FilterLang.Proofs.Query.Dependence
import FilterLang.Proofs.Schema.ReadBack
import FilterLang.Proofs.Schema.Loaded
import FilterLang.Proofs.Schema.Ordered
import FilterLang.Proofs.Catalog.Rows
import FilterLang.Proofs.Catalog.Defaults
import FilterLang.Proofs.Suggestion.LineBreaks
import FilterLang.Proofs.Query.Cause
import FilterLang.Proofs.Suggestion.LegalSet
import FilterLang.Proofs.Instant.Marks
import FilterLang.Proofs.Instant.Millis
import FilterLang.Proofs.Document.Exact
import FilterLang.Proofs.Config.Banned

import UriRouting.Proofs.Template.FieldForm
import UriRouting.Proofs.Template.Substitution
import UriRouting.Proofs.Template.Refusals
import UriRouting.Proofs.Route.RoundTrip
import UriRouting.Proofs.Router.Find
import UriRouting.Router.Basic
import UriRouting.Proofs.Router.StableSort
import UriRouting.Proofs.Charset.Decoded
import UriRouting.Proofs.PercentEncoding.Canonical
import UriRouting.Proofs.Router.Answers
import UriRouting.Proofs.Router.Generated
import UriRouting.Proofs.Generation.Confined
import UriRouting.Proofs.Route.Calls
import UriRouting.Proofs.Route.Inferred
import UriRouting.Proofs.PercentEncoding.OnePass
import UriRouting.Proofs.PercentEncoding.Wide
import UriRouting.Proofs.Generation.Typed
import UriRouting.Proofs.Pattern.Greedy
import UriRouting.Proofs.Template.Greedy
import UriRouting.Proofs.Template.Grammar
import UriRouting.Proofs.Template.Braces
import UriRouting.Proofs.Binding.Independent
import UriRouting.Proofs.Template.Embedded
import UriRouting.Proofs.Template.Tokens
import UriRouting.Proofs.Router.Repeated
import UriRouting.Proofs.PercentEncoding.Lenient
import UriRouting.Proofs.Route.Numeric
import UriRouting.Proofs.Converter.History
import UriRouting.Proofs.Generation.Unordered
import UriRouting.Proofs.Types.Optional
import UriRouting.Proofs.Converter.Inverse
import UriRouting.Proofs.Router.RequestPath

import UrlRouter.Regex.Match
import UrlRouter.Pattern.MarkForm
import UrlRouter.Pattern.NamedForm
import UrlRouter.Json.Writer
import UrlRouter.Json.Reader
import UrlRouter.Decimal.Fixed
import UrlRouter.Route.Duplicates
import UrlRouter.Dispatch.Collector
import UrlRouter.Dispatch.Matcher
import UrlRouter.Dispatch.Blob
import UrlRouter.Route.Generator
import UrlRouter.CommandLine.Pairs
import UrlRouter.Digest.Md5
import UrlRouter.Storage.FileTree
import UrlRouter.Cache.Calls
import UrlRouter.Config.Load
import UrlRouter.Config.Dump
import UrlRouter.Json.Layout
import UrlRouter.Log.Template
import UrlRouter.Log.Tree
import UrlRouter.Log.Event
import UrlRouter.Metrics.Exposition
import UrlRouter.Router.FromConfig
import UrlRouter.Http.Application
import UrlRouter.Router.ErrorName
import UrlRouter.Router.View
import UrlRouter.Pattern.View
import UrlRouter.Validation.View
import UrlRouter.CommandLine.Help
import UrlRouter.CommandLine.Arguments
import UrlRouter.CommandLine.Run
import UrlRouter.Cache.View
import UrlRouter.Main
import UrlRouter.Decimal.Scientific
import UrlRouter.Proofs.Except
import UrlRouter.Proofs.Regex.Reading
import UrlRouter.Proofs.Pattern.Spelling
import UrlRouter.Proofs.Regex.Running
import UrlRouter.Proofs.Pattern.Captures
import UrlRouter.Proofs.Pattern.Aliases
import UrlRouter.Proofs.Pattern.CaptureNames
import UrlRouter.Proofs.Pattern.PlainForms
import UrlRouter.Proofs.Dispatch.Attributes
import UrlRouter.Proofs.Dispatch.Buckets
import UrlRouter.Proofs.Dispatch.Reference
import UrlRouter.Proofs.Dispatch.PlainRoutes
import UrlRouter.Proofs.Json.RoundTrip
import UrlRouter.Proofs.Dispatch.DataText
import UrlRouter.Proofs.Router.Coherence
import UrlRouter.Proofs.Text.Percent
import UrlRouter.Proofs.Pattern.Variants
import UrlRouter.Proofs.Route.Written
import UrlRouter.Proofs.Router.RoundTrip
import UrlRouter.Proofs.Dispatch.Hits
import UrlRouter.Proofs.Dispatch.Building
import UrlRouter.Proofs.Router.Constraints
import UrlRouter.Proofs.Regex.Composite
import UrlRouter.Proofs.Regex.Places
import UrlRouter.Proofs.Regex.Literals
import UrlRouter.Proofs.Pattern.RegularForms
import UrlRouter.Proofs.Dispatch.MarkRoutes
import UrlRouter.Proofs.Dispatch.Strategies
import UrlRouter.Proofs.Dispatch.Refusals
import UrlRouter.Proofs.Pattern.Grammar
import UrlRouter.Proofs.Router.Sharing
import UrlRouter.Proofs.Route.Collisions
import UrlRouter.Proofs.Dispatch.Collecting
import UrlRouter.Proofs.Router.CorruptEntry
import UrlRouter.Proofs.Router.Return
import UrlRouter.Proofs.Route.Influence
import UrlRouter.Proofs.Cache.Interchange
import UrlRouter.Proofs.Http.Overlap
import UrlRouter.Proofs.Route.KeptLayouts
import UrlRouter.Proofs.Dispatch.VariantTags
import UrlRouter.Proofs.Dispatch.StaticRoutes
import UrlRouter.Proofs.Pattern.OwnGroups
import UrlRouter.Proofs.Dispatch.GroupNumbers
import UrlRouter.Proofs.Log.Redaction
import UrlRouter.Proofs.Http.CorrelationHeader
import UrlRouter.Proofs.Http.Middlewares
import UrlRouter.Proofs.Config.Loading
import UrlRouter.Proofs.Dispatch.Acceptance

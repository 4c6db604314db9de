import EmbedUI.Main
import EmbedUI.Proofs.Host.NoticeLifecycle
import EmbedUI.Proofs.Host.RouterRun
import EmbedUI.Proofs.Json.Canonical
import EmbedUI.Proofs.Json.RecordReading
import EmbedUI.Proofs.Markup.Injection
import EmbedUI.Proofs.Markup.Outline
import EmbedUI.Proofs.Markup.RawText
import EmbedUI.Proofs.Markup.Tokenizer
import EmbedUI.Proofs.Message.Boundary
import EmbedUI.Registry.Conformance
import EmbedUI.Proofs.Json.Kept
import EmbedUI.Proofs.Message.Codec
import EmbedUI.Proofs.Component.Validity
import EmbedUI.Proofs.Description.Fitting
import EmbedUI.Proofs.Component.Identity
import EmbedUI.Proofs.Generator.Run
import EmbedUI.Proofs.Json.FiniteFloat
import EmbedUI.Proofs.Json.Guarantee
import EmbedUI.Proofs.Json.RoundTrip
import EmbedUI.Proofs.Component.WireFormat
import EmbedUI.Proofs.Generator.Rebuild
import EmbedUI.Proofs.Host.WireFormat
import EmbedUI.Proofs.Generator.Isolation
import EmbedUI.Proofs.Cli.Deadline
import EmbedUI.Proofs.Markup.Reference
import EmbedUI.Proofs.Markup.Lexeme
import EmbedUI.Proofs.Markup.Behavior
import EmbedUI.Proofs.Markup.Content
import EmbedUI.Proofs.Markup.Selection
import EmbedUI.Proofs.Markup.Posting
import EmbedUI.Proofs.Host.Protocol
import EmbedUI.Proofs.Registry.LastWrites
import EmbedUI.Proofs.Host.ValidSettings
import EmbedUI.Proofs.Host.MessageFiles
import EmbedUI.Proofs.Host.SerialOrder
import EmbedUI.Proofs.Host.Interleaving
import EmbedUI.Proofs.Registry.Contract
import EmbedUI.Proofs.Form.ReadBack
import EmbedUI.Proofs.Markup.Declaration
import EmbedUI.Proofs.Chart.BarMarkup
import EmbedUI.Proofs.Chart.PieMarkup
import EmbedUI.Proofs.Chart.ReadBack
import EmbedUI.Proofs.Dashboard.ReadBack
import EmbedUI.Proofs.Description.NamedFields
import EmbedUI.Proofs.Host.Confinement
import EmbedUI.Proofs.Description.TitleReading
import EmbedUI.Proofs.Decimal.ExactValue
import EmbedUI.Proofs.Decimal.ShortestValue
import EmbedUI.Proofs.Decimal.LeadingInteger
import EmbedUI.Proofs.Dashboard.NumericMetric
import EmbedUI.Proofs.Toml.DistinctKeys
import EmbedUI.Proofs.Cli.KnownSettings
import EmbedUI.Proofs.Host.AppliedSettings
import EmbedUI.Proofs.Form.FirstOffender
import EmbedUI.Proofs.Dashboard.SeriesValidation
import EmbedUI.Proofs.Chart.ExactScalar
import EmbedUI.Proofs.Chart.BarScale
import EmbedUI.Proofs.Decimal.FewDigits
import EmbedUI.Proofs.Chart.PiePartition
import EmbedUI.Proofs.Dashboard.MetricReading
import EmbedUI.Proofs.Json.Respelling
import EmbedUI.Proofs.Component.Spelling
import EmbedUI.Proofs.Text.LowerCase
import EmbedUI.Proofs.Description.LetterCase
import EmbedUI.Proofs.Description.AddedText
import EmbedUI.Proofs.Json.Literal
import EmbedUI.Proofs.Markup.StringLiteral
import EmbedUI.Proofs.Cli.Report
import EmbedUI.Proofs.Cli.CleanFailure

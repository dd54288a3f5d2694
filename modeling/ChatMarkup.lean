import ChatMarkup.Main
import ChatMarkup.Template.Highlight
import ChatMarkup.Proofs.Inline.Opening
import ChatMarkup.Proofs.Message.Source
import ChatMarkup.Proofs.Message.Canonical
import ChatMarkup.Proofs.Inline.Scanner
import ChatMarkup.Proofs.Html.Reading
import ChatMarkup.Proofs.Html.Injection
import ChatMarkup.Proofs.Html.Decoding
import ChatMarkup.Proofs.Html.PlainText
import ChatMarkup.Proofs.Message.Recovery
import ChatMarkup.Proofs.Inline.Resume
import ChatMarkup.Proofs.Message.Crossing
import ChatMarkup.Proofs.Message.Relabelling
import ChatMarkup.Proofs.Template.Placeholder
import ChatMarkup.Proofs.Template.Preview
import ChatMarkup.Proofs.Template.Agreement
import ChatMarkup.Proofs.Template.Substitution
import ChatMarkup.Proofs.Json.Grammar
import ChatMarkup.Proofs.Json.Pretty
import ChatMarkup.Proofs.Token.Tagging
import ChatMarkup.Proofs.Toml.Distinct
import ChatMarkup.Proofs.Toml.Yields
import ChatMarkup.Proofs.Config.Settings
import ChatMarkup.Proofs.Config.Override
import ChatMarkup.Proofs.Toml.Generic
import ChatMarkup.Proofs.Config.Strictness
import ChatMarkup.Proofs.Config.Default
import ChatMarkup.Proofs.Message.Nesting
import ChatMarkup.Proofs.Message.Stripping
import ChatMarkup.Proofs.Template.Declared
import ChatMarkup.Proofs.Cli.Checking
import ChatMarkup.Proofs.Template.Decomposition
import ChatMarkup.Proofs.Template.Occurrences
import ChatMarkup.Proofs.Template.Order
import ChatMarkup.Proofs.Template.Locality
import ChatMarkup.Proofs.Cli.Trimming
import ChatMarkup.Proofs.Config.Offences
import ChatMarkup.Proofs.Template.Report
import ChatMarkup.Proofs.Text.Truncation

import BotApi.Number.Shortest
import BotApi.Text.Blank
import BotApi.Text.Case
import BotApi.Text.Letter
import BotApi.Text.Path
import BotApi.Value.Compare
import BotApi.Value.Display
import BotApi.Json.Reader
import BotApi.Json.Writer
import BotApi.Catalog.Basic
import BotApi.Schema.Issue
import BotApi.Schema.Validate
import BotApi.Value.Access
import BotApi.Bot.Token
import BotApi.Markdown
import BotApi.Chat
import BotApi.Markup
import BotApi.Update.Kinds
import BotApi.Catalog.Artifact
import BotApi.Catalog.Lookup
import BotApi.Catalog.Attribute
import BotApi.Catalog.Discriminant
import BotApi.Draft.Params
import BotApi.Catalog.Overview
import BotApi.Page.Element
import BotApi.Limit.Registry
import BotApi.Call.Reply
import BotApi.Wire.Url
import BotApi.Wire.Encode
import BotApi.Wire.Transport
import BotApi.Client.Immediate
import BotApi.Settings
import BotApi.Main
import BotApi.Proofs.Catalog.Discovery
import BotApi.Proofs.Limit.Pace
import BotApi.Proofs.Limit.Registry
import BotApi.Proofs.Limit.Account
import BotApi.Proofs.Client.HandOver
import BotApi.Proofs.Client.Pace
import BotApi.Proofs.Draft.Isolation
import BotApi.Proofs.Draft.Independence
import BotApi.Proofs.Client.Outcome
import BotApi.Proofs.Json.Escape
import BotApi.Proofs.Json.RoundTrip
import BotApi.Proofs.Text.Utf8
import BotApi.Proofs.Catalog.Expression
import BotApi.Proofs.Catalog.Artifact
import BotApi.Proofs.Draft.Offers
import BotApi.Proofs.Draft.Documented
import BotApi.Proofs.Draft.Faithful
import BotApi.Proofs.Schema.Accepted
import BotApi.Proofs.Values.Conforms
import BotApi.Proofs.Values.Checked
import BotApi.Proofs.Values.Validated
import BotApi.Proofs.Draft.Ideal
import BotApi.Proofs.Catalog.Discriminant
import BotApi.Proofs.Values.Alike
import BotApi.Proofs.Schema.Congruent
import BotApi.Proofs.Draft.Final
import BotApi.Proofs.Draft.Rebuilt
import BotApi.Proofs.Values.Trial
import BotApi.Proofs.Wire.Encode
import BotApi.Proofs.Client.Secret
import BotApi.Proofs.Wire.Received
import BotApi.Proofs.Draft.Filed
import BotApi.Proofs.Draft.Labels
import BotApi.Proofs.Draft.Models
import BotApi.Proofs.Draft.Upheld
import BotApi.Proofs.Values.Supplied
import BotApi.Proofs.Json.Writable
import BotApi.Proofs.Values.Carried
import BotApi.Proofs.Values.Uploaded
import BotApi.Proofs.Wire.Sent
import BotApi.Proofs.Client.Upload
import BotApi.Proofs.Client.Immediate
import BotApi.Proofs.CommandLine.Current
import BotApi.Proofs.Values.Preserved
import BotApi.Proofs.Values.Unchanged
import BotApi.Proofs.Limit.Slot
import BotApi.Proofs.Limit.Admission
import BotApi.Proofs.Limit.Alias
import BotApi.Proofs.Limit.Merge
import BotApi.Proofs.Limit.Refusal
import BotApi.Proofs.Limit.Isolation
import BotApi.Proofs.Limit.Rate
import BotApi.Proofs.Catalog.Guarded
import BotApi.Proofs.Catalog.Whole
import BotApi.Proofs.Markdown
import BotApi.Proofs.Limit.Accepted
import BotApi.Proofs.Client.Options
import BotApi.Proofs.Values.Permuted
import BotApi.Proofs.TypeExpr.Description
import BotApi.Proofs.Catalog.Loaded
import BotApi.Proofs.CommandLine.Published
import BotApi.Proofs.Wire.Agreement
import BotApi.Proofs.Client.Answered
import BotApi.Proofs.Client.Spelling
import BotApi.Proofs.Update.Kinds
import BotApi.Proofs.Update.Commands
import BotApi.Proofs.Page.TypeCell

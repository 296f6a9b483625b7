import Admission.Word
import Admission.Text.Blank
import Admission.Text.Ascii
import Admission.Text.Fields
import Admission.Text.Numeral
import Admission.Number.Binary64
import Admission.Number.Shortest
import Admission.Dimension
import Admission.Endpoint
import Admission.Template
import Admission.Error
import Admission.FileTree
import Admission.Request
import Admission.Rule
import Admission.RuleSet
import Admission.CounterKey
import Admission.Counter
import Admission.Store
import Admission.Store.Call
import Admission.Address
import Admission.Address.Text
import Admission.Interaction
import Admission.Backend
import Admission.Whitelist
import Admission.Decision
import Admission.Metric
import Admission.Limiter
import Admission.Json
import Admission.Json.Printer
import Admission.Json.Reader
import Admission.Yaml.Cursor
import Admission.Yaml.Token
import Admission.Yaml.Scalar
import Admission.Reading
import Admission.Reading.Json
import Admission.Rule.Document
import Admission.Config
import Admission.Config.Document
import Admission.Calendar
import Admission.Http.Header
import Admission.Http.Message
import Admission.Http.Boundary
import Admission.Config.Validation
import Admission.Service
import Admission.Yaml.Property
import Admission.Yaml.Tokens
import Admission.Yaml.Node
import Admission.Yaml.Document
import Admission.Reading.Yaml
import Admission.Number.Decimal
import Admission.Setting
import Admission.Setting.Path
import Admission.Yaml12.Cursor
import Admission.Yaml12.Scalar
import Admission.Yaml12.Property
import Admission.Yaml12.Tokens
import Admission.Yaml12.Value
import Admission.Setting.Document
import Admission.Reading.Setting
import Admission.Config.Sources
import Admission.Main
import Admission.Proofs.TextLaws
import Admission.Proofs.Cell
import Admission.Proofs.Exchange
import Admission.Proofs.KeySpace
import Admission.Proofs.Conversation
import Admission.Proofs.History
import Admission.Proofs.Verdict
import Admission.Proofs.FixedWindow
import Admission.Proofs.SlidingWindow
import Admission.Proofs.Orderly
import Admission.Proofs.Usage
import Admission.Proofs.Sweeping
import Admission.Proofs.Revival
import Admission.Proofs.ShortCircuit
import Admission.Proofs.Isolation
import Admission.Proofs.Interleaving
import Admission.Proofs.Contention
import Admission.Proofs.Precedence
import Admission.Proofs.Fallback
import Admission.Proofs.Failure
import Admission.Proofs.Overrides
import Admission.Proofs.EntryKind
import Admission.Proofs.Refusal
import Admission.Proofs.Lockout
import Admission.Proofs.RetryAfter
import Admission.Proofs.ResetInstant
import Admission.Proofs.Resetting
import Admission.Proofs.Acceptance
import Admission.Proofs.Export
import Admission.Proofs.ArrivalOrder
import Admission.Proofs.Attempts
import Admission.Proofs.CounterPeriod
import Admission.Proofs.ResetRange
import Admission.Proofs.PathLanguage
import Admission.Proofs.Narrower
import Admission.Proofs.SelfConsistency
import Admission.Proofs.Gate
import Admission.Proofs.SubLimits
import Admission.Proofs.EstablishedIdentity
import Admission.Proofs.SkipPaths
import Admission.Proofs.AddressText
import Admission.Proofs.Spelling
import Admission.Proofs.Templates
import Admission.Proofs.Measurements

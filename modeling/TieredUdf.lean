import TieredUdf.Text.Quoted
import TieredUdf.Text.Hex
import TieredUdf.Text.Blank
import TieredUdf.Text.Duration
import TieredUdf.Json.Parser
import TieredUdf.Json.Printer
import TieredUdf.Value.Basic
import TieredUdf.Wasm.ModuleReader
import TieredUdf.Wasm.Validity
import TieredUdf.Guest.Dialogue
import TieredUdf.Module.Descriptor
import TieredUdf.Module.Version
import TieredUdf.Error
import TieredUdf.Wasm.Instance
import TieredUdf.Tier.Pool
import TieredUdf.Module.Validation
import TieredUdf.Module.Binding
import TieredUdf.Config
import TieredUdf.Toml.Parser
import TieredUdf.Module.Statistics
import TieredUdf.Cache.Basic
import TieredUdf.Module.Manifest
import TieredUdf.Module.Invocation
import TieredUdf.Engine.Registration
import TieredUdf.Engine.Call
import TieredUdf.Engine.Query
import TieredUdf.Wasm.Tier
import TieredUdf.Tier.Lending
import TieredUdf.Exchange.Error
import TieredUdf.Exchange.Report
import TieredUdf.Exchange.Cache
import TieredUdf.Exchange.Config
import TieredUdf.CommandLine.Run
import TieredUdf.Main
import TieredUdf.Proofs.Tier.LendingRun
import TieredUdf.Proofs.Module.Signature
import TieredUdf.Proofs.Wasm.Sections
import TieredUdf.Proofs.Module.Sandbox
import TieredUdf.Proofs.Module.Entering
import TieredUdf.Proofs.Module.CallTypes
import TieredUdf.Proofs.Module.Traffic
import TieredUdf.Proofs.Module.TypedCalls
import TieredUdf.Proofs.Host.Answers
import TieredUdf.Proofs.Guest.Confinement
import TieredUdf.Proofs.Module.Isolation
import TieredUdf.Proofs.Host.Lookups
import TieredUdf.Proofs.Module.Accounting
import TieredUdf.Proofs.Cache.LedgerRun
import TieredUdf.Proofs.Engine.Rejection
import TieredUdf.Proofs.Engine.References
import TieredUdf.Proofs.Tier.Reuse
import TieredUdf.Proofs.Cache.Damage
import TieredUdf.Proofs.Engine.Coalescing
import TieredUdf.Proofs.Host.Guards
import TieredUdf.Proofs.Module.Dispatch
import TieredUdf.Proofs.Cache.Durability
import TieredUdf.Proofs.Guest.Memory
import TieredUdf.Proofs.Host.Reading
import TieredUdf.Proofs.Module.History
import TieredUdf.Proofs.Host.FieldReads
import TieredUdf.Proofs.Module.TextParameters
import TieredUdf.Proofs.Cache.FirstStore
import TieredUdf.Proofs.Module.Teardown
import TieredUdf.Proofs.Module.DrainSteps
import TieredUdf.Proofs.Module.SwapSteps
import TieredUdf.Proofs.Engine.SingleCompile
import TieredUdf.Proofs.Value.Coercion
import TieredUdf.Proofs.Cache.Strays
import TieredUdf.Proofs.Engine.Discovery
import TieredUdf.Proofs.Host.TextCalls
import TieredUdf.Proofs.Module.ParameterBinding
import TieredUdf.Proofs.Cache.Recency
import TieredUdf.Proofs.Tier.Requests
import TieredUdf.Proofs.Module.KeyText
import TieredUdf.Proofs.Host.LogLines
import TieredUdf.Proofs.Document.PathText
import TieredUdf.Proofs.Document.Fields
import TieredUdf.Proofs.Host.BareDocuments
import TieredUdf.Proofs.Engine.Latest
import TieredUdf.Proofs.Module.MemoryPages
import TieredUdf.Proofs.Module.Acceptance
import TieredUdf.Proofs.Document.PathScan
import TieredUdf.Proofs.Module.Averages
import TieredUdf.Proofs.Module.SignatureText
import TieredUdf.Proofs.Tier.Prefill
import TieredUdf.Proofs.CommandLine.TextArguments

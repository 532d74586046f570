import Zynax.Compiler.TrappedCycles
import Zynax.Compiler.Namespaces
import Zynax.Engine.Trace
import Zynax.Engine.Mutations
import Zynax.Engine.Rendering
import Zynax.Engine.DataFlow
import Zynax.Engine.Integers
import Zynax.Engine.Timeout
import Zynax.Engine.Watch
import Zynax.Engine.DefaultEvents
import Zynax.Cli.ContextBlock
import Zynax.Cli.DataFlow
import Zynax.Cli.LogsRoundTrip
import Zynax.Cli.Completion
import Zynax.Cli.Gitops
import Zynax.Broker.Executions
import Zynax.Broker.Retry
import Zynax.Broker.Persistence
import Zynax.Broker.Recovery
import Zynax.Broker.Eligibility
import Zynax.Gateway.EnginePolicy
import Zynax.Gateway.LogStream
import Zynax.Gateway.Reconciler
import Zynax.Images.Prune
import Zynax.Memory.Tables
import Zynax.Memory.Vectors
import Zynax.Registry.Selection
import Zynax.Registry.Informer
import Zynax.Registry.Readiness
import Zynax.Events.Forwarder
import Zynax.Adapter.Mcp
import Zynax.Adapter.CiRuns
import Zynax.Adapter.AdkOutput
import Zynax.Adapter.LlmRelay
import Zynax.Adapter.LangGraph
import Zynax.Adapter.Streams
import Zynax.Adapter.Validation
import Zynax.Adapter.Payloads
import Zynax.Adapter.Messages
import Zynax.Adapter.Secrets
import Zynax.Adapter.AppToken
import Zynax.Conformance.Matrix

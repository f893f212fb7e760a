import AgentDev.Interleaving.History
import AgentDev.Interleaving.RelyGuarantee
import AgentDev.Interleaving.Locks
import AgentDev.Core.ProjectInit
import AgentDev.Core.Repository
import AgentDev.Core.World
import AgentDev.Core.Effects
import AgentDev.Core.Protocol
import AgentDev.Core.Conformance
import AgentDev.Core.Runs
import AgentDev.Core.TaskStarts
import AgentDev.Core.Completion
import AgentDev.Core.Executions
import AgentDev.Core.Merging
import AgentDev.Core.Synchronization
import AgentDev.Core.Integration
import AgentDev.Core.Workspaces
import AgentDev.Policy.Schema
import AgentDev.Policy.Resolver
import AgentDev.Policy.Overlay
import AgentDev.Policy.Narrowing
import AgentDev.Interleaving.Deadlock
import AgentDev.Core.LockOrder
import AgentDev.Interleaving.Sequential
import AgentDev.Core.Alone
import AgentDev.Core.Lifecycle
import AgentDev.Core.Dependencies
import AgentDev.Core.FailedMerges
import AgentDev.Core.FailedStarts
import AgentDev.Core.AbortRetries
import AgentDev.Python.Json
import AgentDev.Python.JsonStrings
import AgentDev.Python.JsonRoundTrip
import AgentDev.Policy.Serialization
import AgentDev.Python.Decimals
import AgentDev.Policy.Spellings
import AgentDev.Interleaving.Rounds
import AgentDev.Python.Sockets
import AgentDev.Runtime.World
import AgentDev.Runtime.Podman
import AgentDev.Runtime.Termination
import AgentDev.Runtime.WorkspaceLock
import AgentDev.Python.Base64
import AgentDev.Python.Integers
import AgentDev.Python.JsonLines
import AgentDev.Runtime.RpcIO
import AgentDev.Runtime.Delivery
import AgentDev.Runtime.Pace
import AgentDev.Runtime.Endings
import AgentDev.Runtime.Receipt
import AgentDev.Policy.Fields
import AgentDev.Python.Objects
import AgentDev.Policy.Mappings
import AgentDev.Policy.Inheritance
import AgentDev.Policy.Commutation
import AgentDev.Policy.Profiles
import AgentDev.Agents.Capabilities
import AgentDev.Policy.Capabilities
import AgentDev.Core.Handoff
import AgentDev.Core.MergedHistory
import AgentDev.Agents.State
import AgentDev.Files.Tree
import AgentDev.Agents.Drivers
import AgentDev.Execution.Plan
import AgentDev.Execution.Layout
import AgentDev.Execution.Runs
import AgentDev.Execution.Sources
import AgentDev.Execution.Access
import AgentDev.Shell.Commands
import AgentDev.Shell.Execution
import AgentDev.Providers.Volumes
import AgentDev.Providers.Script
import AgentDev.Providers.Migration
import AgentDev.Providers.Effect
import AgentDev.Providers.Outcome
import AgentDev.Agents.DomainTables
import AgentDev.Execution.Prompts
import AgentDev.Python.Surrogates
import AgentDev.Agents.CodexSettings
import AgentDev.Agents.CursorSandbox
import AgentDev.Agents.Confinement
import AgentDev.Python.JsonBytes
import AgentDev.Broker.Requests
import AgentDev.Broker.RunRequests
import AgentDev.Policy.Fingerprints
import AgentDev.Files.Directory
import AgentDev.Files.Publishing
import AgentDev.Files.Buffered
import AgentDev.Execution.PolicyFiles
import AgentDev.Execution.CommandOptions
import AgentDev.Core.BranchNames
import AgentDev.Execution.PolicyNames
import AgentDev.Execution.Encoding
import AgentDev.Runtime.Relay
import AgentDev.Broker.Client
import AgentDev.Broker.Sessions
import AgentDev.Policy.Monotone
import AgentDev.Providers.Filling
import AgentDev.Providers.Recovery
import AgentDev.Broker.Documents
import AgentDev.Jq.Paths
import AgentDev.Providers.Reconciliation

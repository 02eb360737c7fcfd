import Ficc.StateProvider.Atomicity
import Ficc.Execution.Ceiling
import Ficc.Execution.Truth
import Ficc.Workloads.Validation
import Ficc.Contributors.Certificates
import Ficc.Workloads.Exchanges
import Ficc.Workloads.Overtaking
import Ficc.Workloads.Scheduling
import Ficc.System.Devices
import Ficc.Federation.Quotas
import Ficc.Transfers.Replay
import Ficc.Agents.Outbox
import Ficc.Agents.HandOver
import Ficc.Modules.Conversations
import Ficc.Modules.Recovery
import Ficc.Sources.Finality
import Ficc.Datasets.Propagation
import Ficc.Workspaces.Integrity
import Ficc.Access.Sessions
import Ficc.Policies.Enforcement
import Ficc.Editor.NoLoss
import Ficc.Terminals.Escape
import Ficc.Workloads.Delegated
import Ficc.Files.Settlement
import Ficc.Workloads.Reconcile
import Ficc.Files.Listing
import Ficc.Bus.Bodies
import Ficc.Models.Publication
import Ficc.Execution.Codec
import Ficc.Execution.Leases
import Ficc.Inference.Gateway
import Ficc.Viewer.Session
import Ficc.Datasets.Coverage

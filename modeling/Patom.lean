import Patom.Foundation.Transition
import Patom.Foundation.Table
import Patom.Foundation.Pairing
import Patom.Foundation.PairingOrder
import Patom.Types
import Patom.TypesLaws
import Patom.Text
import Patom.Provider.Chat
import Patom.Runtime.Ownership
import Patom.Runtime.Recovery
import Patom.Threads.Pairs
import Patom.Billing.Service
import Patom.AgentCore.Metering
import Patom.AgentCore.Watermark
import Patom.AgentCore.Lossless
import Patom.Memory.Types
import Patom.Billing.Conservation
import Patom.Billing.Replay
import Patom.Scheduling.Cancellation
import Patom.Scheduling.Effects
import Patom.AgentCore.Dispatch
import Patom.Approvals.Calls
import Patom.Approvals.Desk
import Patom.Approvals.HardGate
import Patom.Approvals.Idempotence
import Patom.Approvals.System
import Patom.Approvals.Budgeted
import Patom.Approvals.DagBudget
import Patom.Tools.SendMessage
import Patom.Mcp.Registry
import Patom.Runtime.Response
import Patom.Runtime.Quiescence
import Patom.Runtime.Terminality
import Patom.Discord.Connection
import Patom.Discord.Manager
import Patom.Discord.Reconnects
import Patom.Foundation.Journal
import Patom.Foundation.Ranking
import Patom.Mcp.Freshness
import Patom.Mcp.Isolation
import Patom.Memory.Cap
import Patom.Memory.Composer
import Patom.Memory.Fidelity
import Patom.Memory.Pinned
import Patom.Memory.Reflection
import Patom.Memory.Replay
import Patom.Memory.Reverts
import Patom.Memory.Unreflected
import Patom.Runtime.Delivery
import Patom.Threads.Agreement
import Patom.Threads.Append
import Patom.Threads.Interleaved
import Patom.Tools.Handles
import Patom.Billing.Pricing
import Patom.Cache
import Patom.Discord.Supervisor
import Patom.Lark.Codec
import Patom.Orgs.Invites
import Patom.Orgs.Owners
import Patom.Runtime.FailedClaims
import Patom.Runtime.Heartbeats
import Patom.Runtime.Lifecycle
import Patom.Tools.Fixpoint
import Patom.Directory.Store
import Patom.Directory.ShadowsLaws
import Patom.Http.Org
import Patom.Http.OrgLaws
import Patom.Http.Prompts
import Patom.Http.PromptsLaws
import Patom.Http.Retries
import Patom.Runtime.Cancellations
import Patom.Scheduling.Cap
import Patom.Discord.Backfill
import Patom.Discord.BackfillRuns
import Patom.Discord.Redelivery
import Patom.Background.Store
import Patom.Memory.Cognition
import Patom.Memory.Batches
import Patom.Scheduling.Recurring
import Patom.Tools.Addressing
import Patom.Tools.AskApproval
import Patom.Tools.AskApprovalLaws
import Patom.Mcp.OAuth
import Patom.AgentCore.Settlement
import Patom.AgentCore.SettlementLaws
import Patom.Foundation.Slice
import Patom.Lark.Bridge
import Patom.Lark.Copies
import Patom.Lark.CopiesRuns
import Patom.Threads.StreamPump
import Patom.Threads.StreamPumpLaws
import Patom.Slack.Bridge
import Patom.Slack.Redelivery
import Patom.Slack.RedeliveryRuns
import Patom.Discord.Acquire
import Patom.Discord.Outbound
import Patom.Discord.Poster
import Patom.Discord.Zombies
import Patom.Foundation.IpAddr
import Patom.Lark.Outbound
import Patom.Mentions.Agreement
import Patom.Mentions.Inbound
import Patom.Slack.StreamPump
import Patom.Tools.CallCounter
import Patom.Tools.Floor
import Patom.Memory.Tiling
import Patom.AgentCore.Clamp
import Patom.AgentCore.Folds
import Patom.Foundation.Base64
import Patom.Foundation.SignedText
import Patom.Mcp.RateLimit
import Patom.Mcp.Scoped
import Patom.Mcp.SignedLinks
import Patom.Memory.Librarian
import Patom.Provider.Convert
import Patom.AgentCore.FoldKernel
import Patom.AgentCore.ToolBatches
import Patom.Memory.HandleMap
import Patom.Orgs.Members
import Patom.Runtime.LiveSlots
import Patom.Web.ChatBody
import Patom.Web.FoldConserves
import Patom.Http.TurnPages
import Patom.Provider.OoxmlParts
import Patom.AgentCore.Envelopes
import Patom.Memory.Prompts
import Patom.Web.ThreadView
import Patom.Web.LiveFeed

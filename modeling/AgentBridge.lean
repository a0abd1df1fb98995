import AgentBridge.Admission.Approval
import AgentBridge.Blind.Finality
import AgentBridge.Blind.Noninterference
import AgentBridge.Http.ReservedContext
import AgentBridge.Blind.Leftovers
import AgentBridge.Http.SubmissionClaims
import AgentBridge.Lease.Canonical
import AgentBridge.Lease.Capacity
import AgentBridge.Lease.Fencing
import AgentBridge.Mirror.Convergence
import AgentBridge.Mirror.HighWater
import AgentBridge.Policy.Floor
import AgentBridge.Runner.Admissible
import AgentBridge.Runner.FinishedWork
import AgentBridge.Runner.RetryRuns
import AgentBridge.Runner.UsageRuns
import AgentBridge.Runner.Usage
import AgentBridge.State.Delivery
import AgentBridge.State.Failures
import AgentBridge.State.Identity
import AgentBridge.State.Presence
import AgentBridge.State.Slugs
import AgentBridge.Slack.Duplicates
import AgentBridge.Slack.EventJournal
import AgentBridge.Slack.Reconnect
import AgentBridge.Slack.Replies
import AgentBridge.Slack.Selection
import AgentBridge.State.Stores
import AgentBridge.Policy.Reordering
import AgentBridge.Workflow.Capable
import AgentBridge.Admission.Estimates
import AgentBridge.Policy.Monotone
import AgentBridge.Mirror.Ring
import AgentBridge.Runner.Prompt
import AgentBridge.Tcp.Framing
import AgentBridge.Slack.Signature
import AgentBridge.Slack.RunIdentity
import AgentBridge.Slack.IssueDetection
import AgentBridge.Slack.Grammar
import AgentBridge.Runner.Origin
import AgentBridge.Slack.Context
import AgentBridge.Slack.DispatchModal
import AgentBridge.Slack.ObservableEvent
import AgentBridge.Runner.Backoff
import AgentBridge.Truncation
import AgentBridge.State.Attribution
import AgentBridge.State.Acts
import AgentBridge.Http.Endpoints
import AgentBridge.Server.Attribution
import AgentBridge.Server.Soundness
import AgentBridge.Server.Sessions
import AgentBridge.Server.Delivery
import AgentBridge.Base.Brackets
import AgentBridge.Runner.Assignment
import AgentBridge.Runner.Bracketed
import AgentBridge.Runner.Agreement

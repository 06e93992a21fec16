import AgentHarness.Services.AdmissionCauses
import AgentHarness.Services.ConsumerIndependence
import AgentHarness.Approval.ApprovalWalk
import AgentHarness.Approval.GrantRows
import AgentHarness.Approval.TenantIsolation
import AgentHarness.Approval.DecisionRefusals
import AgentHarness.Evaluation.CompleteStreams
import AgentHarness.Evaluation.StreamRoundTrip
import AgentHarness.Executions.CanonicalText
import AgentHarness.Runtime.SlotRelease
import AgentHarness.Gate.CancelPosts
import AgentHarness.Gate.IdentityHops
import AgentHarness.Gate.OrderIdentifiers
import AgentHarness.Events.AllowList
import AgentHarness.Runtime.OrderedDelivery
import AgentHarness.Runtime.ConsumerTask
import AgentHarness.Approval.ExpiryAgreement
import AgentHarness.Runtime.CompactThread
import AgentHarness.Evaluation.ReleaseGate
import AgentHarness.Evaluation.SyncConvergence
import AgentHarness.Gate.OrderPaths
import AgentHarness.Approval.CursorCodec
import AgentHarness.Evaluation.LocalRun
import AgentHarness.Approval.CallProgress
import AgentHarness.Approval.Serializability
import AgentHarness.Services.ThreadCustody
import AgentHarness.Core.CleanShutdown
import AgentHarness.Core.ReadyEndpoint
import AgentHarness.Core.ReadinessAge
import AgentHarness.Evaluation.ObservedTurn
import AgentHarness.Api.HonestAnswers

import OrssNic.RingBufferWindow
import OrssNic.HashMapIteration
import OrssNic.BalancerGreedy
import OrssNic.OpenflowReply
import OrssNic.OpenflowFraming
import OrssNic.ReportedFlows
import OrssNic.FlowModSelection
import OrssNic.LoadArithmetic
import OrssNic.MessageConservation
import OrssNic.SideBuffer
import OrssNic.FullMapExit
import OrssNic.BalancerIdle
import OrssNic.SamplingPhase
import OrssNic.ReplyMatching
import OrssNic.OpenflowCursor
import OrssNic.Requery
import OrssNic.OpenflowSafeRead
import OrssNic.FlowStatsOrder
import OrssNic.FeaturesReply
import OrssNic.HandshakeBuffer
import OrssNic.HookSymmetry
import OrssNic.PayloadOwnership
import OrssNic.BodyRuns
import OrssNic.ServedRuns
import OrssNic.Forwarding
import OrssNic.SampleSwitch
import OrssNic.BalancerDynamics
import OrssNic.PerCpuConnections
import OrssNic.Conversation
import OrssNic.QueryOrder
import OrssNic.Shutdown
import OrssNic.Decisions

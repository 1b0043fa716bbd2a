import PrivaCloud.AgentRunner.Permission.Isolation
import PrivaCloud.AgentRunner.Pool.Exclusion
import PrivaCloud.AgentRunner.Pool.Wakeups
import PrivaCloud.AgentRunner.RunRegistry.RunEnds
import PrivaCloud.AgentRunner.Runtime.Conservation
import PrivaCloud.AgentRunner.Runtime.Security
import PrivaCloud.AgentRunner.ScheduledRuns.Settling
import PrivaCloud.AgentRunner.Service.Delivery
import PrivaCloud.AgentRunner.Service.Resume
import PrivaCloud.Common.AuditLog
import PrivaCloud.DataPlane.Parity
import PrivaCloud.Scheduler.Outcomes
import PrivaCloud.Scheduler.Overlap
import PrivaCloud.DataPlane.Tenancy
import PrivaCloud.Operator.GenerationRuns
import PrivaCloud.Operator.Teardown
import PrivaCloud.Operator.TerminalDrain
import PrivaCloud.ControlPanel.Isolation
import PrivaCloud.ControlPanel.Purge
import PrivaCloud.ChannelConnector.Convergence
import PrivaCloud.AgentRunner.HookTrail
import PrivaCloud.AgentRunner.Permission.Settlement
import PrivaCloud.AgentRunner.Pool.CloseOnce
import PrivaCloud.AgentRunner.Pool.FrameLimit
import PrivaCloud.AgentRunner.Pool.Shrink
import PrivaCloud.AgentRunner.ProfileCalls
import PrivaCloud.AgentRunner.Service.WorkflowDrain
import PrivaCloud.AgentRunner.SkillUpload
import PrivaCloud.AgentRunner.TranscriptHealing
import PrivaCloud.AgentRunner.UploadNames
import PrivaCloud.ChannelConnector.Answers
import PrivaCloud.ChannelConnector.CardRuns
import PrivaCloud.ChannelConnector.Deliveries
import PrivaCloud.Common.Crypto
import PrivaCloud.Scheduler.ArmedSet
import PrivaCloud.Scheduler.FireRecords
import PrivaCloud.Scheduler.Sweep
import PrivaCloud.Web.Answerable
import PrivaCloud.Web.Refresh
import PrivaCloud.Web.SingleRun
import PrivaCloud.AgentRunner.ScheduledRuns.JobEditsRight
import PrivaCloud.Common.AuditTotal
import PrivaCloud.Common.HookWrapper
import PrivaCloud.DataPlane.RunPages
import PrivaCloud.DataSpine.OwnerLink
import PrivaCloud.Operator.IdleWindow
import PrivaCloud.Operator.ScriptGenerations
import PrivaCloud.ChannelConnector.ChatSessions
import PrivaCloud.AgentRunner.HookEnv
import PrivaCloud.AgentRunner.SessionMetaRuns
import PrivaCloud.AskUser.AnsweredBlock
import PrivaCloud.ControlPanel.LoginThrottle
import PrivaCloud.Web.BackgroundWork
import PrivaCloud.Web.RegistryRuns
import PrivaCloud.Web.WorkflowTally
import PrivaCloud.ChannelConnector.WorkerStop
import PrivaCloud.AgentRunner.HookDryRun
import PrivaCloud.DataSpine.CopyToPg
import PrivaCloud.Terminald.Output
import PrivaCloud.DataSpine.LegacyImport
import PrivaCloud.DataSpine.SchemaUpgrade
import PrivaCloud.Web.ModelChoice
import PrivaCloud.Web.RuntimeSwitches
import PrivaCloud.DataSpine.HookSeeding
import PrivaCloud.AgentRunner.QueueWakeups
import PrivaCloud.Common.BodyLimit
import PrivaCloud.AgentRunner.RunRegistry.Buffer

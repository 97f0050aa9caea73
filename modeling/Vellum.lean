import Vellum.Broker.ActorMap
import Vellum.Broker.AtMostOnce
import Vellum.Broker.CommandIdentity
import Vellum.Broker.CommandRecovery
import Vellum.Broker.ResumeCursor
import Vellum.Broker.Rehydration
import Vellum.Broker.ThreadStream
import Vellum.Broker.ThreadSwitch
import Vellum.Broker.EventLog
import Vellum.Broker.LeaseManager
import Vellum.Proxy.ChatIdentity
import Vellum.Proxy.NormalizerText
import Vellum.Proxy.HistoryWrites
import Vellum.Proxy.HistoryReplay
import Vellum.Proxy.SubagentPrune
import Vellum.Proxy.GenerationController
import Vellum.Broker.ConnectionEpochs
import Vellum.Proxy.EventKinds
import Vellum.Desktop.QuotaPoolRuns
import Vellum.Desktop.ConvergeControl
import Vellum.Desktop.AckCursor
import Vellum.Updates.Select
import Vellum.Updates.CoreTree
import Vellum.Updates.StagedDownload
import Vellum.Proxy.TaskRevisions
import Vellum.Proxy.UsageBinding
import Vellum.Proxy.StallEpochs
import Vellum.Proxy.InvestigationProgress
import Vellum.Proxy.RecoverySnapshot
import Vellum.Proxy.OpaqueState
import Vellum.Proxy.PromptTools
import Vellum.Updates.TreeSwitch
import Vellum.Enhanced.EnvironmentLease
import Vellum.Enhanced.SpawnBinding
import Vellum.Proxy.ChatArguments
import Vellum.Proxy.FilteredText
import Vellum.Enhanced.ToolCallReplay
import Vellum.Agent.HandoffOverlap
import Vellum.Agent.FinalCaptures
import Vellum.Agent.Configuration
import Vellum.Broker.ApprovalIds
import Vellum.Proxy.ControlTokens
import Vellum.Proxy.ConversationBranch
import Vellum.Proxy.ConversationKeys
import Vellum.Proxy.NamespaceNames
import Vellum.Proxy.PatchDelimiters
import Vellum.Proxy.PrunedOnce
import Vellum.Proxy.TailBudget
import Vellum.Enhanced.IdleInjection
import Vellum.Enhanced.MessageIdentity
import Vellum.Proxy.ChatTail
import Vellum.Proxy.CompactBudget
import Vellum.Proxy.CompactionRepair
import Vellum.Proxy.OutboundPolicy
import Vellum.Proxy.PortableTwice
import Vellum.Proxy.RootedParameters
import Vellum.Proxy.SearchOutput
import Vellum.Proxy.SentSurface
import Vellum.Proxy.ToolOutputText
import Vellum.Proxy.ToolState
import Vellum.Enhanced.SingleInjection

import MochiPort.LifecycleAdmission
import MochiPort.SegmentSearch
import MochiPort.KeptAssemblies
import MochiPort.WecomRequests
import MochiPort.TopicRenames
import MochiPort.SoundRecoveries
import MochiPort.OutboundOrder
import MochiPort.LifecycleTombstones
import MochiPort.TurnSlots
import MochiPort.QueueAttendance
import MochiPort.ApprovalClients
import MochiPort.ApprovalAnswers
import MochiPort.ProgressShown
import MochiPort.TypingItems
import MochiPort.WecomStreams
import MochiPort.SettingsOrder
import MochiPort.InboundOrder
import MochiPort.TopicGate
import MochiPort.CleanupOrder
import MochiPort.ReconcileOrder
import MochiPort.ChatOutputOrder
import MochiPort.ChatTurnOrder
import MochiPort.RouteResolution
import MochiPort.SentBackThinking
import MochiPort.BrokenStreams
import MochiPort.ReassembledMessages
import MochiPort.RestoredExtensions
import MochiPort.MigratedStorage
import MochiPort.WechatWakeups
import MochiPort.AtomicBinding
import MochiPort.ProgressAccounts
import MochiPort.AnthropicPolls
import MochiPort.ProgressRendering
import MochiPort.GitDiffs
import MochiPort.AdvertisedTools
import MochiPort.SettledResponses
import MochiPort.CustomInputDeltas
import MochiPort.FaithfulChunks
import MochiPort.StatelessSelection
import MochiPort.IsolatedRecords
import MochiPort.BindingRestore
import MochiPort.TerminalNotices
import MochiPort.WindowedSummary
import MochiPort.InternalCaptures
import MochiPort.ResponseLogs
import MochiPort.OrderFreeSummary
import MochiPort.TimestampInstants
import MochiPort.StreamedCards
import MochiPort.TelegramPairing
import MochiPort.UpdatePolling

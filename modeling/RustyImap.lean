import RustyImap.LabelledRuns
import RustyImap.ToolName
import RustyImap.Errors
import RustyImap.PostureMatrix
import RustyImap.CircuitBreaker
import RustyImap.DispatchPipeline
import RustyImap.ToolRefinement
import RustyImap.ToolCatalog
import RustyImap.Mbox
import RustyImap.DispatchDrain
import RustyImap.PartNumbering
import RustyImap.AuditEnvelope
import RustyImap.AuditLog
import RustyImap.AuditSequence
import RustyImap.AuditRecovery
import RustyImap.AuditTamper
import RustyImap.AuditWorker
import RustyImap.InboundBridge
import RustyImap.FolderName
import RustyImap.ImapOps
import RustyImap.SessionDispatch
import RustyImap.MailStore
import RustyImap.HtmlBody
import RustyImap.ContentParse
import RustyImap.MessageBuilder
import RustyImap.SubCapability
import RustyImap.MailboxTree
import RustyImap.ProtectedFolders
import RustyImap.ConfigModel
import RustyImap.Credentials
import RustyImap.ConfigValidate
import RustyImap.ConfigCompose
import RustyImap.ForwardMessage
import RustyImap.SendDeadline
import RustyImap.HeaderInjection
import RustyImap.HiddenText
import RustyImap.KeyringMigration
import RustyImap.LinkHosts
import RustyImap.ArmedPurge
import RustyImap.RotationRetry
import RustyImap.BreakerRuns
import RustyImap.CursorWalk
import RustyImap.SearchPages
import RustyImap.HeaderScrub
import RustyImap.SearchGrammar
import RustyImap.SearchOps
import RustyImap.LogPruning
import RustyImap.AuditRecord
import RustyImap.Redaction
import RustyImap.JsonCodec
import RustyImap.ValueCodec
import RustyImap.RecordCodec
import RustyImap.AuditMerge
import RustyImap.RecordText
import RustyImap.BodyBudget
import RustyImap.FileNames
import RustyImap.FilenameParams
import RustyImap.ExportMessages
import RustyImap.AttachmentWrite
import RustyImap.SandboxPaths
import RustyImap.NormalText
import RustyImap.IntegerSchemas
import RustyImap.EnvelopeGrammar
import RustyImap.AsciiBytes
import RustyImap.FlagGrammar
import RustyImap.FolderDisplay
import RustyImap.FlagLists
import RustyImap.OrderedRuns
import RustyImap.SequenceSets
import RustyImap.UidSets
import RustyImap.ComposeBudget
import RustyImap.ConnectProtocol
import RustyImap.AuthTrail
import RustyImap.Preflight
import RustyImap.MailServer
import RustyImap.ToolHandlers
import RustyImap.RetrievalHandlers
import RustyImap.HandlerCalls
import RustyImap.BodyCommands
import RustyImap.PostureEffects
import RustyImap.AuditDeadline
import RustyImap.ToolListSession
import RustyImap.SharedOutput
import RustyImap.StdioBridges
import RustyImap.ServeLifecycle
import RustyImap.ServeShutdown

import FlanTerminal.Foundation.Prog
import FlanTerminal.Foundation.EventLoop
import FlanTerminal.Foundation.RelyGuarantee
import FlanTerminal.Foundation.Trace
import FlanTerminal.Foundation.Traced
import FlanTerminal.Foundation.Replay
import FlanTerminal.Foundation.Serial
import FlanTerminal.Foundation.Decimal
import FlanTerminal.Foundation.JsonText
import FlanTerminal.Foundation.JsonSize
import FlanTerminal.Foundation.JsString
import FlanTerminal.Foundation.Utf8
import FlanTerminal.Foundation.Json
import FlanTerminal.Foundation.JsMap
import FlanTerminal.Foundation.TokenBucket
import FlanTerminal.Foundation.WorkStack
import FlanTerminal.Shared.Tabs
import FlanTerminal.Shared.Protocol
import FlanTerminal.Shared.TextFrames
import FlanTerminal.Server.TerminalBridge
import FlanTerminal.Server.TerminalBridgeSafety
import FlanTerminal.Server.OutputFrames
import FlanTerminal.Server.CredentialStore
import FlanTerminal.Server.RateLimiter
import FlanTerminal.Server.RateLimiterSafety
import FlanTerminal.Server.AuthService
import FlanTerminal.Server.AuthSessions
import FlanTerminal.Server.AuthDisplacement
import FlanTerminal.Server.AuthMiddleware
import FlanTerminal.Server.AuthHistory
import FlanTerminal.Server.AuthInvariant
import FlanTerminal.Server.AuthRules
import FlanTerminal.Server.AuthEstablish
import FlanTerminal.Server.AuthSafety
import FlanTerminal.Foundation.Script
import FlanTerminal.Server.AuthResults
import FlanTerminal.Server.PasswordQueues
import FlanTerminal.Server.PasswordChange
import FlanTerminal.Client.TerminalInput
import FlanTerminal.Foundation.JsSet
import FlanTerminal.Foundation.Ledger
import FlanTerminal.Server.ActivityTracker
import FlanTerminal.Server.ActivitySafety
import FlanTerminal.Server.BridgeRegistry
import FlanTerminal.Server.BridgeRegistrySafety
import FlanTerminal.Server.WebSocketAuthIndex
import FlanTerminal.Server.WebSocketAuthIndexSafety
import FlanTerminal.Server.WebSocketConnection
import FlanTerminal.Server.WebSocketConnectionSafety
import FlanTerminal.Shared.SafeString
import FlanTerminal.Shared.TabDocument
import FlanTerminal.Foundation.Triple
import FlanTerminal.Server.TabStore
import FlanTerminal.Server.SessionManager
import FlanTerminal.Server.SessionManagerRules
import FlanTerminal.Server.SessionManagerSafety
import FlanTerminal.Server.SessionManagerOutcomes
import FlanTerminal.Server.SessionManagerResults
import FlanTerminal.Server.SessionManagerHistory
import FlanTerminal.Server.SessionManagerChanges
import FlanTerminal.Client.UseTabs
import FlanTerminal.Client.UseTabsSafety
import FlanTerminal.Client.UseTabsMirror
import FlanTerminal.Foundation.Generations
import FlanTerminal.Server.CleanupGenerations
import FlanTerminal.Server.TrustedHeaderAuth
import FlanTerminal.Server.TrustedHeaderSafety
import FlanTerminal.Server.TrustedProxies
import FlanTerminal.Foundation.Schema
import FlanTerminal.Shared.Settings
import FlanTerminal.Shared.SettingsAgreement
import FlanTerminal.Server.SettingsRoutes
import FlanTerminal.Foundation.Lift
import FlanTerminal.Server.WebSocketRevocation
import FlanTerminal.Server.WebSocketRevocationInvariant
import FlanTerminal.Server.WebSocketRevocationRules
import FlanTerminal.Server.WebSocketRevocationSafety
import FlanTerminal.Server.AuthAdmission
import FlanTerminal.Server.AuthAdmissionSafety
import FlanTerminal.Foundation.Lines
import FlanTerminal.Server.Tmux
import FlanTerminal.Server.SessionCookie
import FlanTerminal.Server.KeyedMutex
import FlanTerminal.Server.KeyedMutexSafety
import FlanTerminal.Server.ProbeGate
import FlanTerminal.Server.ProbeGateSafety
import FlanTerminal.Server.StaleSessionCleaner
import FlanTerminal.Server.StaleSessionCleanerSafety
import FlanTerminal.Client.UseTerminalSocket
import FlanTerminal.Client.UseTerminalSocketSafety
import FlanTerminal.Client.UseTerminalSocketClosures
import FlanTerminal.Server.ServerLifecycle
import FlanTerminal.Server.ServerLifecycleSafety
import FlanTerminal.Shared.TabDocumentText
import FlanTerminal.Server.TabStoreFile
import FlanTerminal.Server.TabStoreRules
import FlanTerminal.Server.TabStoreCommits
import FlanTerminal.Server.TabStoreSafety
import FlanTerminal.Foundation.Alone
import FlanTerminal.Foundation.Blocks
import FlanTerminal.Server.TabStoreReading
import FlanTerminal.Server.TabStoreHistory
import FlanTerminal.Server.TabStoreResults
import FlanTerminal.Server.TabStoreRevisions
import FlanTerminal.Server.PreflightJson
import FlanTerminal.Server.PreflightJsonSafety
import FlanTerminal.Server.PreflightJsonWalk
import FlanTerminal.Server.PreflightJsonResults
import FlanTerminal.Foundation.PosixPath
import FlanTerminal.Foundation.Solo
import FlanTerminal.Server.SecureJsonFile
import FlanTerminal.Server.SecureJsonFileResults
import FlanTerminal.Server.SecureJsonFileReading

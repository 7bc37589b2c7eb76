import XorcNotifications.Lib.Future
import XorcNotifications.Lib.Executor
import XorcNotifications.Lib.Ledger
import XorcNotifications.Lib.KeyedTable
import XorcNotifications.Lib.Interleaving
import XorcNotifications.Lib.TextSearch
import XorcNotifications.Common.Events
import XorcNotifications.Common.Logger
import XorcNotifications.Common.World
import XorcNotifications.Common.RequestConsumer
import XorcNotifications.Apns2.Notifier
import XorcNotifications.Apns2.Consumer
import XorcNotifications.Fcm.Notifier
import XorcNotifications.Fcm.Consumer
import XorcNotifications.WebPush.Consumer
import XorcNotifications.HttpRequester.Requester
import XorcNotifications.HttpRequester.Consumer
import XorcNotifications.Services
import XorcNotifications.Verified.TenantTables
import XorcNotifications.Verified.Sessions
import XorcNotifications.Verified.HandlerEffects
import XorcNotifications.Verified.Answers
import XorcNotifications.Verified.Shutdown
import XorcNotifications.Verified.Inflight
import XorcNotifications.Verified.ConfigTopic
import XorcNotifications.Verified.TenantIsolation
import XorcNotifications.Verified.TenantGauges
import XorcNotifications.Verified.ApnsPayload
import XorcNotifications.Verified.FcmResults
import XorcNotifications.Verified.HttpEncoding
import XorcNotifications.Verified.ConfigKeys
import XorcNotifications.Verified.HttpExchange
import XorcNotifications.Verified.Counters
import XorcNotifications.Common.System
import XorcNotifications.Verified.SystemShutdown
import XorcNotifications.Lib.ShellWords
import XorcNotifications.Verified.RequestLog
import XorcNotifications.Lib.Emission
import XorcNotifications.Lib.FutureSteps
import XorcNotifications.Verified.Outputs
import XorcNotifications.Verified.ExchangeAutomaton
import XorcNotifications.Verified.Verdicts
import XorcNotifications.Verified.RunningSystem
import XorcNotifications.Verified.Draining
import XorcNotifications.Lib.Compaction
import XorcNotifications.Verified.Replay
import XorcNotifications.Lib.Guards
import XorcNotifications.Lib.Serialization
import XorcNotifications.Common.GuardedHandler
import XorcNotifications.GuardedServices
import XorcNotifications.Verified.GuardedHandlers
import XorcNotifications.Verified.Atomicity
import XorcNotifications.Verified.Fleet
import XorcNotifications.Lib.WriterInvariants
import XorcNotifications.Verified.GuardedGauges
import XorcNotifications.Lib.ConsumerGroups
import XorcNotifications.Processes
import XorcNotifications.Verified.Processes
import XorcNotifications.Lib.Offsets
import XorcNotifications.Verified.Handovers

import Vici2.Runs
import Vici2.GoTime
import Vici2.DropGate
import Vici2.AgentIndex
import Vici2.DropGateAgreement
import Vici2.AgentIndexConsistency
import Vici2.Hopper
import Vici2.HopperExclusivity
import Vici2.GatewaySlots
import Vici2.GatewaySlotsCount
import Vici2.Originate
import Vici2.OriginateSlots
import Vici2.Tcpa
import Vici2.TcpaDecision
import Vici2.TokenBudget
import Vici2.AnswerDelivery
import Vici2.Picker
import Vici2.PickerOrphans
import Vici2.Adapt
import Vici2.FastCut
import Vici2.DncTable
import Vici2.DncCheck
import Vici2.FederalDelta
import Vici2.FederalDeltaOutcome
import Vici2.DncImport
import Vici2.DncCoverage
import Vici2.MerkleTree
import Vici2.Sha256
import Vici2.JsonText
import Vici2.IsoTime
import Vici2.AuditCanonical
import Vici2.AuditAgreement
import Vici2.AuditVerifier
import Vici2.AuditTrigger
import Vici2.AuditRange
import Vici2.AuditTamper
import Vici2.AuditAttest
import Vici2.InboundDispatch
import Vici2.DispatchCycle
import Vici2.RefreshFamilies
import Vici2.Lockout
import Vici2.CallbackLifecycle
import Vici2.CallbackLeads
import Vici2.TcpaMirror
import Vici2.TcpaVerdict
import Vici2.TcpaAgreement
import Vici2.StickyStatuses
import Vici2.JsDate
import Vici2.PartitionRotator
import Vici2.PartitionDrops
import Vici2.PoolPicker
import Vici2.PoolCaps
import Vici2.EslRouter
import Vici2.EslRouterHealth
import Vici2.Rebalancer
import Vici2.SupervisorMonitor
import Vici2.SupervisorAudio
import Vici2.Reconcile
import Vici2.Recording
import Vici2.LeaderLock
import Vici2.TzResolver
import Vici2.TzCascade
import Vici2.TzAgreement
import Vici2.Streams
import Vici2.LeadImport
import Vici2.LeadImportAccounting
import Vici2.LeadImportResume
import Vici2.RecordingLogWriter
import Vici2.RndResults
import Vici2.GateFastCut
import Vici2.OriginateOnce
import Vici2.InboundCallbackFire
import Vici2.QueueMembership
import Vici2.AdaptBounds
import Vici2.MerklePath
import Vici2.AuditMerkle
import Vici2.Delimited
import Vici2.Jcs
import Vici2.AuditInput
import Vici2.TcpaNextOpen
import Vici2.TcpaClosing
import Vici2.TcpaMirrorNextOpen
import Vici2.AdaptSteering
import Vici2.DncScrub
import Vici2.DbWriterInsert
import Vici2.KeyedBatches
import Vici2.ListReset
import Vici2.BatchCopies
import Vici2.ListClone
import Vici2.CursorPaging
import Vici2.CallbackPaging
import Vici2.StatusUpsert
import Vici2.PartitionMonths
import Vici2.PartitionRepeats
import Vici2.PartitionContiguity
import Vici2.FirstStop
import Vici2.OverflowHops
import Vici2.DepthFirst
import Vici2.IvrValidator
import Vici2.IvrDialplan
import Vici2.IvrDispatch
import Vici2.ChannelBlock
import Vici2.CircuitBreaker
import Vici2.BreakerCondition
import Vici2.ReconnectDelay
import Vici2.GatewayCounter
import Vici2.StaleConfs
import Vici2.DropGateRecovery
import Vici2.RndScrub
import Vici2.GateHysteresis
import Vici2.GateDwell
import Vici2.HealthRotation
import Vici2.FirstMax
import Vici2.RendezvousParity
import Vici2.GatewaySelect
import Vici2.Base64
import Vici2.Envelope
import Vici2.EslPasswords
import Vici2.ScriptTokens
import Vici2.Invalidation
import Vici2.PoolCache
import Vici2.SkillCache
import Vici2.OverrideCache
import Vici2.AgentRouting
import Vici2.Caps
import Vici2.Pacing
import Vici2.AdaptPublish
import Vici2.TaperedTarget
import Vici2.FlapDebounce
import Vici2.ManualDispatch
import Vici2.ParseInt
import Vici2.InFlightCodec
import Vici2.OutcomeRetries
import Vici2.RecordingConsent
import Vici2.LocalPresence
import Vici2.CampaignCache
import Vici2.LinkedChain
import Vici2.Lru
import Vici2.ParseLru
import Vici2.ParseCache
import Vici2.Computus
import Vici2.HolidayCalendar
import Vici2.Rbac
import Vici2.RbacMirror
import Vici2.RbacCache
import Vici2.BypassToken
import Vici2.ScriptHistory
import Vici2.KeysetPaging
import Vici2.JsInstant
import Vici2.LeadListing
import Vici2.Csv
import Vici2.ReportCsv
import Vici2.AuditExport
import Vici2.LeadPatch
import Vici2.LeadLock
import Vici2.AccessTokens
import Vici2.OffsetBatches
import Vici2.ListOps
import Vici2.DncMirror

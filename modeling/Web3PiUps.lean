import Web3PiUps.Lib.StepMachine
import Web3PiUps.Lib.Scanner
import Web3PiUps.Lib.WordStream
import Web3PiUps.Lib.LsbBits
import Web3PiUps.Lib.Rlp
import Web3PiUps.Lib.SlotTable
import Web3PiUps.Lib.AscendingPass
import Web3PiUps.Lib.LowestKept
import Web3PiUps.WupsProtocol
import Web3PiUps.WupsFraming
import Web3PiUps.WupsDeframers
import Web3PiUps.WupsTracking
import Web3PiUps.WupsEncoders
import Web3PiUps.WupsStreams
import Web3PiUps.WupsInterop
import Web3PiUps.WupsWholeBuffer
import Web3PiUps.MqttDispatchQueue
import Web3PiUps.MqttQueueScans
import Web3PiUps.MqttQueueMoves
import Web3PiUps.MqttQueueConservation
import Web3PiUps.MqttQueueFairness
import Web3PiUps.MqttQueueOrder
import Web3PiUps.MqttQueueFreshness
import Web3PiUps.ArkivEntity
import Web3PiUps.CmdauthArkiv
import Web3PiUps.ArkivSweep
import Web3PiUps.ArkivListing
import Web3PiUps.ArkivSkips
import Web3PiUps.ArkivAtomicity
import Web3PiUps.CmdauthArkivLife
import Web3PiUps.Cmdauth
import Web3PiUps.ArkivWriterSeq
import Web3PiUps.ArkivWriterJobs
import Web3PiUps.Ch32xPdSource
import Web3PiUps.Ch32xMainLoop
import Web3PiUps.Ch32xPdSteps
import Web3PiUps.Ch32xDetach
import Web3PiUps.Ch32xPowerCommands
import Web3PiUps.Ch32xNegotiation
import Web3PiUps.Ch32xContract
import Web3PiUps.Ch32xDataRole
import Web3PiUps.MqttHealth
import Web3PiUps.MqttHealthProof
import Web3PiUps.MqttHealthSchedule
import Web3PiUps.Lib.CyclicIds
import Web3PiUps.MqttPacketGuard
import Web3PiUps.MqttPacketEpochs
import Web3PiUps.MqttProbeProof
import Web3PiUps.MqttReceipts
import Web3PiUps.MqttReceiptLedger
import Web3PiUps.Ch32xRxRing
import Web3PiUps.Ch32xRxOrder
import Web3PiUps.Lib.Slices
import Web3PiUps.FwSha256
import Web3PiUps.FwUpdate
import Web3PiUps.FwStaging
import Web3PiUps.FwRelay
import Web3PiUps.FwRelayProof
import Web3PiUps.FwRollback
import Web3PiUps.FwRollbackSteps
import Web3PiUps.FwRollbackLaw
import Web3PiUps.FwRollbackRuns
import Web3PiUps.Lib.Tasks
import Web3PiUps.FwOtaTasks
import Web3PiUps.FwOtaHolds
import Web3PiUps.FwOtaAgree
import Web3PiUps.FwOtaExclusion
import Web3PiUps.FwXferReceiver
import Web3PiUps.ModemPpp
import Web3PiUps.ModemRecovery
import Web3PiUps.WupsRouter
import Web3PiUps.ArkivClaim
import Web3PiUps.ModemUplink
import Web3PiUps.ModemEscalation
import Web3PiUps.Lib.JsonText
import Web3PiUps.HttpBody
import Web3PiUps.HttpCommands
import Web3PiUps.HttpAtMostOnce
import Web3PiUps.HttpBodySize
import Web3PiUps.HttpBodyFits
import Web3PiUps.FwOtaHttpPolicy
import Web3PiUps.FwOtaDownload
import Web3PiUps.FwOtaNoSplice
import Web3PiUps.WupsRxWatchdog
import Web3PiUps.ArkivBrotliStore
import Web3PiUps.ArkivAead
import Web3PiUps.WupsDownlinkBounds
import Web3PiUps.MqttPubackOrder
import Web3PiUps.ArkivRlp
import Web3PiUps.ArkivOpsTxData
import Web3PiUps.OledMenu
import Web3PiUps.WupsTrust
import Web3PiUps.WupsTrustProof
import Web3PiUps.ModemLadder
import Web3PiUps.ModemBringup
import Web3PiUps.ModemBringupProof
import Web3PiUps.ArkivWs
import Web3PiUps.Ch32xHusb238
import Web3PiUps.Ch32xPowerEvents
import Web3PiUps.Rp2040TrustUi
import Web3PiUps.ModemRadioPolicy
import Web3PiUps.ModemAtText
import Web3PiUps.Lib.Dialogue
import Web3PiUps.ModemUartBaud
import Web3PiUps.ModemUartBaudProof
import Web3PiUps.ArkivStarvation
import Web3PiUps.ArkivNotify
import Web3PiUps.ArkivNotifyRuns
import Web3PiUps.BackendModeConfirm
import Web3PiUps.BackendModeConfirmProof
import Web3PiUps.Lib.Primality
import Web3PiUps.Lib.ShortCurve
import Web3PiUps.Lib.DeterministicNonce
import Web3PiUps.MicroEcc
import Web3PiUps.ArkivSecp256k1
import Web3PiUps.ArkivSecp256k1Proof
import Web3PiUps.ArkivCandidates
import Web3PiUps.ArkivBalance
import Web3PiUps.ModemUartBaudGrammar
import Web3PiUps.FwOtaHttpHeaders
import Web3PiUps.ModemRegistration
import Web3PiUps.Bip39
import Web3PiUps.ArkivAck
import Web3PiUps.ModemAwakePolicy
import Web3PiUps.FactoryEsp32
import Web3PiUps.FactoryLedgerProof
import Web3PiUps.FactoryLedgerRuns
import Web3PiUps.HttpServer
import Web3PiUps.HttpControlLoopRuns
import Web3PiUps.NetUplinkProof
import Web3PiUps.HttpControlLoopProof
import Web3PiUps.Lib.ChangeHeartbeat
import Web3PiUps.NetUplink
import Web3PiUps.ArkivTelemetry
import Web3PiUps.ArkivTelemetryProof
import Web3PiUps.HttpAuth
import Web3PiUps.HttpAuthProof
import Web3PiUps.Lib.JsonScan
import Web3PiUps.Lib.RecentMemory
import Web3PiUps.ArkivSealKeys
import Web3PiUps.ArkivSealKeysProof
import Web3PiUps.Lib.StampedCache

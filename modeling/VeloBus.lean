import VeloBus.RpcOwnership
import VeloBus.StorePaging
import VeloBus.StoreCheckpoints
import VeloBus.StoreAtomicity
import VeloBus.WalOrder
import VeloBus.StoreLedger
import VeloBus.FetchProgress
import VeloBus.ClientReplies
import VeloBus.RpcWakeup
import VeloBus.RpcReorder
import VeloBus.ClientCorrelation
import VeloBus.LinkCapacity
import VeloBus.ServiceOutcomes
import VeloBus.ClusterAccounts
import VeloBus.HandlerGate
import VeloBus.FrameDecoder
import VeloBus.ClusterBalance
import VeloBus.HandlerErrors
import VeloBus.WireSizes
import VeloBus.RpcRefusals
import VeloBus.WireAnswers
import VeloBus.ClusterConcurrency
import VeloBus.StationAgreement
import VeloBus.LinkCorrelation
import VeloBus.ConnectionResponses
import VeloBus.RpcVerdicts
import VeloBus.CallerModel
import VeloBus.CallerCalls
import VeloBus.CallerOutcomes

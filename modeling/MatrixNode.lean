import MatrixNode.ElectionSeed
import MatrixNode.LeaderSuccession
import MatrixNode.MinerResults
import MatrixNode.StaticCall
import MatrixNode.OneToMany
import MatrixNode.PriceAndNonce
import MatrixNode.ElectorCounts
import MatrixNode.BatchVerification
import MatrixNode.NodeNumbers
import MatrixNode.TxPropagation
import MatrixNode.CalcDifficulty
import MatrixNode.PowSeal
import MatrixNode.BroadcastBlocks
import MatrixNode.AllTopology
import MatrixNode.HdCodec
import MatrixNode.BroadcastAdmission
import MatrixNode.CodeBinding
import MatrixNode.MiningEvidence
import MatrixNode.OnlineVotes
import MatrixNode.TopNodeRecords
import MatrixNode.DepositNodeIds
import MatrixNode.TxReplay
import MatrixNode.PoolFunds
import MatrixNode.LaggingMasters
import MatrixNode.ControllerManager
import MatrixNode.GenBlockCache
import MatrixNode.VoteRetention
import MatrixNode.VerifySequence
import MatrixNode.GasLimit
import MatrixNode.TxCaches
import MatrixNode.ErrorReports
import MatrixNode.LeaderTurns
import MatrixNode.WrittenBlocks
import MatrixNode.Supply
import MatrixNode.TurnDeadlines

import Cuprate.Consensus.Proofs.HardForksProofs
import Cuprate.Storage.Proofs.OutputAgreementProofs
import Cuprate.Consensus.Proofs.AltChainsProofs
import Cuprate.Levin.Proofs.SessionProofs
import Cuprate.Consensus.Proofs.WeightProofs
import Cuprate.Consensus.Proofs.ContextPopProofs
import Cuprate.Consensus.Proofs.DecoyProofs
import Cuprate.Epee.Proofs.UnknownFieldsProofs
import Cuprate.Wire.Proofs.MessageProofs
import Cuprate.Storage.Proofs.PoppedBlocksProofs
import Cuprate.AddressBook.Proofs.AnchorsProofs
import Cuprate.P2P.Proofs.PeerSetProofs
import Cuprate.P2P.Proofs.ConnectionAnswersProofs
import Cuprate.Dandelion.Proofs.PoolManagerProofs
import Cuprate.TxPool.Proofs.RerelayProofs
import Cuprate.TxPool.Proofs.TimeoutsProofs
import Cuprate.FastSync.Proofs.VerifiedBlockProofs
import Cuprate.Consensus.Proofs.MedianTimestampProofs
import Cuprate.Consensus.Proofs.RewardProofs
import Cuprate.Consensus.Proofs.OrderTransactionsProofs
import Cuprate.Consensus.Proofs.TransactionSemanticsProofs
import Cuprate.Consensus.Proofs.RingOffsetsProofs
import Cuprate.Blockchain.Proofs.PreparedBlockProofs
import Cuprate.Storage.Proofs.HistoryRangesProofs
import Cuprate.Storage.Proofs.ExtendedHeaderProofs
import Cuprate.Consensus.Proofs.BatchRandomXProofs
import Cuprate.Storage.Proofs.ChainSearchProofs
import Cuprate.BlockDownloader.Proofs.RequestsProofs
import Cuprate.AsyncBuffer.Proofs.BufferProofs
import Cuprate.Blockchain.Proofs.SyncerProofs
import Cuprate.P2P.Proofs.BroadcastProofs
import Cuprate.Rpc.Proofs.SanityCheckProofs
import Cuprate.P2P.Proofs.BucketProofs
import Cuprate.Rpc.Proofs.JsonRpcProofs
import Cuprate.Consensus.Proofs.VotesProofs
import Cuprate.Wire.Proofs.TransportProofs
import Cuprate.BlockDownloader.Proofs.DownloadBatchProofs

import Hivecoin.Chain.MempoolIndependence
import Hivecoin.Cache.FlushTransparency
import Hivecoin.Chain.UndoRestrictions
import Hivecoin.Storage.StoredOutputs
import Hivecoin.Wallet.NullData
import Hivecoin.Cache.IssuancePosition
import Hivecoin.Chain.FollowsChain
import Hivecoin.Chain.AssetSupply
import Hivecoin.Chain.AssetRecovery
import Hivecoin.Tx.RecordedOwner
import Hivecoin.Chain.StoredBalances
import Hivecoin.Chain.VerifierInForce
import Hivecoin.Rpc.Amounts
import Hivecoin.Wallet.AssetSelection
import Hivecoin.Chain.BlockRejection
import Hivecoin.Chain.MostWork
import Hivecoin.Mempool.Admission
import Hivecoin.Mempool.Conflicts
import Hivecoin.Tx.VerifierMeaning
import Hivecoin.Assets.NameHierarchy
import Hivecoin.Assets.ScriptAmounts
import Hivecoin.Chain.CoinsTransparency
import Hivecoin.Pow.DarkGravityWave
import Hivecoin.Chain.ActiveChain
import Hivecoin.Cache.PendingSets
import Hivecoin.Chain.VersionBits
import Hivecoin.Tx.CreationShape
import Hivecoin.Rewards.SnapshotRequests
import Hivecoin.Rewards.Distribution
import Hivecoin.Storage.AssetDirectory
import Hivecoin.Chain.AddressScan
import Hivecoin.Chain.TransferVerdict
import Hivecoin.Chain.SkipList
import Hivecoin.Storage.RecordFormat

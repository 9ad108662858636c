import Hivecoin.Mempool.Accept

/-!
# Runs of the mempool

Transactions are accepted or removed, blocks are connected, and a start finds the reissues of the last flush.
-/

namespace Hivecoin

namespace CTxMemPool

variable (pool : CTxMemPool)

/-- `ConnectTip` frees the name that a transaction of the block reissues. -/
def releaseMinedReissue (tx : CTransaction) : CTxMemPool :=
  match pool.mapReissuedTx.get? tx.hash with
  | none => pool
  | some name => { pool with mapReissuedAssets := pool.mapReissuedAssets.erase name, mapReissuedTx := pool.mapReissuedTx.erase tx.hash }

/-- The part of `ConnectTip` that concerns the mempool. -/
def connectBlock (E : Env) (S : Store) (view : CoinsView) (vtx : List CTransaction) (data : ConnectedBlockAssetData) : CTxMemPool :=
  (vtx.foldl releaseMinedReissue pool).removeForBlock E S view vtx data

/-- The mempool at a start, with the table of `ReadReissuedMempoolState`. -/
def restart (saved : Table Bytes Uint256) : CTxMemPool :=
  { (∅ : CTxMemPool) with
    mapReissuedAssets := saved
    mapReissuedTx := saved.toList.foldl (fun t entry => t.insertNew entry.2 entry.1) ∅ }

end CTxMemPool

inductive PoolEvent where
  | accept (E : Env) (P : MempoolPolicy) (O : AcceptOptions) (tip : TipState) (tx : CTransaction)
  /-- `removeUnchecked`, and the sets that `Expire`, `TrimToSize` and `removeForReorg` remove -/
  | removeStaged (stage : List Uint256)
  | removeRecursive (tx : CTransaction)
  | removeConflicts (tx : CTransaction)
  | removeForBlock (E : Env) (S : Store) (view : CoinsView) (vtx : List CTransaction) (data : CTxMemPool.ConnectedBlockAssetData)
  | connectBlock (E : Env) (S : Store) (view : CoinsView) (vtx : List CTransaction) (data : CTxMemPool.ConnectedBlockAssetData)
  | clear
  | restart (saved : Table Bytes Uint256)

def PoolEvent.apply (pool : CTxMemPool) : PoolEvent → CTxMemPool
  | accept E P O tip tx => (pool.acceptToMemoryPoolWorker E P O tip tx).2
  | removeStaged stage => pool.removeStaged stage
  | removeRecursive tx => pool.removeRecursive tx
  | removeConflicts tx => pool.removeConflicts tx
  | removeForBlock E S view vtx data => pool.removeForBlock E S view vtx data
  | connectBlock E S view vtx data => pool.connectBlock E S view vtx data
  | clear => pool.clear
  | restart saved => CTxMemPool.restart saved

/-- The pools that are reached by events that are allowed where they happen. -/
inductive PoolRun (allowed : CTxMemPool → PoolEvent → Prop) : CTxMemPool → Prop
  | empty : PoolRun allowed ∅
  | step {pool e} : PoolRun allowed pool → allowed pool e → PoolRun allowed (e.apply pool)

end Hivecoin

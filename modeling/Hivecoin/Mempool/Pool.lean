import Hivecoin.Base.TwoWay
import Hivecoin.Base.Worklist
import Hivecoin.Chain.AddressIndex

/-!
# The mempool

`CTxMemPool` of `txmempool.cpp` with its asset maps. `mapNextTx` and `mapLinks` are read off the transactions.
-/

namespace Hivecoin

open CAssetsCache

structure CTxMemPoolEntry where
  tx : CTransaction
  spendsCoinbase : Bool

structure CMempoolAddressDeltaKey where
  type : Nat
  addressBytes : Bytes
  asset : Bytes
  txhash : Uint256
  index : Nat
  spending : Bool
deriving DecidableEq

structure CMempoolAddressDelta where
  amount : CAmount
  prevout : Option COutPoint

structure CTxMemPool where
  mapTx : List CTxMemPoolEntry
  vTxHashes : List Uint256
  mapAddress : Table CMempoolAddressDeltaKey CMempoolAddressDelta
  mapAddressInserted : Table Uint256 (List CMempoolAddressDeltaKey)
  mapSpent : Table COutPoint CSpentIndexValue
  mapSpentInserted : Table Uint256 (List COutPoint)
  mapReissuedAssets : Table Bytes Uint256
  mapReissuedTx : Table Uint256 Bytes
  mapAssetToHash : Table Bytes Uint256
  mapHashToAsset : Table Uint256 Bytes
  /-- each of the following is a map to sets of hashes with the map back -/
  addressesMarkedFrozen : TwoWay (Bytes × Bytes) Uint256
  assetMarkedGlobalFrozen : TwoWay Bytes Uint256
  addressesQualifiersChanged : TwoWay Bytes Uint256
  assetVerifierChanged : TwoWay Bytes Uint256
  globalFreezing : TwoWay Bytes Uint256
  globalUnFreezing : TwoWay Bytes Uint256
  addressAddedTag : TwoWay (Bytes × Bytes) Uint256
  addressRemoveTag : TwoWay (Bytes × Bytes) Uint256

namespace CTxMemPool

instance : EmptyCollection CTxMemPool := ⟨⟨[], [], ∅, ∅, ∅, ∅, ∅, ∅, ∅, ∅, ∅, ∅, ∅, ∅, ∅, ∅, ∅, ∅⟩⟩

variable (pool : CTxMemPool)

def txs : List CTransaction := pool.mapTx.map CTxMemPoolEntry.tx

variable (hash : Uint256)

def get : Option CTransaction := pool.txs.find? fun tx => tx.hash == hash

def contains : Bool := (pool.get hash).isSome

/-- `mapNextTx` -/
def nextTx (out : COutPoint) : Option CTransaction := pool.txs.find? fun tx => tx.vin.any fun txin => txin.prevout == out

/-- `GetMemPoolChildren` -/
def children : List Uint256 :=
  (pool.txs.filter fun tx => tx.vin.any fun txin => txin.prevout.hash == hash).map CTransaction.hash

/-- `GetMemPoolParents` -/
def parents : List Uint256 :=
  match pool.get hash with
  | none => []
  | some tx => (tx.vin.map fun txin => txin.prevout.hash).filter pool.contains

def maps : MempoolMaps := ⟨pool.mapAssetToHash, pool.mapReissuedAssets⟩

def MEMPOOL_HEIGHT : Nat := 0x7FFFFFFF

/-- `CCoinsViewMemPool` -/
def coins (base : CoinsView) : CoinsView := fun out =>
  match pool.get out.hash with
  | some tx => tx.vout[out.n]?.map fun txout => ⟨txout, MEMPOOL_HEIGHT, false⟩
  | none => base out

end CTxMemPool

namespace Env

variable (E : Env)

def spentAddress (out : CTxOut) : Nat × Bytes :=
  let script := out.scriptPubKey
  if Script.isPayToScriptHash script then (2, (script.drop 2).take 20)
  else if Script.isPayToPublicKeyHash script then (1, (script.drop 3).take 20)
  else if Script.isPayToPublicKey script then (1, E.hash160 (script.tail.dropLast))
  else (0, List.replicate 20 0)

def addressDeltas (view : CoinsView) (tx : CTransaction) : List (CMempoolAddressDeltaKey × CMempoolAddressDelta) :=
  (tx.vin.zipIdx.filterMap fun (txin, j) => (E.addressOfOut (accessOut view txin.prevout)).map fun (type, address, asset, amount) =>
    (⟨type, address, asset, tx.hash, j, true⟩, ⟨-amount, some txin.prevout⟩)) ++
  tx.vout.zipIdx.filterMap fun (out, k) => (E.addressOfOut out).map fun (type, address, asset, amount) =>
    (⟨type, address, asset, tx.hash, k, false⟩, ⟨amount, none⟩)

def spentEntries (view : CoinsView) (tx : CTransaction) : List (COutPoint × CSpentIndexValue) :=
  tx.vin.zipIdx.map fun (txin, j) =>
    let prevout := accessOut view txin.prevout
    let (addressType, addressHash) := E.spentAddress prevout
    (txin.prevout, ⟨tx.hash, j, -1, prevout.nValue, addressType, addressHash⟩)

end Env

namespace CTxMemPool

variable (pool : CTxMemPool)

def addAddressIndex (E : Env) (view : CoinsView) (tx : CTransaction) : CTxMemPool :=
  let deltas := E.addressDeltas view tx
  { pool with
    mapAddress := deltas.foldl (fun t e => t.insertNew e.1 e.2) pool.mapAddress
    mapAddressInserted := pool.mapAddressInserted.insertNew tx.hash (deltas.map Prod.fst) }

variable (hash : Uint256)

def removeAddressIndex : CTxMemPool :=
  { pool with
    mapAddress := (pool.mapAddressInserted.getD hash []).foldl Table.erase pool.mapAddress
    mapAddressInserted := pool.mapAddressInserted.erase hash }

def addSpentIndex (E : Env) (view : CoinsView) (tx : CTransaction) : CTxMemPool :=
  let entries := E.spentEntries view tx
  { pool with
    mapSpent := entries.foldl (fun t e => t.insertNew e.1 e.2) pool.mapSpent
    mapSpentInserted := pool.mapSpentInserted.insertNew tx.hash (entries.map Prod.fst) }

def removeSpentIndex : CTxMemPool :=
  { pool with
    mapSpent := (pool.mapSpentInserted.getD hash []).foldl Table.erase pool.mapSpent
    mapSpentInserted := pool.mapSpentInserted.erase hash }

/-! ## Adding and removing transactions -/

def addUnchecked (entry : CTxMemPoolEntry) : CTxMemPool :=
  { pool with mapTx := pool.mapTx ++ [entry], vTxHashes := pool.vTxHashes ++ [entry.tx.hash] }

def releaseReissue : CTxMemPool :=
  match pool.mapReissuedTx.get? hash with
  | none => pool
  | some name =>
    if pool.mapReissuedAssets.contains name then
      { pool with mapReissuedAssets := pool.mapReissuedAssets.erase name, mapReissuedTx := pool.mapReissuedTx.erase hash }
    else pool

def releaseAsset : CTxMemPool :=
  match pool.mapHashToAsset.get? hash with
  | none => pool
  | some name => { pool with mapAssetToHash := pool.mapAssetToHash.erase name, mapHashToAsset := pool.mapHashToAsset.erase hash }

/-- The maps of restricted assets; the way back to the tags stays. -/
def releaseRestricted : CTxMemPool :=
  { pool with
    addressesMarkedFrozen := (pool.addressesMarkedFrozen.leaveAll hash).forget hash
    assetMarkedGlobalFrozen := (pool.assetMarkedGlobalFrozen.leaveAll hash).forget hash
    addressesQualifiersChanged := (pool.addressesQualifiersChanged.leaveAll hash).forget hash
    assetVerifierChanged := (pool.assetVerifierChanged.leaveAll hash).forget hash
    globalFreezing := (pool.globalFreezing.vacateAll hash).forget hash
    globalUnFreezing := (pool.globalUnFreezing.vacateAll hash).forget hash
    addressAddedTag := pool.addressAddedTag.vacateAll hash
    addressRemoveTag := pool.addressRemoveTag.vacateAll hash }

def eraseTx : CTxMemPool :=
  { pool with
    mapTx := pool.mapTx.filter fun entry => !(entry.tx.hash == hash)
    vTxHashes := if pool.vTxHashes.length > 1 then pool.vTxHashes.erase hash else [] }

def removeUnchecked : CTxMemPool :=
  (((((pool.eraseTx hash).removeAddressIndex hash).removeSpentIndex hash).releaseReissue hash).releaseAsset hash).releaseRestricted hash

def removeStaged (stage : List Uint256) : CTxMemPool := stage.foldl removeUnchecked pool

/-- `CalculateDescendants` of several transactions into one set. -/
def calculateDescendants (seeds : List Uint256) : List Uint256 := Worklist.collectAll pool.children pool.mapTx.length seeds

def removalSeeds (origTx : CTransaction) : List Uint256 :=
  if pool.contains origTx.hash then [origTx.hash]
  else ((List.range origTx.vout.length).filterMap fun i => pool.nextTx ⟨origTx.hash, i⟩).map CTransaction.hash

def removeRecursive (origTx : CTransaction) : CTxMemPool := pool.removeStaged (pool.calculateDescendants (pool.removalSeeds origTx))

def removeConflict (tx : CTransaction) (txin : CTxIn) : CTxMemPool :=
  match pool.nextTx txin.prevout with
  | some txConflict => if txConflict.hash ≠ tx.hash then pool.removeRecursive txConflict else pool
  | none => pool

def removeConflicts (tx : CTransaction) : CTxMemPool := tx.vin.foldl (fun pool txin => pool.removeConflict tx txin) pool

/-- `clear`: the reissue maps are global; `vTxHashes` and indexes stay. -/
def clear : CTxMemPool :=
  { (∅ : CTxMemPool) with
    vTxHashes := pool.vTxHashes
    mapAddress := pool.mapAddress
    mapAddressInserted := pool.mapAddressInserted
    mapSpent := pool.mapSpent
    mapSpentInserted := pool.mapSpentInserted
    mapReissuedAssets := pool.mapReissuedAssets
    mapReissuedTx := pool.mapReissuedTx }

/-- What a block has changed, as `ConnectTip` reads it from its cache. -/
structure ConnectedBlockAssetData where
  newAssetsToAdd : List Bytes
  newVerifiersToAdd : List Bytes
  newQualifiersToAdd : List (Bytes × Bytes)
  newGlobalRestrictionsToAdd : List (Bytes × GlobalRestrictedType)
  newAddressRestrictionsToAdd : List ((Bytes × Bytes) × RestrictedType)

section

variable (E : Env) (S : Store) (view : CoinsView)

/-- `CheckTransaction(tx, state, passets)`: the pointer is `fCheckDuplicateInputs`. -/
def failsCheckTransaction (tx : CTransaction) : Bool := !(E.checkTransaction {} tx).isOk

def failsCheckTxAssets (tx : CTransaction) : Bool := !(checkTxAssets E S S.passets view pool.maps false false tx).isOk

/-- Adds the transactions under some hashes that fail a test to those that go. -/
def condemn (fails : CTransaction → Bool) (trans : List CTransaction) (hashes : List Uint256) : List CTransaction :=
  hashes.foldl (fun trans hash =>
    match pool.get hash with
    | some tx => if !(trans.map CTransaction.hash).contains hash && fails tx then trans ++ [tx] else trans
    | none => trans) trans

/-- What `removeForBlock` removes for the assets that the block has changed. -/
def assetRemovals (data : ConnectedBlockAssetData) : List CTransaction :=
  let trans := (data.newAssetsToAdd.filterMap fun name => (pool.mapAssetToHash.get? name).bind pool.get)
  let trans := data.newVerifiersToAdd.foldl (fun trans name =>
    pool.condemn (failsCheckTransaction E) trans (pool.assetVerifierChanged.under name)) trans
  let trans := data.newQualifiersToAdd.foldl (fun trans (_, address) =>
    pool.condemn (failsCheckTransaction E) trans (pool.addressesQualifiersChanged.under address)) trans
  let trans := data.newGlobalRestrictionsToAdd.foldl (fun trans (name, type) =>
    match type with
    | .GLOBAL_FREEZE =>
      let trans := pool.condemn (failsCheckTransaction E) trans (pool.assetMarkedGlobalFrozen.under name)
      pool.condemn (fun _ => true) trans (pool.globalFreezing.under name)
    | .GLOBAL_UNFREEZE => pool.condemn (fun _ => true) trans (pool.globalUnFreezing.under name)) trans
  data.newAddressRestrictionsToAdd.foldl (fun trans ((name, address), type) =>
    match type with
    | .FREEZE_ADDRESS => pool.condemn (pool.failsCheckTxAssets E S view) trans (pool.addressesMarkedFrozen.under (address, name))
    | .UNFREEZE_ADDRESS => trans) trans

end

/-- One transaction of a block, or one that goes because of it. -/
def removeMined (tx : CTransaction) : CTxMemPool :=
  (if pool.contains tx.hash then pool.removeStaged [tx.hash] else pool).removeConflicts tx

def removeForBlock (E : Env) (S : Store) (view : CoinsView) (vtx : List CTransaction) (data : ConnectedBlockAssetData) : CTxMemPool :=
  let trans := pool.assetRemovals E S view data
  trans.foldl removeMined (vtx.foldl removeMined pool)

end CTxMemPool

end Hivecoin

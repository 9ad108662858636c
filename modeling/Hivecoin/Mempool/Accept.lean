import Hivecoin.Mempool.Pool

/-!
# Accepting a transaction into the mempool

`AcceptToMemoryPoolWorker` of `validation.cpp`; other checks are the parameter `MempoolPolicy`.
-/

namespace Hivecoin

open Outcome CAssetsCache

/-- The rules of the mempool that are not modelled. -/
structure MempoolPolicy where
  /-- witness, standardness and finality -/
  standard : CTransaction → Except Reject Unit
  /-- the conflicting transaction signals that it may be replaced -/
  replaceable : CTransaction → Bool
  sequenceLocks : CTxMemPool → CoinsView → CTransaction → Except Reject Unit
  /-- signature operations, fees and the limits of ancestors -/
  limits : CTxMemPool → CoinsView → CTransaction → CAmount → Except Reject Unit
  /-- the fees of a replacement -/
  replaces : CTxMemPool → CTransaction → List Uint256 → Except Reject Unit
  scripts : CoinsView → CTransaction → Except Reject Unit
  /-- what `LimitMempoolSize` evicts -/
  evicted : CTxMemPool → List Uint256

structure AcceptOptions where
  bypass_limits : Bool
  test_accept : Bool
  fAddressIndex : Bool
  fSpentIndex : Bool

structure TipState where
  coins : CoinsView
  store : Store
  nHeight : Nat

namespace CTxMemPool

variable (E : Env) (P : MempoolPolicy) (O : AcceptOptions) (tip : TipState) (pool : CTxMemPool)

variable (tx : CTransaction) (hash : Uint256)

def setConflicts : List CTransaction := tx.vin.filterMap fun txin => pool.nextTx txin.prevout

/-- The asset checks, with the reissues that are new to the mempool. -/
def checkAssets (view : CoinsView) (tx : CTransaction) : Except Reject (List (Bytes × Uint256)) :=
  if E.areAssetsDeployed then checkTxAssets E tip.store tip.store.passets view pool.maps true false tx
  else do
    require (tx.vout.all fun out => (Script.isAssetScript out.scriptPubKey).isNone) ⟨100, "bad-txns-contained-asset-when-not-active"⟩
    return []

/-- `setAncestors` of a transaction that is not in the pool. -/
def ancestors : List Uint256 :=
  Worklist.collectAll pool.parents pool.mapTx.length ((tx.vin.map fun txin => txin.prevout.hash).filter pool.contains)

def acceptChecks : Except Reject (List (Bytes × Uint256) × List Uint256) := do
  E.checkTransaction { fCheckDuplicateInputs := true, fMempoolCheck := true } tx
  require (!tx.isCoinBase) ⟨100, "coinbase"⟩
  P.standard tx
  require (!pool.contains tx.hash) ⟨0, "txn-already-in-mempool"⟩
  require ((pool.setConflicts tx).all P.replaceable) ⟨0, "txn-mempool-conflict"⟩
  let view := pool.coins tip.coins
  -- missing inputs leave the state without a reason
  require (haveInputs view tx) ⟨0, ""⟩
  P.sequenceLocks pool view tx
  let nFees ← checkTxInputs E view (tip.nHeight + 1) tx
  let vReissueAssets ← pool.checkAssets E tip view tx
  P.limits pool view tx nFees
  let conflicts := (pool.setConflicts tx).map CTransaction.hash
  require (!(pool.ancestors tx).any conflicts.contains) ⟨10, "bad-txns-spends-conflicting-tx"⟩
  let allConflicting := pool.calculateDescendants conflicts
  P.replaces pool tx allConflicting
  P.scripts view tx
  return (vReissueAssets, allConflicting)

def recordReissue (entry : Bytes × Uint256) : CTxMemPool :=
  { pool with
    mapReissuedAssets := pool.mapReissuedAssets.insertNew entry.1 entry.2
    mapReissuedTx := pool.mapReissuedTx.insertNew entry.2 entry.1 }

/-- An asset output: an issued name, and transfers that changes of marks can invalidate. -/
def recordAssetOutput (data : CAssetOutputEntry) : CTxMemPool :=
  let pool1 := if data.type = .TX_NEW_ASSET ∧ ¬ isAssetNameAnOwner data.assetName then
      { pool with
        mapAssetToHash := pool.mapAssetToHash.insert data.assetName hash
        mapHashToAsset := pool.mapHashToAsset.insert hash data.assetName }
    else pool
  if E.areRestrictedAssetsDeployed && isAssetNameAnRestricted data.assetName then
    { pool1 with
      addressesQualifiersChanged := pool1.addressesQualifiersChanged.track (E.encodeDestination data.destination) hash
      assetVerifierChanged := pool1.assetVerifierChanged.track data.assetName hash }
  else pool1

/-- A change that only one transaction of the mempool may make. -/
def recordGlobalFreeze (name : Bytes) : Except Reject CTxMemPool := do
  require (!pool.globalFreezing.contains name) ⟨0, "bad-txns-global-freeze-already-in-mempool"⟩
  return { pool with globalFreezing := pool.globalFreezing.track name hash }

def recordGlobalUnfreeze (name : Bytes) : Except Reject CTxMemPool := do
  require (!pool.globalUnFreezing.contains name) ⟨0, "bad-txns-global-unfreeze-already-in-mempool"⟩
  return { pool with globalUnFreezing := pool.globalUnFreezing.track name hash }

def recordAddedTag (tag : Bytes × Bytes) : Except Reject CTxMemPool := do
  require (!pool.addressAddedTag.contains tag) ⟨0, "bad-txns-adding-tag-already-in-mempool"⟩
  return { pool with addressAddedTag := pool.addressAddedTag.track tag hash }

def recordRemovedTag (tag : Bytes × Bytes) : Except Reject CTxMemPool := do
  require (!pool.addressRemoveTag.contains tag) ⟨0, "bad-txns-remove-tag-already-in-mempool"⟩
  return { pool with addressRemoveTag := pool.addressRemoveTag.track tag hash }

def recordOutput (out : CTxOut) : Except Reject CTxMemPool :=
  if (Script.isAssetScript out.scriptPubKey).isSome then
    match E.getAssetData out.scriptPubKey with
    | none => return pool
    | some data => return pool.recordAssetOutput E hash data
  else if Script.isNullGlobalRestrictionAssetTxDataScript out.scriptPubKey then
    match globalAssetNullDataFromScript out.scriptPubKey with
    | none => return pool
    | some data =>
      if data.flag = 1 then pool.recordGlobalFreeze hash data.asset_name
      else if data.flag = 0 then pool.recordGlobalUnfreeze hash data.asset_name
      else return pool
  else if Script.isNullAssetTxDataScript out.scriptPubKey then
    match E.assetNullDataFromScript out.scriptPubKey with
    | none => return pool
    | some (data, address) =>
      if isAssetNameAQualifier data.asset_name then
        if data.flag = 1 then pool.recordAddedTag hash (address, data.asset_name)
        else pool.recordRemovedTag hash (address, data.asset_name)
      else return pool
  else return pool

/-- The loop over the outputs; left early, those before have been recorded. -/
def recordOutputs (hash : Uint256) : List CTxOut → CTxMemPool → Except Reject Unit × CTxMemPool
  | [], pool => (.ok (), pool)
  | out :: outs, pool =>
    match pool.recordOutput E hash out with
    | .error e => (.error e, pool)
    | .ok pool' => recordOutputs hash outs pool'

/-- An input: restricted coins of the tip, which a freeze can invalidate. -/
def recordInput (txin : CTxIn) : CTxMemPool :=
  match (tip.coins txin.prevout).bind fun coin => E.getAssetData coin.out.scriptPubKey with
  | none => pool
  | some data =>
    if isAssetNameAnRestricted data.assetName then
      { pool with
        assetMarkedGlobalFrozen := pool.assetMarkedGlobalFrozen.track data.assetName hash
        addressesMarkedFrozen := pool.addressesMarkedFrozen.track (E.encodeDestination data.destination, data.assetName) hash }
    else pool

def recordInputs : CTxMemPool :=
  if E.areRestrictedAssetsDeployed then tx.vin.foldl (fun pool txin => pool.recordInput E tip tx.hash txin) pool else pool

/-- The pool with the transaction, after the replaced ones have gone. -/
def storeTx (allConflicting : List Uint256) (tx : CTransaction) : CTxMemPool :=
  let view := pool.coins tip.coins
  let fSpendsCoinbase := tx.vin.any fun txin => (view txin.prevout).any fun coin => coin.fCoinBase
  let pool := (pool.removeStaged allConflicting).addUnchecked ⟨tx, fSpendsCoinbase⟩
  let pool := if O.fAddressIndex then pool.addAddressIndex E view tx else pool
  if O.fSpentIndex then pool.addSpentIndex E view tx else pool

def limitSize : CTxMemPool := if O.bypass_limits then pool else pool.removeStaged (P.evicted pool)

def recordTx (vReissueAssets : List (Bytes × Uint256)) (tx : CTransaction) : Except Reject Unit × CTxMemPool :=
  let pool := vReissueAssets.foldl recordReissue pool
  let (result, pool) := if E.areAssetsDeployed then recordOutputs E tx.hash tx.vout pool else (.ok (), pool)
  match result with
  | .error e => (.error e, pool)
  | .ok () => (.ok (), pool.recordInputs E tip tx)

def acceptToMemoryPoolWorker : Except Reject Unit × CTxMemPool :=
  match pool.acceptChecks E P tip tx with
  | .error e => (.error e, pool)
  | .ok (vReissueAssets, allConflicting) =>
    if O.test_accept then (.ok (), pool)
    else
      let stored := (pool.storeTx E O tip allConflicting tx).limitSize P O
      if stored.contains tx.hash then stored.recordTx E tip vReissueAssets tx
      else (.error ⟨0, "mempool full"⟩, stored)

end CTxMemPool

namespace Regtest

def lenientPolicy : MempoolPolicy where
  standard _ := .ok ()
  replaceable _ := false
  sequenceLocks _ _ _ := .ok ()
  limits _ _ _ _ := .ok ()
  replaces _ _ _ := .ok ()
  scripts _ _ := .ok ()
  evicted _ := []

def plainAccept : AcceptOptions := ⟨false, false, false, false⟩

def goldTip : TipState := ⟨ownerView, goldStore, 10⟩

end Regtest

end Hivecoin

import Hivecoin.Cache.Flush
import Hivecoin.Chain.Coins

/-!
# Connecting and disconnecting blocks

`ConnectBlock`, `DisconnectBlock` and the tip functions of `validation.cpp`. Other rules of a block are the parameter `Rules`.
-/

namespace Hivecoin

open Outcome CAssetsCache

structure CBlock where
  vtx : List CTransaction
  hash : Uint256
  nHeight : Nat

/-- The block rules that are not modelled. -/
structure Rules where
  block : CBlock → Bool
  tx : CoinsView → CTransaction → Nat → Bool
  reward : CBlock → CAmount → Bool

/-- `CBlockUndo` with the asset undo data of the block. -/
structure CBlockUndo where
  vtxundo : List (List Coin)
  vUndoAssetData : List (Bytes × CBlockAssetUndo)

section

variable (E : Env) (S : Store) (R : Rules)

def checkBlock (block : CBlock) : Except Reject Unit := do
  require (R.block block) ⟨100, "bad-block"⟩
  require (match block.vtx with | tx :: _ => tx.isCoinBase | [] => false) ⟨100, "bad-cb-missing"⟩
  require (block.vtx.tail.all fun tx => !tx.isCoinBase) ⟨100, "bad-cb-multiple"⟩
  block.vtx.forM (E.checkTransaction { fCheckDuplicateInputs := true, fMempoolCheck := false,
                                       fBlockCheck := true })

def COINBASE_MATURITY : Nat := 100

variable (mempool : MempoolMaps) (view : CoinsView)

def addInputValue (nSpendHeight : Nat) (nValueIn : CAmount) (txin : CTxIn) : Except Reject CAmount :=
  match view txin.prevout with
  | none => .ok nValueIn
  | some coin => do
      require (!coin.fCoinBase || coin.nHeight + COINBASE_MATURITY ≤ nSpendHeight)
        ⟨0, "bad-txns-premature-spend-of-coinbase"⟩
      require (moneyRange coin.out.nValue && moneyRange (nValueIn + coin.out.nValue))
        ⟨100, "bad-txns-inputvalues-outofrange"⟩
      return nValueIn + coin.out.nValue

/-- `GetValueOut`, which throws where a value is out of range. -/
def getValueOut (tx : CTransaction) : Except Reject CAmount :=
  tx.vout.foldlM (fun nValueOut out =>
    if !E.areEnforcedValuesDeployed && (Script.isAssetScript out.scriptPubKey).isSome then
      .ok nValueOut
    else do
      require (moneyRange out.nValue && moneyRange (nValueOut + out.nValue))
        ⟨0, "GetValueOut: value out of range"⟩
      return nValueOut + out.nValue) 0

/-- `Consensus::CheckTxInputs`, with the fee. -/
def checkTxInputs (nSpendHeight : Nat) (tx : CTransaction) : Except Reject CAmount := do
  require (haveInputs view tx) ⟨100, "bad-txns-inputs-missingorspent"⟩
  let nValueIn ← tx.vin.foldlM (addInputValue view nSpendHeight) 0
  let value_out ← getValueOut E tx
  require (value_out ≤ nValueIn) ⟨100, "bad-txns-in-belowout"⟩
  require (moneyRange (nValueIn - value_out)) ⟨100, "bad-txns-fee-out-of-range"⟩
  return nValueIn - value_out

structure ConnectState where
  view : CoinsView
  assets : CAssetsCache
  nFees : CAmount
  undo : CBlockUndo

def connectChecks (nHeight : Nat) (st : ConnectState) (tx : CTransaction) :
    Except Reject CAmount := do
  let txfee ← checkTxInputs E st.view nHeight tx
  require (moneyRange (st.nFees + txfee)) ⟨100, "bad-txns-accumulated-fee-outofrange"⟩
  if E.areAssetsDeployed then
    let _ ← checkTxAssets E S st.assets st.view mempool false false tx
    return st.nFees + txfee
  else
    tx.vout.forM fun out => do
      require (Script.isAssetScript out.scriptPubKey).isNone ⟨100, "bad-txns-assets-not-active"⟩
      require (!Script.isNullAsset out.scriptPubKey) ⟨100, "bad-txns-null-data-assets-not-active"⟩
    return st.nFees + txfee

def connectTx (block : CBlock) (st : ConnectState) (tx : CTransaction) :
    Except Reject ConnectState := do
  let nFees ← if tx.isCoinBase then .ok st.nFees else connectChecks E S mempool block.nHeight st tx
  require (R.tx st.view tx block.nHeight) ⟨100, "bad-tx"⟩
  let r ← orError (updateCoins E S st.view st.assets tx block.nHeight block.hash) ⟨0, "assert(is_spent)"⟩
  return {
    view := r.view
    assets := r.assets
    nFees
    undo := ⟨if tx.isCoinBase then st.undo.vtxundo else st.undo.vtxundo ++ [r.vprevout],
      st.undo.vUndoAssetData ++ r.undoAssetData.toList⟩ }

/-- The loop of `ConnectBlock` over the transactions, from an empty asset cache. -/
def connectTxs (assets : CAssetsCache) (block : CBlock) : Except Reject ConnectState :=
  block.vtx.foldlM (connectTx E S R mempool block) ⟨view, assets, 0, ⟨[], []⟩⟩

def connectBlock (assets : CAssetsCache) (block : CBlock) :
    Except Reject ConnectState := do
  checkBlock E R block
  let st ← connectTxs E S R mempool view assets block
  require (R.reward block st.nFees) ⟨100, "bad-cb-amount"⟩
  return st

inductive DisconnectResult where
  | DISCONNECT_OK | DISCONNECT_UNCLEAN | DISCONNECT_FAILED
deriving DecidableEq, Repr

/-- `tempCache` is the copy that the spending of outputs changes. -/
structure DisconnectState where
  view : CoinsView
  assets : CAssetsCache
  tempCache : CAssetsCache
  fClean : Bool

/-- The coin that comes back; old undo data takes height and flag from another output. -/
def restoredCoin (undo : Coin) (out : COutPoint) : Option Coin :=
  if undo.nHeight = 0 then (view.accessByTxid out.hash).map fun alternate =>
    { undo with nHeight := alternate.nHeight, fCoinBase := alternate.fCoinBase }
  else some undo

/-- `ApplyTxInUndo`; `none` is `DISCONNECT_FAILED`. -/
def applyTxInUndo (st : DisconnectState) (undo : Coin) (out : COutPoint) : Option DisconnectState :=
  (restoredCoin st.view undo out).map fun coin =>
    let clean := st.fClean && (st.view out).isNone
    let view := st.view.addCoin out coin
    if E.areAssetsDeployed && (Script.isAssetScript undo.out.scriptPubKey).isSome then
      match undoAssetCoin E S st.assets undo with
      | some assets => { st with view, assets, fClean := clean }
      | none => { st with view, fClean := false }
    else { st with view, fClean := clean }

/-- Takes one output of a transaction back out of the view. -/
def removeOutCoin (tx : CTransaction) (nHeight : Nat) (st : DisconnectState) (out : CTxOut × Nat) :
    DisconnectState :=
  if isUnspendable out.1.scriptPubKey then st
  else
    let r := spendCoin E S st.view st.tempCache ⟨tx.hash, out.2⟩
    let matches_ := r.is_spent && r.coin == some ⟨out.1, nHeight, tx.isCoinBase⟩
    { st with view := r.view, tempCache := r.assets, fClean := st.fClean && matches_ }

def restoreInputs (st : DisconnectState) (tx : CTransaction) (vprevout : List Coin) : Option DisconnectState :=
  if vprevout.length ≠ tx.vin.length then none
  else (tx.vin.zip vprevout).reverse.foldlM (fun st p => applyTxInUndo E S st p.2 p.1.prevout) st

/-- One transaction of the loop; the coinbase comes without undo data. -/
def disconnectTx (nHeight : Nat) (vUndo : List (Bytes × CBlockAssetUndo)) (st : DisconnectState)
    (entry : CTransaction × Option (List Coin)) : Option DisconnectState := do
  let (tx, txundo) := entry
  let st := tx.vout.zipIdx.foldl (removeOutCoin E S tx nHeight) st
  let assets ← removeAssets E S st.assets tx vUndo
  let st := { st with assets }
  match txundo with
  | some vprevout => restoreInputs E S st tx vprevout
  | none => some st

def disconnectBlock (assets : CAssetsCache) (block : CBlock) (undo : CBlockUndo) :
    DisconnectResult × CoinsView × CAssetsCache :=
  if undo.vtxundo.length + 1 ≠ block.vtx.length then (.DISCONNECT_FAILED, view, assets)
  else
    let entries := block.vtx.zip (none :: undo.vtxundo.map some)
    match entries.reverse.foldlM (disconnectTx E S block.nHeight undo.vUndoAssetData)
        ⟨view, assets, assets, true⟩ with
    | some st => (if st.fClean then .DISCONNECT_OK else .DISCONNECT_UNCLEAN, st.view, st.assets)
    | none => (.DISCONNECT_FAILED, view, assets)

structure ChainState where
  coins : CoinsView
  store : Store

/-- `ConnectTip`: a block over an empty asset cache, which is then flushed. -/
def connectTip (st : ChainState) (block : CBlock) :
    Except Reject (ChainState × CBlockUndo) := do
  let r ← connectBlock E st.store R mempool st.coins ∅ block
  return (⟨r.view, st.store.flush r.assets⟩, r.undo)

/-- `DisconnectTip`; `none` unless the block is rolled back cleanly. -/
def disconnectTip (st : ChainState) (block : CBlock) (undo : CBlockUndo) : Option ChainState :=
  match disconnectBlock E st.store st.coins ∅ block undo with
  | (.DISCONNECT_OK, view, assets) => some ⟨view, st.store.flush assets⟩
  | _ => none

end

def Rules.none : Rules := ⟨fun _ => true, fun _ _ _ => true, fun _ _ => true⟩

def Regtest.coinbase : CTransaction :=
  ⟨[⟨⟨0, 4294967295⟩, [1, 1]⟩], [⟨0, scriptForKeyID Regtest.bob⟩], 100⟩

end Hivecoin

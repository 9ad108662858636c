import Mathlib.Logic.Function.Basic
import Hivecoin.Tx.CheckAssets

/-!
# Coins and the asset effects of transactions

`AddCoins`, `UpdateCoins` and the undoing of asset effects in `DisconnectBlock`.
-/

namespace Hivecoin

open CAssetsCache CNullAssetTxData Script CNewAsset

namespace CoinsView

/-- `AddCoin`: outputs that cannot be spent are left out. -/
def addCoin (view : CoinsView) (out : COutPoint) (coin : Coin) : CoinsView :=
  if isUnspendable coin.out.scriptPubKey then view else Function.update view out (some coin)

def remove (view : CoinsView) (out : COutPoint) : CoinsView := Function.update view out none

/-- `AccessByTxid`: the first unspent output of a transaction. -/
def accessByTxid (view : CoinsView) (txid : Uint256) : Option Coin :=
  (List.range (Env.MAX_BLOCK_WEIGHT_HIP2 / (Env.WITNESS_SCALE_FACTOR * 9))).findSome? fun n => view ⟨txid, n⟩

end CoinsView

/-- What `SpendCoin` leaves: whether it returned true, the coin, view and cache. -/
structure SpendResult where
  is_spent : Bool
  coin : Option Coin
  view : CoinsView
  assets : CAssetsCache

section

variable (E : Env) (S : Store) (view : CoinsView) (c : CAssetsCache) (tx : CTransaction)

def spendCoin (out : COutPoint) : SpendResult :=
  match view out with
  | none => ⟨false, none, view, c⟩
  | some coin =>
    if E.areAssetsDeployed then
      match trySpendCoin E S c coin.out with
      | some c' => ⟨true, some coin, view.remove out, c'⟩
      | none => ⟨false, some coin, view.remove out, c⟩
    else ⟨true, some coin, view.remove out, c⟩

/-! ## Adding a transaction -/

/-- The default values of the records, as their constructors set them. -/
def CNewAsset.null : CNewAsset := ⟨[], 0, MAX_UNIT, 0, 0, []⟩
def CReissueAsset.null : CReissueAsset := ⟨[], 0, 0, 1, []⟩
def CNullAssetTxData.null : CNullAssetTxData := ⟨[], -1⟩

/-- `AddNewAsset` where a failure is only logged. -/
def issueAsset (issue : Option (CNewAsset × Bytes)) (nHeight : Nat)
    (blockHash : Uint256) : CAssetsCache :=
  let (asset, address) := issue.getD (null, [])
  (addNewAsset E S c asset address nHeight blockHash).getD c

/-- The first verifier output: whether there is one, and its text if it can be read. -/
def firstVerifier : Option (Option Bytes) :=
  (tx.vout.find? fun out => isNullAssetVerifierTxDataScript out.scriptPubKey).map fun out =>
    assetNullVerifierDataFromScript out.scriptPubKey

/-- The new verifier that a reissue of `asset` carries. -/
def reissueVerifier (asset : CNewAsset) (tx : CTransaction) : Option Bytes :=
  if assetTypeOf asset.strName = .RESTRICTED then (firstVerifier tx).join else none

/-- The cache after a reissue, and the undo item where the reissue overwrites something. -/
def addReissueTx : CAssetsCache × Option (Bytes × CBlockAssetUndo) :=
  let (reissue, strAddress) := (E.reissueAssetFromTransaction tx).getD (CReissueAsset.null, [])
  let asset := match getAssetMetaDataIfExists E S c reissue.strName with
    | some data => data.asset
    | none => null
  let c := (addReissueAsset E S c reissue strAddress ⟨tx.hash, tx.vout.length - 1⟩).getD c
  let verifier := reissueVerifier asset tx
  let strOldVerifier := match verifier with
    | some _ => (getAssetVerifierStringIfExists S c asset.strName).getD []
    | none => []
  let c := match verifier with
    | some v => c.addRestrictedVerifier asset.strName v
    | none => c
  let fIPFSChanged := reissue.strIPFSHash != []
  let fUnitsChanged := reissue.nUnits != -1
  (c, if fIPFSChanged || fUnitsChanged || verifier.isSome then
      some (reissue.strName,
        ⟨fIPFSChanged, fUnitsChanged, asset.strIPFSHash, asset.units, verifier.isSome, strOldVerifier⟩)
    else none)

def addUniqueTx (nHeight : Nat) (blockHash : Uint256) : CAssetsCache :=
  tx.vout.foldl (fun c out => if E.isScriptNewUniqueAsset out.scriptPubKey then
    issueAsset E S c (E.assetFromScript out.scriptPubKey) nHeight blockHash else c) c

def addRestrictedTx (nHeight : Nat) (blockHash : Uint256) : CAssetsCache :=
  let issue := E.restrictedAssetFromTransaction tx
  let c := issueAsset E S c issue nHeight blockHash
  match firstVerifier tx with
  | some verifier => c.addRestrictedVerifier (issue.getD (null, [])).1.strName (verifier.getD [])
  | none => c

/-- The part of `AddCoins` that depends on the kind of transaction. -/
def addAssetTx (nHeight : Nat) (blockHash : Uint256) : CAssetsCache × Option (Bytes × CBlockAssetUndo) :=
  if E.isNewAsset tx then
    let (ownerName, ownerAddress) := (E.ownerFromTransaction tx).getD ([], [])
    ((issueAsset E S c (E.assetFromTransaction tx) nHeight blockHash).addOwnerAsset E ownerName ownerAddress,
      none)
  else if Env.isReissueAsset tx then addReissueTx E S c tx
  else if E.isNewUniqueAsset tx then (addUniqueTx E S c tx nHeight blockHash, none)
  else if E.isNewMsgChannelAsset tx then
    (issueAsset E S c (E.msgChannelAssetFromTransaction tx) nHeight blockHash, none)
  else if E.isNewQualifierAsset tx then
    (issueAsset E S c (E.qualifierAssetFromTransaction tx) nHeight blockHash, none)
  else if E.isNewRestrictedAsset tx then (addRestrictedTx E S c tx nHeight blockHash, none)
  else (c, none)

def addTransferOut (script : Bytes) (out : COutPoint) : CAssetsCache :=
  match E.getAssetData script with
  | some data =>
    if data.type = .TX_TRANSFER_ASSET ∧ 0 < data.nAmount then
      let expireTime := if data.message = [] then 0 else data.expireTime
      addTransferAsset E S c ⟨data.assetName, data.nAmount, data.message, expireTime⟩
        (E.encodeDestination data.destination) out
    else c
  | none => c

def qualifierType (flag : Int8) : QualifierType :=
  if flag ≠ 0 then .ADD_QUALIFIER else .REMOVE_QUALIFIER

def restrictedType (flag : Int8) : RestrictedType :=
  if flag ≠ 0 then .FREEZE_ADDRESS else .UNFREEZE_ADDRESS

def globalRestrictedType (flag : Int8) : GlobalRestrictedType :=
  if flag ≠ 0 then .GLOBAL_FREEZE else .GLOBAL_UNFREEZE

def addNullDataOut (script : Bytes) : CAssetsCache :=
  if isNullAssetTxDataScript script then
    let (data, address) := (E.assetNullDataFromScript script).getD (null, [])
    match assetTypeOf data.asset_name with
    | .RESTRICTED => c.addRestrictedAddress data.asset_name address (restrictedType data.flag)
    | .QUALIFIER | .SUB_QUALIFIER => c.addQualifierAddress data.asset_name address (qualifierType data.flag)
    | _ => c
  else if isNullGlobalRestrictionAssetTxDataScript script then
    let data := (globalAssetNullDataFromScript script).getD null
    c.addGlobalRestricted data.asset_name (globalRestrictedType data.flag)
  else c

def addOutAssets (txid : Uint256) (c : CAssetsCache) (out : CTxOut × Nat) : CAssetsCache :=
  addNullDataOut E (addTransferOut E S c out.1.scriptPubKey ⟨txid, out.2⟩) out.1.scriptPubKey

def addAssets (nHeight : Nat) (blockHash : Uint256) : CAssetsCache × Option (Bytes × CBlockAssetUndo) :=
  if E.areAssetsDeployed then
    let (c, undo) := addAssetTx E S c tx nHeight blockHash
    (tx.vout.zipIdx.foldl (addOutAssets E S tx.hash) c, undo)
  else (c, none)

def addOutCoins (nHeight : Nat) : CoinsView :=
  tx.vout.zipIdx.foldl
    (fun view out => view.addCoin ⟨tx.hash, out.2⟩ ⟨out.1, nHeight, tx.isCoinBase⟩) view

structure SpendState where
  view : CoinsView
  assets : CAssetsCache
  vprevout : List Coin

/-- One input; `none` where the source's assertion fails. -/
def spendInput (st : SpendState) (txin : CTxIn) : Option SpendState :=
  let r := spendCoin E S st.view st.assets txin.prevout
  match r.is_spent, r.coin with
  | true, some coin => some ⟨r.view, r.assets, st.vprevout ++ [coin]⟩
  | _, _ => none

def spendInputs : Option SpendState :=
  if tx.isCoinBase then some ⟨view, c, []⟩ else tx.vin.foldlM (spendInput E S) ⟨view, c, []⟩

structure UpdateResult where
  view : CoinsView
  assets : CAssetsCache
  vprevout : List Coin
  undoAssetData : Option (Bytes × CBlockAssetUndo)

def updateCoins (nHeight : Nat)
    (blockHash : Uint256) : Option UpdateResult := do
  let spent ← spendInputs E S view c tx
  let (assets, undo) := addAssets E S spent.assets tx nHeight blockHash
  return ⟨addOutCoins spent.view tx nHeight, assets, spent.vprevout, undo⟩

/-- `RemoveNewAsset` for an asset that the cache still knows. -/
def unissueAsset (issue : Option (CNewAsset × Bytes)) : Option CAssetsCache := do
  let (asset, address) ← issue
  if checkIfAssetExists E S c asset.strName then removeNewAsset E S c asset address else some c

def removeReissueTx (vUndo : List (Bytes × CBlockAssetUndo)) :
    Option CAssetsCache := do
  let (reissue, strAddress) ← E.reissueAssetFromTransaction tx
  if checkIfAssetExists E S c reissue.strName then
    removeReissueAsset E S c reissue strAddress ⟨tx.hash, tx.vout.length - 1⟩ vUndo
  else some c

def removeUniqueTx : Option CAssetsCache :=
  tx.vout.foldlM (fun c out => if E.isScriptNewUniqueAsset out.scriptPubKey then
    unissueAsset E S c (E.assetFromScript out.scriptPubKey) else some c) c

/-- The last verifier output, looked for only once restricted assets are active. -/
def lastVerifierOut : Option CTxOut :=
  if E.areRestrictedAssetsDeployed then
    (tx.vout.filter fun out => isUnspendable out.scriptPubKey &&
      isNullAssetVerifierTxDataScript out.scriptPubKey).getLast?
  else none

def removeRestrictedTx : Option CAssetsCache := do
  let issue := E.restrictedAssetFromTransaction tx
  let c ← unissueAsset E S c issue
  let (asset, _) ← issue
  let out ← lastVerifierOut E tx
  let verifier ← assetNullVerifierDataFromScript out.scriptPubKey
  return c.removeRestrictedVerifier asset.strName verifier false

/-- The part of `DisconnectBlock` that depends on the kind of transaction. -/
def removeAssetTx (vUndo : List (Bytes × CBlockAssetUndo)) : Option CAssetsCache :=
  if E.isNewAsset tx then do
    let c ← unissueAsset E S c (E.assetFromTransaction tx)
    let (ownerName, ownerAddress) ← E.ownerFromTransaction tx
    return c.removeOwnerAsset E ownerName ownerAddress
  else if Env.isReissueAsset tx then removeReissueTx E S c tx vUndo
  else if E.isNewUniqueAsset tx then removeUniqueTx E S c tx
  else if E.isNewMsgChannelAsset tx then unissueAsset E S c (E.msgChannelAssetFromTransaction tx)
  else if E.isNewQualifierAsset tx then unissueAsset E S c (E.qualifierAssetFromTransaction tx)
  else if E.isNewRestrictedAsset tx then removeRestrictedTx E S c tx
  else some c

/-- The transfers that left a coin are taken back. -/
def removeTransferOut (txid : Uint256) (c : CAssetsCache) (out : CTxOut × Nat) : Option CAssetsCache :=
  if !isUnspendable out.1.scriptPubKey && (Env.isScriptTransferAsset out.1.scriptPubKey).isSome then do
    let (transfer, strAddress) ← E.transferAssetFromScript out.1.scriptPubKey
    removeTransfer E S c transfer strAddress ⟨txid, out.2⟩
  else some c

def removeNullDataOut (out : CTxOut) : Option CAssetsCache :=
  if !isUnspendable out.scriptPubKey then some c
  else if isNullAssetTxDataScript out.scriptPubKey then do
    let (data, address) ← E.assetNullDataFromScript out.scriptPubKey
    match assetTypeOf data.asset_name with
    | .QUALIFIER | .SUB_QUALIFIER =>
      return c.removeQualifierAddress data.asset_name address (qualifierType data.flag)
    | .RESTRICTED => return c.removeRestrictedAddress data.asset_name address (restrictedType data.flag)
    | _ => return c
  else if isNullGlobalRestrictionAssetTxDataScript out.scriptPubKey then do
    let data ← globalAssetNullDataFromScript out.scriptPubKey
    return c.removeGlobalRestricted data.asset_name (globalRestrictedType data.flag)
  else some c

def removeAssets (vUndo : List (Bytes × CBlockAssetUndo)) : Option CAssetsCache :=
  if E.areAssetsDeployed then do
    let c ← removeAssetTx E S c tx vUndo
    let c ← tx.vout.zipIdx.foldlM (removeTransferOut E S tx.hash) c
    if E.areRestrictedAssetsDeployed then tx.vout.foldlM (removeNullDataOut E) c else some c
  else some c

end

end Hivecoin

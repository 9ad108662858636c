import Hivecoin.Assets.Decode
import Hivecoin.Cache.Query

/-!
# Changes of the asset cache

The `Add*`, `Remove*` and undo functions of `CAssetsCache`, with `none` where the source returns false.
-/

namespace Hivecoin

/-- `CBlockAssetUndo`: what a reissue overwrote. -/
structure CBlockAssetUndo where
  fChangedIPFS : Bool
  fChangedUnits : Bool
  strIPFS : Bytes
  nUnits : Int8
  fChangedVerifierString : Bool
  verifierString : Bytes
deriving DecidableEq

namespace CAssetsCache

variable (E : Env) (S : Store) (c : CAssetsCache)

def setAmount (pair : Bytes × Bytes) (amount : CAmount) : CAssetsCache :=
  { c with mapAssetsAddressAmount := c.mapAssetsAddressAmount.insert pair amount }

/-- An assignment to `mapAssetsAddressAmount`, made only with the asset index on. -/
def setAmountIfIndexed (pair : Bytes × Bytes) (amount : CAmount) : CAssetsCache :=
  if E.fAssetIndex then c.setAmount pair amount else c

def addToAssetBalance (strName address : Bytes) (nAmount : CAmount) : CAssetsCache :=
  let best := (bestAssetAddressAmount E S c (strName, address)).getD 0
  c.setAmountIfIndexed E (strName, address)
    (if isAssetNameAnOwner strName then OWNER_ASSET_AMOUNT else best + nAmount)

/-- Name, address and amount of a spent output, as `TrySpendCoin` reads them. -/
def spentAsset (script : Bytes) : Option (Bytes × Bytes × CAmount) :=
  match Script.isAssetScript script with
  | some ⟨.TX_NEW_ASSET, false, _⟩ =>
    (fun (a, address) => (a.strName, address, a.nAmount)) <$> E.assetFromScript script
  | some ⟨.TX_TRANSFER_ASSET, _, _⟩ =>
    (fun (t, address) => (t.strName, address, t.nAmount)) <$> E.transferAssetFromScript script
  | some ⟨.TX_NEW_ASSET, true, _⟩ =>
    (fun (name, address) => (name, address, OWNER_ASSET_AMOUNT)) <$> E.ownerAssetFromScript script
  | some ⟨.TX_REISSUE_ASSET, _, _⟩ =>
    (fun (r, address) => (r.strName, address, r.nAmount)) <$> E.reissueAssetFromScript script
  | _ => none

variable (reissue : CReissueAsset) (assetName address : Bytes)

/-- `TrySpendCoin` on an asset output. A balance never goes below zero here. -/
def spendAmount (nAmount : CAmount) : CAssetsCache :=
  if E.fAssetIndex && 0 < nAmount then
    match bestAssetAddressAmount E S c (assetName, address) with
    | some best =>
      let left := best - nAmount
      { c.setAmount (assetName, address) (if left < 0 then 0 else left) with
        vSpentAssets := c.vSpentAssets ++ [⟨assetName, address, nAmount⟩] }
    | none => c
  else c

def trySpendCoin (txOut : CTxOut) : Option CAssetsCache :=
  if (Script.isAssetScript txOut.scriptPubKey).isSome then
    match spentAsset E txOut.scriptPubKey with
    | some (assetName, address, nAmount) =>
      if address ≠ [] ∧ assetName ≠ [] then some (spendAmount E S c assetName address nAmount)
      else none
    | none => none
  else some c

def addBackSpentAsset (nAmount : CAmount) : CAssetsCache :=
  let best := (bestAssetAddressAmount E S c (assetName, address)).getD 0
  { c.setAmountIfIndexed E (assetName, address) (best + nAmount) with
    vUndoAssetAmount := c.vUndoAssetAmount ++ [⟨assetName, address, nAmount⟩] }

def undoAssetCoin (coin : Coin) : Option CAssetsCache := do
  let (assetName, strAddress, nAmount) ← spentAsset E coin.out.scriptPubKey
  if assetName = [] ∨ strAddress = [] ∨ nAmount = 0 then none
  else some (addBackSpentAsset E S c assetName strAddress nAmount)

def addTransferAsset (transfer : CAssetTransfer) (address : Bytes) (out : COutPoint) : CAssetsCache :=
  let c := addToAssetBalance E S c transfer.strName address transfer.nAmount
  { c with newTransferAssets := c.newTransferAssets.addKeep out ⟨transfer, address⟩ }

def undoTransfer (transfer : CAssetTransfer) (address : Bytes) : Option CAssetsCache :=
  if E.fAssetIndex then do
    let best ← bestAssetAddressAmount E S c (transfer.strName, address)
    if best < transfer.nAmount then none
    else some (c.setAmount (transfer.strName, address) (best - transfer.nAmount))
  else some c

def removeTransfer (transfer : CAssetTransfer) (address : Bytes) (out : COutPoint) :
    Option CAssetsCache := do
  let c ← undoTransfer E S c transfer address
  return { c with newTransferAssets := c.newTransferAssets.removeKeep out ⟨transfer, address⟩ }

def addOwnerAsset (assetsName address : Bytes) : CAssetsCache :=
  let c := { c with newOwnerAssets := c.newOwnerAssets.addKeep assetsName address }
  c.setAmountIfIndexed E (assetsName, address) OWNER_ASSET_AMOUNT

def removeOwnerAsset (assetsName address : Bytes) : CAssetsCache :=
  let c := { c with newOwnerAssets := c.newOwnerAssets.removeKeep assetsName address }
  c.setAmountIfIndexed E (assetsName, address) 0

/-! ## Issuance and reissuance -/

def addNewAsset (asset : CNewAsset) (address : Bytes) (nHeight : Int) (blockHash : Uint256) :
    Option CAssetsCache :=
  if checkIfAssetExists E S c asset.strName then none
  else
    let c := { c with newAssets := c.newAssets.addKeep asset.strName ⟨asset, address, nHeight, blockHash⟩ }
    some (c.setAmountIfIndexed E (asset.strName, address) asset.nAmount)

def removeNewAsset (asset : CNewAsset) (address : Bytes) : Option CAssetsCache :=
  if checkIfAssetExists E S c asset.strName then
    let c := { c with newAssets := c.newAssets.removeKeep asset.strName ⟨asset, address, 0, 0⟩ }
    some (c.setAmountIfIndexed E (asset.strName, address) 0)
  else none

def applyReissue (asset : CNewAsset) (reissue : CReissueAsset) : CNewAsset :=
  { asset with
    nAmount := asset.nAmount + reissue.nAmount
    nReissuable := reissue.nReissuable
    units := if reissue.nUnits ≠ -1 then reissue.nUnits else asset.units
    nHasIPFS := if reissue.strIPFSHash ≠ [] then 1 else asset.nHasIPFS
    strIPFSHash := if reissue.strIPFSHash ≠ [] then reissue.strIPFSHash else asset.strIPFSHash }

def addReissueAsset (out : COutPoint) :
    Option CAssetsCache := do
  let data ← getAssetMetaDataIfExists E S c reissue.strName
  let prev := (c.mapReissuedAssetData.get? reissue.strName).getD data.asset
  let record : CAssetCacheReissueAsset := ⟨reissue, address, data.nHeight, data.blockHash⟩
  let c := { c with
    mapReissuedAssetData := c.mapReissuedAssetData.insert reissue.strName (applyReissue prev reissue)
    newReissue := c.newReissue.addKeep out record }
  let best := (bestAssetAddressAmount E S c (reissue.strName, address)).getD 0
  return c.setAmountIfIndexed E (reissue.strName, address) (best + reissue.nAmount)

def addRestrictedVerifier (verifier : Bytes) : CAssetsCache :=
  { c with newRestrictedVerifier := c.newRestrictedVerifier.addKeep assetName ⟨verifier, false⟩ }

def removeRestrictedVerifier (verifier : Bytes) (fUndoingReissue : Bool) : CAssetsCache :=
  { c with newRestrictedVerifier := c.newRestrictedVerifier.removeKeep assetName ⟨verifier, fUndoingReissue⟩ }

def findUndo (vUndo : List (Bytes × CBlockAssetUndo)) (name : Bytes) : Option CBlockAssetUndo :=
  (vUndo.find? fun item => item.1 == name).map (·.2)

/-- The asset data before a reissue, as far as the undo item tells. -/
def unapplyReissue (asset : CNewAsset) (reissue : CReissueAsset) (undo : Option CBlockAssetUndo) : CNewAsset :=
  let asset := { asset with nAmount := asset.nAmount - reissue.nAmount, nReissuable := 1 }
  match undo with
  | none => asset
  | some u =>
    let hash := if u.fChangedIPFS then u.strIPFS else asset.strIPFSHash
    { asset with
      strIPFSHash := hash
      units := if u.fChangedUnits then u.nUnits else asset.units
      nHasIPFS := if hash = [] then 0 else asset.nHasIPFS }

def undoVerifier (name : Bytes) (undo : Option CBlockAssetUndo) : CAssetsCache :=
  match undo with
  | some u => if u.fChangedVerifierString then c.removeRestrictedVerifier name u.verifierString true else c
  | none => c

def removeReissueAsset (out : COutPoint)
    (vUndoIPFS : List (Bytes × CBlockAssetUndo)) : Option CAssetsCache := do
  let data ← getAssetMetaDataIfExists E S c reissue.strName
  let undo := findUndo vUndoIPFS reissue.strName
  let assetData := unapplyReissue data.asset reissue undo
  let record : CAssetCacheReissueAsset := ⟨reissue, address, data.nHeight, data.blockHash⟩
  let c := { c with
    mapReissuedAssetData := c.mapReissuedAssetData.insert assetData.strName assetData
    newReissue := c.newReissue.removeKeep out record }
  let c := c.undoVerifier assetData.strName undo
  if E.fAssetIndex then
    let best := bestAssetAddressAmount E S c (reissue.strName, address)
    if best = none ∧ reissue.nAmount ≠ 0 then none
    else
      let left := best.getD 0 - reissue.nAmount
      if left < 0 then none else some (c.setAmount (reissue.strName, address) left)
  else some c

/-- The cache when `RemoveReissueAsset` looks at the balance. -/
def unappliedReissue (out : COutPoint)
    (data : CDatabasedAssetData) (undo : Option CBlockAssetUndo) : CAssetsCache :=
  let assetData := unapplyReissue data.asset reissue undo
  let c := { c with
    mapReissuedAssetData := c.mapReissuedAssetData.insert assetData.strName assetData
    newReissue := c.newReissue.removeKeep out ⟨reissue, address, data.nHeight, data.blockHash⟩ }
  c.undoVerifier assetData.strName undo

/-- The end of `RemoveReissueAsset`, where the balance is lowered. -/
def takeReissued (pair : Bytes × Bytes) (nAmount : CAmount) : Bool × CAssetsCache :=
  if E.fAssetIndex then
    let best := bestAssetAddressAmount E S c pair
    if best = none ∧ nAmount ≠ 0 then (false, c)
    else
      let left := best.getD 0 - nAmount
      (!decide (left < 0), c.setAmount pair left)
  else (true, c)

/-- `RemoveReissueAsset` with what it returns and the cache that it leaves. -/
def removeReissueAssetCall (out : COutPoint)
    (vUndoIPFS : List (Bytes × CBlockAssetUndo)) : Bool × CAssetsCache :=
  match getAssetMetaDataIfExists E S c reissue.strName with
  | none => (false, c)
  | some data =>
    takeReissued E S (c.unappliedReissue reissue address out data (findUndo vUndoIPFS reissue.strName))
      (reissue.strName, address) reissue.nAmount

/-- Notes under the root of a sub-qualifier that an address gets or loses it. -/
def noteRootQualifier (gets : Bool) : CAssetsCache :=
  if isAssetNameASubQualifier assetName then
    let key := (getParentName assetName, address)
    if gets then
      { c with
        mapRootQualifierAddressesAdd :=
          c.mapRootQualifierAddressesAdd.modify key ∅ fun s => insert assetName s
        mapRootQualifierAddressesRemove :=
          c.mapRootQualifierAddressesRemove.modify key ∅ fun s => s.erase assetName }
    else
      { c with
        mapRootQualifierAddressesRemove :=
          c.mapRootQualifierAddressesRemove.modify key ∅ fun s => insert assetName s
        mapRootQualifierAddressesAdd :=
          c.mapRootQualifierAddressesAdd.modify key ∅ fun s => s.erase assetName }
  else c

def addQualifierAddress (type : QualifierType) : CAssetsCache :=
  let c := c.noteRootQualifier assetName address type.isAdd
  { c with newQualifierAddress := c.newQualifierAddress.addOver (assetName, address) type }

def removeQualifierAddress (type : QualifierType) : CAssetsCache :=
  let c := c.noteRootQualifier assetName address (!type.isAdd)
  { c with newQualifierAddress := c.newQualifierAddress.removeOver (assetName, address) type }

def addRestrictedAddress (type : RestrictedType) : CAssetsCache :=
  { c with newRestrictedAddress := c.newRestrictedAddress.addOver (assetName, address) type }

def removeRestrictedAddress (type : RestrictedType) : CAssetsCache :=
  { c with newRestrictedAddress := c.newRestrictedAddress.removeOver (assetName, address) type }

def addGlobalRestricted (type : GlobalRestrictedType) : CAssetsCache :=
  { c with newRestrictedGlobal := c.newRestrictedGlobal.addOver assetName type }

def removeGlobalRestricted (type : GlobalRestrictedType) : CAssetsCache :=
  { c with newRestrictedGlobal := c.newRestrictedGlobal.removeOver assetName type }

end CAssetsCache

end Hivecoin

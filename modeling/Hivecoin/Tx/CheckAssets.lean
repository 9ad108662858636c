import Hivecoin.Base.Tally
import Hivecoin.Cache.Update
import Hivecoin.Assets.Construct
import Hivecoin.Tx.Check

/-!
# Checks of a transaction against the asset state

The `ContextualCheck*` functions and `Consensus::CheckTxAssets`, over a shared store `S` and a cache `c`.
-/

namespace Hivecoin

open Outcome CAssetsCache Script

/-- The coins view: the unspent coin at an outpoint, if there is one. -/
abbrev CoinsView := COutPoint → Option Coin

/-- The mempool-side maps that asset checks read. -/
structure MempoolMaps where
  mapAssetToHash : Table Bytes Uint256
  mapReissuedAssets : Table Bytes Uint256

section

variable (E : Env) (S : Store) (c : CAssetsCache)

def contextualCheckVerifierString (verifier check_address : Bytes) : Check :=
  if verifier = ascii "true" then .ok ()
  else do
    let found ← checkVerifierString verifier
    found.forM fun q => require (checkIfAssetExists E S c (QUALIFIER_CHAR :: q))
      "bad-txns-null-verifier-contains-non-issued-qualifier"
    if check_address = [] then return
    let vals (q : Bytes) : Option Bool :=
      if found.contains q then some (checkForAddressQualifier S ∅ (QUALIFIER_CHAR :: q) check_address)
      else none
    match LibBoolEE.resolve verifier vals with
    | .ok ret => require ret "bad-txns-null-verifier-address-failed-verification"
    | .error _ => throw "bad-txns-null-verifier-failed-contexual-syntax-check"

/-- A change of a mark: the flag must differ from the current state. -/
def verifyMarkChange (flag : Int8) (current : Bool) (already missing : String) : Check := do
  verifyNullAssetDataFlag flag
  if flag ≠ 0 then require (!current) already else require current missing

def verifyQualifierChange (data : CNullAssetTxData) (address : Bytes) : Check :=
  verifyMarkChange data.flag (checkForAddressQualifier S ∅ data.asset_name address)
    "bad-txns-null-data-add-qualifier-when-already-assigned"
    "bad-txns-null-data-removing-qualifier-when-not-assigned"

def verifyRestrictedAddressChange (data : CNullAssetTxData) (address : Bytes) : Check :=
  verifyMarkChange data.flag (checkForAddressRestriction S ∅ data.asset_name address)
    "bad-txns-null-data-freeze-address-when-already-frozen"
    "bad-txns-null-data-unfreeze-address-when-not-frozen"

def verifyGlobalRestrictedChange (data : CNullAssetTxData) : Check :=
  verifyMarkChange data.flag (checkForGlobalRestriction S ∅ data.asset_name)
    "bad-txns-null-data-global-freeze-when-already-frozen"
    "bad-txns-null-data-global-unfreeze-when-not-frozen"

def contextualCheckNullAssetTxOut (txout : CTxOut) : Check := do
  let (data, address) ← orError (E.assetNullDataFromScript txout.scriptPubKey)
    "bad-txns-null-asset-data-serialization"
  if isAssetNameAQualifier data.asset_name then verifyQualifierChange S data address
  else if isAssetNameAnRestricted data.asset_name then verifyRestrictedAddressChange S data address
  else throw "bad-txns-null-asset-data-on-non-restricted-or-qualifier-asset"

def contextualCheckGlobalAssetTxOut (txout : CTxOut) : Check := do
  let data ← orError (globalAssetNullDataFromScript txout.scriptPubKey)
    "bad-txns-null-global-asset-data-serialization"
  verifyGlobalRestrictedChange S data

/-- The text of a failed verifier check is lost in a variable of the same name. -/
def contextualCheckVerifierAssetTxOut (txout : CTxOut) : Check := do
  let verifier ← orError (assetNullVerifierDataFromScript txout.scriptPubKey)
    "bad-txns-null-verifier-data-serialization"
  (contextualCheckVerifierString E S c verifier []).mapError fun _ => ""

def contextualCheckAgainstVerifyString (transfer : CAssetTransfer) (address : Bytes) : Check := do
  let verifier ← orError (getAssetVerifierStringIfExists S ∅ transfer.strName)
    ("Verifier String doesn't exist for asset: " ++ text transfer.strName)
  contextualCheckVerifierString E S c verifier address

def contextualCheckTransferAsset (transfer : CAssetTransfer) (address : Bytes) : Check := do
  let assetType ← (isAssetNameValid transfer.strName).mapError fun _ => invalidName
  require (0 < transfer.nAmount) "Invalid parameter: asset amount can't be equal to or less than zero."
  if E.areMessagesDeployed then do
    require (transfer.message != [] || transfer.nExpireTime ≤ 0)
      "Invalid parameter: asset transfer expiration time requires a message to be attached to the transfer"
    require (0 ≤ transfer.nExpireTime) "Invalid parameter: expiration time must be a positive value"
    if transfer.message ≠ [] then E.checkEncoded transfer.message
  require (assetType != .MSGCHANNEL || E.areMessagesDeployed)
    "bad-txns-transfer-msgchannel-before-messaging-is-active"
  if assetType = .RESTRICTED then do
    require E.areRestrictedAssetsDeployed "bad-txns-transfer-restricted-before-it-is-active"
    require (!checkForGlobalRestriction S ∅ transfer.strName)
      "bad-txns-transfer-restricted-asset-that-is-globally-restricted"
    (contextualCheckAgainstVerifyString E S c transfer address).mapError fun _ => ""
  require ((assetType != .QUALIFIER && assetType != .SUB_QUALIFIER) || E.areRestrictedAssetsDeployed)
    "bad-txns-transfer-qualifier-before-it-is-active"

def contextualCheckNewAsset (mempool : MempoolMaps) (asset : CNewAsset) (fCheckMempool : Bool) :
    Check := do
  require (E.areAssetsDeployed || E.fUnitTest) "bad-txns-new-asset-when-assets-is-not-active"
  checkNewAsset asset
  require (!checkIfAssetExists E S c asset.strName)
    ("Invalid parameter: asset_name '" ++ text asset.strName ++ "' has already been used")
  require (!(fCheckMempool && mempool.mapAssetToHash.contains asset.strName))
    "Asset with this name is already in the mempool"
  require (asset.nHasIPFS == 0 || asset.strIPFSHash.length == 34 ||
      (E.areMessagesDeployed && asset.strIPFSHash.length == 32))
    "Invalid parameter: ipfs_hash must be 46 characters. Txid must be valid 64 character hash"
  if asset.nHasIPFS ≠ 0 then E.checkEncoded asset.strIPFSHash

/-- The verifier rules of a reissue: the receiver of an amount must pass. -/
def contextualCheckReissueVerifier (reissue_asset : CReissueAsset) (strAddress : Bytes)
    (tx : CTransaction) : Check := do
  let new_verifier ← Env.getVerifierStringFromTx tx
  if 0 < reissue_asset.nAmount then
    match new_verifier with
    | some verifier => contextualCheckVerifierString E S c verifier strAddress
    | none => do
        let current ← orError (getAssetVerifierStringIfExists S c reissue_asset.strName)
          "failed to get verifier string from a restricted asset, database is out of sync. Reindex required. Please report this is to development team"
        contextualCheckVerifierString E S c current strAddress

def contextualCheckReissueAsset (reissue_asset : CReissueAsset) (tx : CTransaction) : Check := do
  let (_, strAddress) ← orError (E.reissueAssetFromTransaction tx) "bad-txns-reissue-asset-contextual-check"
  E.checkReissueAsset reissue_asset
  let prev ← orError (getAssetMetaDataIfExists E S c reissue_asset.strName)
    ("Unable to reissue asset: asset_name '" ++ text reissue_asset.strName ++
      "' doesn't exist in the database")
  require (prev.asset.nReissuable != 0) "Unable to reissue asset: reissuable is set to false"
  require (prev.asset.nAmount + reissue_asset.nAmount ≤ MAX_MONEY)
    ("Unable to reissue asset: asset_name '" ++ text reissue_asset.strName ++
      "' the amount trying to reissue is to large")
  require (checkAmountWithUnits reissue_asset.nAmount prev.asset.units)
    "Unable to reissue asset: amount must be divisible by the smaller unit assigned to the asset"
  require (prev.asset.units ≤ reissue_asset.nUnits || reissue_asset.nUnits == -1)
    "Unable to reissue asset: unit must be larger than current unit selection"
  require (reissue_asset.strIPFSHash == [] || reissue_asset.strIPFSHash.length == 34 ||
      !(E.areMessagesDeployed && reissue_asset.strIPFSHash.length != 32))
    "Invalid parameter: ipfs_hash must be 34 bytes, Txid must be 32 bytes"
  if reissue_asset.strIPFSHash ≠ [] then E.checkEncoded reissue_asset.strIPFSHash
  if isAssetNameAnRestricted reissue_asset.strName then
    contextualCheckReissueVerifier E S c reissue_asset strAddress tx

def contextualCheckUniqueAssetTx (mempool : MempoolMaps) (tx : CTransaction) : Check :=
  tx.vout.forM fun out =>
    if E.isScriptNewUniqueAsset out.scriptPubKey then do
      let (asset, _) ← orError (E.assetFromScript out.scriptPubKey)
        "bad-txns-issue-unique-serialization-failed"
      contextualCheckNewAsset E S c mempool asset false
    else .ok ()

end

/-! ## CheckTxAssets -/

/-- The totals of one side by asset name, in machine arithmetic. -/
abbrev Totals := Tally Bytes

section

variable (E : Env) (S : Store) (c : CAssetsCache)

def haveInputs (view : CoinsView) (tx : CTransaction) : Bool :=
  tx.isCoinBase || tx.vin.all fun txin => (view txin.prevout).isSome

def addInput (view : CoinsView) (totalInputs : Totals) (txin : CTxIn) : Except Reject Totals :=
  match view txin.prevout with
  | none => .ok totalInputs
  | some coin =>
    if (isAssetScript coin.out.scriptPubKey).isNone then .ok totalInputs
    else do
      let data ← orError (E.getAssetData coin.out.scriptPubKey)
        ⟨100, "bad-txns-failed-to-get-asset-from-script"⟩
      require (!(isAssetNameAnRestricted data.assetName &&
          checkForAddressRestriction S ∅ data.assetName (E.encodeDestination data.destination)))
        ⟨100, "bad-txns-restricted-asset-transfer-from-frozen-address"⟩
      return Tally.add totalInputs data.assetName data.nAmount

def checkNullAssetOutput (txout : CTxOut) : Except Reject Unit :=
  if isNullAsset txout.scriptPubKey then do
    require E.areRestrictedAssetsDeployed
      ⟨100, "bad-tx-null-asset-data-before-restricted-assets-activated"⟩
    if isNullAssetTxDataScript txout.scriptPubKey then
      (contextualCheckNullAssetTxOut E S txout).orReject 100 ""
    else if isNullGlobalRestrictionAssetTxDataScript txout.scriptPubKey then
      (contextualCheckGlobalAssetTxOut S txout).orReject 100 ""
    else if isNullAssetVerifierTxDataScript txout.scriptPubKey then
      (contextualCheckVerifierAssetTxOut E S c txout).orReject 100 ""
    else .error ⟨100, "bad-tx-null-asset-data-unknown-type"⟩
  else .ok ()

def checkTransferUnits (transfer : CAssetTransfer) : Except Reject Unit :=
  if isAssetNameAnOwner transfer.strName then
    require (transfer.nAmount == OWNER_ASSET_AMOUNT) ⟨100, "bad-txns-transfer-owner-amount-was-not-1"⟩
  else do
    let data ← orError (getAssetMetaDataIfExists E S c transfer.strName)
      ⟨100, "bad-txns-transfer-asset-not-exist"⟩
    require (data.asset.strName == transfer.strName) ⟨100, "bad-txns-asset-database-corrupted"⟩
    require (checkAmountWithUnits transfer.nAmount data.asset.units)
      ⟨100, "bad-txns-transfer-asset-amount-not-match-units"⟩

/-- The totals of the transfer outputs and the reissues noted for the mempool. -/
structure OutputTotals where
  totalOutputs : Totals
  vPairReissueAssets : List (Bytes × Uint256)

def addTransferOutput (fRunningUnitTests : Bool) (st : OutputTotals) (txout : CTxOut) :
    Except Reject OutputTotals := do
  let (transfer, address) ← orError (E.transferAssetFromScript txout.scriptPubKey)
    ⟨100, "bad-tx-asset-transfer-bad-deserialize"⟩
  (contextualCheckTransferAsset E S c transfer address).orReject 100 ""
  if !fRunningUnitTests then checkTransferUnits E S c transfer
  return { st with totalOutputs := Tally.add st.totalOutputs transfer.strName transfer.nAmount }

/-- A reissue must not stand in `mapReissuedAssets` under another transaction. -/
def addReissueOutput (mempool : MempoolMaps) (txid : Uint256) (st : OutputTotals) (txout : CTxOut) :
    Except Reject OutputTotals := do
  let (reissue, _) ← orError (E.reissueAssetFromScript txout.scriptPubKey)
    ⟨100, "bad-tx-asset-reissue-bad-deserialize"⟩
  match mempool.mapReissuedAssets.get? reissue.strName with
  | some hash => do
      require (hash == txid) ⟨100, "bad-tx-reissue-chaining-not-allowed"⟩
      return st
  | none => return { st with vPairReissueAssets := st.vPairReissueAssets ++ [(reissue.strName, txid)] }

def addOutput (mempool : MempoolMaps) (fRunningUnitTests : Bool) (txid : Uint256) (st : OutputTotals)
    (txout : CTxOut) : Except Reject OutputTotals := do
  let asset : Option Script.AssetScript := isAssetScript txout.scriptPubKey
  require (asset.isNone || E.areAssetsDeployed) ⟨100, "bad-txns-is-asset-and-asset-not-active"⟩
  checkNullAssetOutput E S c txout
  match asset.map Script.AssetScript.nType with
  | some .TX_TRANSFER_ASSET => addTransferOutput E S c fRunningUnitTests st txout
  | some .TX_REISSUE_ASSET => addReissueOutput E mempool txid st txout
  | _ => return st

/-- The checks by kind of transaction, in the order of the classifiers. -/
def contextualCheckKind (mempool : MempoolMaps) (fCheckMempool : Bool) (tx : CTransaction) :
    Except Reject Unit :=
  if E.isNewAsset tx then do
    let (asset, _) ← orError (tx.lastOut.bind fun out => E.assetFromScript out.scriptPubKey)
      ⟨100, "bad-txns-issue-serialzation-failed"⟩
    (contextualCheckNewAsset E S c mempool asset fCheckMempool).orReject 100 ""
  else if Env.isReissueAsset tx then do
    let (reissue_asset, _) ← orError (tx.lastOut.bind fun out => E.reissueAssetFromScript out.scriptPubKey)
      ⟨100, "bad-txns-reissue-serialzation-failed"⟩
    (contextualCheckReissueAsset E S c reissue_asset tx).orReject 100 "bad-txns-reissue-contextual-"
  else if E.isNewUniqueAsset tx then
    (contextualCheckUniqueAssetTx E S c mempool tx).orReject 100 "bad-txns-issue-unique-contextual-"
  else if E.isNewMsgChannelAsset tx then do
    require E.areMessagesDeployed ⟨100, "bad-txns-issue-msgchannel-before-messaging-is-active"⟩
    let (asset, _) ← orError (E.msgChannelAssetFromTransaction tx)
      ⟨100, "bad-txns-issue-msgchannel-serialzation-failed"⟩
    (contextualCheckNewAsset E S c mempool asset fCheckMempool).orReject 100
      "bad-txns-issue-msgchannel-contextual-"
  else if E.isNewQualifierAsset tx then do
    require E.areRestrictedAssetsDeployed ⟨100, "bad-txns-issue-qualifier-before-it-is-active"⟩
    let (asset, _) ← orError (E.qualifierAssetFromTransaction tx)
      ⟨100, "bad-txns-issue-qualifier-serialzation-failed"⟩
    (contextualCheckNewAsset E S c mempool asset fCheckMempool).orReject 100
      "bad-txns-issue-qualfier-contextual"
  else if E.isNewRestrictedAsset tx then do
    require E.areRestrictedAssetsDeployed ⟨100, "bad-txns-issue-restricted-before-it-is-active"⟩
    let (asset, strAddress) ← orError (E.restrictedAssetFromTransaction tx)
      ⟨100, "bad-txns-issue-restricted-serialzation-failed"⟩
    (contextualCheckNewAsset E S c mempool asset fCheckMempool).orReject 100
      "bad-txns-issue-restricted-contextual"
    let found ← (Env.getVerifierStringFromTx tx).mapError fun e =>
      (⟨100, "bad-txns-issue-restricted-verifier-search-" ++ e⟩ : Reject)
    let verifier ← orError found
      ⟨100, "bad-txns-issue-restricted-verifier-search-Verifier string not found"⟩
    (contextualCheckVerifierString E S c verifier strAddress).orReject 100 ""
  else tx.vout.forM fun out =>
    match isAssetScript out.scriptPubKey with
    | some a => require (a.nType == .TX_TRANSFER_ASSET) ⟨100, "bad-txns-bad-asset-transaction"⟩
    | none =>
      if find OP_HVN_ASSET out.scriptPubKey ≠ 0 then do
        require E.areRestrictedAssetsDeployed ⟨100, "bad-txns-bad-asset-script"⟩
        require (byteAt out.scriptPubKey 0 == OP_HVN_ASSET)
          ⟨100, "bad-txns-op-hvn-asset-not-in-right-script-location"⟩
      else .ok ()

/-- Inputs and outputs hold the same assets with the same totals. -/
def compareTotals (totalInputs totalOutputs : Totals) : Except Reject Unit := do
  totalOutputs.toList.forM fun (name, total) => do
    let input ← orError (totalInputs.get? name)
      ⟨100, "bad-tx-inputs-outputs-mismatch Bad Transaction - Trying to create outpoint for asset that you don't have: " ++ text name⟩
    require (input == total)
      ⟨100, "bad-tx-inputs-outputs-mismatch Bad Transaction - Assets would be burnt " ++ text name⟩
  require (totalOutputs.size == totalInputs.size)
    ⟨100, "bad-tx-asset-inputs-size-does-not-match-outputs-size"⟩

/-- `Consensus::CheckTxAssets`, with the reissues new to `mapReissuedAssets`. -/
def checkTxAssets (view : CoinsView) (mempool : MempoolMaps) (fCheckMempool fRunningUnitTests : Bool)
    (tx : CTransaction) : Except Reject (List (Bytes × Uint256)) := do
  require (haveInputs view tx) ⟨100, "bad-txns-inputs-missing-or-spent"⟩
  let totalInputs ← tx.vin.foldlM (addInput E S view) (∅ : Table Bytes CAmount)
  let st ← tx.vout.foldlM (addOutput E S c mempool fRunningUnitTests tx.hash) ⟨∅, []⟩
  contextualCheckKind E S c mempool fCheckMempool tx
  compareTotals totalInputs st.totalOutputs
  return st.vPairReissueAssets

end

namespace Regtest

def goldStore : Store :=
  { (∅ : Store) with
    assetData := (∅ : Table Bytes CDatabasedAssetData).insert (ascii "GOLD")
      ⟨⟨ascii "GOLD", 1000, 8, 1, 0, []⟩, 3, 0⟩ }

/-- Two coins, of the native currency and of the owner token of `GOLD`. -/
def ownerView : CoinsView := fun out =>
  if out = ⟨1, 0⟩ then some ⟨⟨60000000000, scriptForKeyID alice⟩, 5, false⟩
  else if out = ⟨1, 1⟩ then some ⟨ownerGoldOut, 5, false⟩
  else none

end Regtest

end Hivecoin

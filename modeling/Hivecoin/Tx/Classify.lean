import Hivecoin.Assets.Decode
import Hivecoin.Assets.Verifier

/-!
# Kinds of asset transactions

The classifiers `IsNew*`, `IsReissueAsset` and the shape checks `Verify*`, with the error texts.
-/

namespace Hivecoin

open Outcome

abbrev Check := Except String Unit

namespace CTransaction

def lastOut (tx : CTransaction) : Option CTxOut := tx.vout.getLast?

def secondLastOut (tx : CTransaction) : Option CTxOut := tx.vout.dropLast.getLast?

end CTransaction

/-! ## Single outputs -/

def checkIssueDataTx (txOut : CTxOut) : Bool := (Env.isScriptNewAsset txOut.scriptPubKey).isSome

def checkOwnerDataTx (txOut : CTxOut) : Bool := (Env.isScriptOwnerAsset txOut.scriptPubKey).isSome

def checkReissueDataTx (txOut : CTxOut) : Bool := (Env.isScriptReissueAsset txOut.scriptPubKey).isSome

/-- The counters of `GetTxOutAssetTypes`. -/
structure AssetCounts where
  issues : Nat
  reissues : Nat
  transfers : Nat
  owners : Nat

def countOuts (p : Option Script.AssetScript → Bool) (vout : List CTxOut) : Nat :=
  vout.countP fun out => p (Script.isAssetScript out.scriptPubKey)

def getTxOutAssetTypes (vout : List CTxOut) : AssetCounts where
  issues := countOuts (fun | some ⟨.TX_NEW_ASSET, false, _⟩ => true | _ => false) vout
  reissues := countOuts (fun | some ⟨.TX_REISSUE_ASSET, _, _⟩ => true | _ => false) vout
  transfers := countOuts (fun | some ⟨.TX_TRANSFER_ASSET, _, _⟩ => true | _ => false) vout
  owners := countOuts (fun | some ⟨.TX_NEW_ASSET, true, _⟩ => true | _ => false) vout

namespace Env

variable (E : Env)

def paysTo (txOut : CTxOut) (amount : CAmount) (address : Bytes) : Bool :=
  txOut.nValue == amount &&
    match E.extractDestination txOut.scriptPubKey with
    | some destination => destination != .none && E.encodeDestination destination == address
    | none => false

def checkIssueBurnTx (txOut : CTxOut) (type : AssetType) (numberIssued : Nat) : Bool :=
  match type with
  | .REISSUE | .VOTE | .OWNER | .INVALID => false
  | _ => E.paysTo txOut (getBurnAmount type * Int64.ofNat numberIssued) (getBurnAddress E.network type)

def checkReissueBurnTx (txOut : CTxOut) : Bool :=
  E.paysTo txOut (getBurnAmount .REISSUE) (getBurnAddress E.network .REISSUE)

variable (tx : CTransaction)

def hasIssueBurn (type : AssetType) (numberIssued : Nat) : Bool :=
  tx.vout.any fun out => E.checkIssueBurnTx out type numberIssued

def hasTransferOf (name : Bytes) : Bool :=
  tx.vout.any fun out => match E.transferAssetFromScript out.scriptPubKey with
    | some (transfer, _) => transfer.strName == name
    | none => false

def checkAddingTagBurnFee (count : Nat) : Bool :=
  E.hasIssueBurn tx .NULL_ADD_QUALIFIER count

/-- The last output issues an asset and passes a script test. -/
def lastIssues (test : Bytes → Bool) : Bool :=
  match tx.lastOut with
  | some out => checkIssueDataTx out && test out.scriptPubKey
  | none => false

def isNewAsset : Bool :=
  3 ≤ tx.vout.length &&
  (match tx.secondLastOut with
    | some out => checkOwnerDataTx out
    | none => false) &&
  lastIssues tx fun script => !E.isScriptNewUniqueAsset script && !E.isScriptNewRestrictedAsset script

def isNewUniqueAsset : Bool := lastIssues tx E.isScriptNewUniqueAsset
def isNewMsgChannelAsset : Bool := lastIssues tx E.isScriptNewMsgChannelAsset
def isNewQualifierAsset : Bool := lastIssues tx E.isScriptNewQualifierAsset
def isNewRestrictedAsset : Bool := lastIssues tx E.isScriptNewRestrictedAsset

def isReissueAsset : Bool :=
  match tx.lastOut with
  | some out => checkReissueDataTx out
  | none => false

/-- What `read` makes of the last output of a transaction that passes `test`. -/
def lastOutRead {α : Type} (test : Bool) (read : Bytes → Option α) : Option α :=
  if test then tx.lastOut.bind fun out => read out.scriptPubKey else none

def assetFromTransaction : Option (CNewAsset × Bytes) :=
  lastOutRead tx (E.isNewAsset tx) E.assetFromScript

def uniqueAssetFromTransaction : Option (CNewAsset × Bytes) :=
  lastOutRead tx (E.isNewUniqueAsset tx) E.assetFromScript

def msgChannelAssetFromTransaction : Option (CNewAsset × Bytes) :=
  lastOutRead tx (E.isNewMsgChannelAsset tx) E.msgChannelAssetFromScript

def qualifierAssetFromTransaction : Option (CNewAsset × Bytes) :=
  lastOutRead tx (E.isNewQualifierAsset tx) E.qualifierAssetFromScript

def restrictedAssetFromTransaction : Option (CNewAsset × Bytes) :=
  lastOutRead tx (E.isNewRestrictedAsset tx) E.restrictedAssetFromScript

def reissueAssetFromTransaction : Option (CReissueAsset × Bytes) :=
  lastOutRead tx (isReissueAsset tx) E.reissueAssetFromScript

def ownerFromTransaction : Option (Bytes × Bytes) :=
  if E.isNewAsset tx then tx.secondLastOut.bind fun out => E.ownerAssetFromScript out.scriptPubKey
  else none

def isNewOwnerTxValid (assetName address : Bytes) : Check := do
  let (ownerName, ownerAddress) ← orError (E.ownerFromTransaction tx) "bad-txns-bad-owner"
  require (ownerAddress == address) "bad-txns-owner-address-mismatch"
  require (OWNER_LENGTH + MIN_ASSET_LENGTH ≤ ownerName.length) "bad-txns-owner-asset-length"
  require (ownerName == assetName ++ OWNER_TAG) "bad-txns-owner-name-mismatch"

/-- `GetVerifierStringFromTx`: `.ok none` where the source sets `fNotFound`. -/
def getVerifierStringFromTx : Except String (Option Bytes) :=
  match (tx.vout.map (·.scriptPubKey)).filter Script.isNullAssetVerifierTxDataScript with
  | [] => .ok none
  | script :: rest =>
    match assetNullVerifierDataFromScript script with
    | none => .error "Failed to get verifier string from output: "
    | some verifier =>
      if rest = [] then .ok (some verifier)
      else .error "Multiple verifier strings found in transaction"

def lastIssuance (read : Bytes → Option (CNewAsset × Bytes))
    (noData unreadable : String) : Except String CNewAsset := do
  let out ← orError tx.lastOut noData
  require (checkIssueDataTx out) noData
  let (asset, _) ← orError (read out.scriptPubKey) unreadable
  return asset

def verifyNewAsset : Check := do
  require (3 ≤ tx.vout.length) "bad-txns-issue-vout-size-to-small"
  let last ← orError tx.lastOut "bad-txns-issue-data-not-found"
  require (checkIssueDataTx last) "bad-txns-issue-data-not-found"
  let second ← orError tx.secondLastOut "bad-txns-issue-owner-data-not-found"
  require (checkOwnerDataTx second) "bad-txns-issue-owner-data-not-found"
  let (asset, _) ← orError (E.assetFromScript last.scriptPubKey) "bad-txns-issue-serialzation-failed"
  let assetType := assetTypeOf asset.strName
  let (strOwnerName, _) ←
    orError (E.ownerAssetFromScript second.scriptPubKey) "bad-txns-issue-owner-serialzation-failed"
  require (strOwnerName == asset.strName ++ OWNER_TAG) "bad-txns-issue-owner-name-doesn't-match"
  require (E.hasIssueBurn tx assetType 1) "bad-txns-issue-burn-not-found"
  require (assetType != .SUB || E.hasTransferOf tx (getParentName asset.strName ++ OWNER_TAG))
    "bad-txns-issue-new-asset-missing-owner-asset"
  let n := getTxOutAssetTypes tx.vout
  require (n.owners == 1 && n.issues == 1 && n.reissues == 0)
    "bad-txns-failed-issue-asset-formatting-check"

/-- The root and the names found so far by `VerifyNewUniqueAsset`. -/
def uniqueStep (st : Bytes × List Bytes) (out : CTxOut) : Except String (Bytes × List Bytes) := do
  if !E.isScriptNewUniqueAsset out.scriptPubKey then return st
  let (asset, _) ← orError (E.assetFromScript out.scriptPubKey) "bad-txns-issue-unique-asset-from-script"
  let root := getParentName asset.strName
  let assetRoot := if st.1 = [] then root else st.1
  require (assetRoot == root) "bad-txns-issue-unique-asset-compare-failed"
  require (!st.2.contains asset.strName) "bad-txns-issue-unique-duplicate-name-in-same-tx"
  return (assetRoot, asset.strName :: st.2)

def verifyNewUniqueAsset : Check := do
  require (3 ≤ tx.vout.length) "bad-txns-unique-vout-size-to-small"
  let (assetRoot, setUniqueAssets) ← tx.vout.foldlM E.uniqueStep ([], [])
  let assetOutpointCount := setUniqueAssets.length
  require (assetOutpointCount != 0) "bad-txns-issue-unique-asset-bad-outpoint-count"
  require (E.hasIssueBurn tx .UNIQUE assetOutpointCount)
    "bad-txns-issue-unique-asset-burn-outpoints-not-found"
  require (E.hasTransferOf tx (assetRoot ++ OWNER_TAG))
    "bad-txns-issue-unique-asset-missing-owner-asset"
  let n := getTxOutAssetTypes tx.vout
  require (n.owners == 0 && n.reissues == 0 && n.issues == assetOutpointCount)
    "bad-txns-failed-unique-asset-formatting-check"

def verifyNewMsgChannelAsset : Check := do
  require (3 ≤ tx.vout.length) "bad-txns-issue-msgchannel-vout-size-to-small"
  let asset ← lastIssuance tx E.msgChannelAssetFromScript "bad-txns-issue-data-not-found"
    "bad-txns-issue-msgchannel-serialzation-failed"
  require (E.hasIssueBurn tx .MSGCHANNEL 1) "bad-txns-issue-msgchannel-burn-not-found"
  require (E.hasTransferOf tx (getParentName asset.strName ++ OWNER_TAG))
    "bad-txns-issue-msg-channel-asset-bad-owner-asset"
  let n := getTxOutAssetTypes tx.vout
  require (n.owners == 0 && n.issues == 1 && n.reissues == 0)
    "bad-txns-failed-issue-msgchannel-asset-formatting-check"

def verifyNewQualfierAsset : Check := do
  require (2 ≤ tx.vout.length) "bad-txns-issue-qualifier-vout-size-to-small"
  let asset ← lastIssuance tx E.qualifierAssetFromScript "bad-txns-issue-qualifider-data-not-found"
    "bad-txns-issue-qualifier-serialzation-failed"
  let assetType := assetTypeOf asset.strName
  require (E.hasIssueBurn tx assetType 1) "bad-txns-issue-qualifier-burn-not-found"
  -- a sub-qualifier is authorised by its parent itself, not by an owner token
  require (assetType != .SUB_QUALIFIER || E.hasTransferOf tx (getParentName asset.strName))
    "bad-txns-issue-sub-qualifier-parent-outpoint-not-found"
  let n := getTxOutAssetTypes tx.vout
  require (n.owners == 0 && n.issues == 1 && n.reissues == 0)
    "bad-txns-failed-issue-asset-formatting-check"

def verifyNewRestrictedAsset : Check := do
  require (4 ≤ tx.vout.length) "bad-txns-issue-restricted-vout-size-to-small"
  let asset ← lastIssuance tx E.restrictedAssetFromScript "bad-txns-issue-restricted-data-not-found"
    "bad-txns-issue-restricted-serialization-failed"
  require (E.hasIssueBurn tx (assetTypeOf asset.strName) 1) "bad-txns-issue-restricted-burn-not-found"
  let strippedRoot := (getParentName asset.strName).drop 1 ++ OWNER_TAG
  require (E.hasTransferOf tx strippedRoot)
    "bad-txns-issue-restricted-root-owner-token-outpoint-not-found"
  let verifier ← getVerifierStringFromTx tx
  require verifier.isSome "Verifier string not found"
  let n := getTxOutAssetTypes tx.vout
  require (n.owners == 0 && n.issues == 1 && n.reissues == 0)
    "bad-txns-failed-issue-asset-formatting-check"

def verifyReissueAsset : Check := do
  require (3 ≤ tx.vout.length) "bad-txns-vout-size-to-small"
  let last ← orError tx.lastOut "bad-txns-reissue-data-not-found"
  require (checkReissueDataTx last) "bad-txns-reissue-data-not-found"
  let (reissue, _) ←
    orError (E.reissueAssetFromScript last.scriptPubKey) "bad-txns-reissue-serialization-failed"
  let asset_name_to_check :=
    if assetTypeOf reissue.strName = .RESTRICTED then reissue.strName.drop 1 else reissue.strName
  require (E.hasTransferOf tx (asset_name_to_check ++ OWNER_TAG))
    "bad-txns-reissue-owner-outpoint-not-found"
  require (tx.vout.any E.checkReissueBurnTx) "bad-txns-reissue-burn-outpoint-not-found"
  let n := getTxOutAssetTypes tx.vout
  require (n.owners == 0 && n.reissues == 1 && n.issues == 0)
    "bad-txns-failed-reissue-asset-formatting-check"

end Env

end Hivecoin

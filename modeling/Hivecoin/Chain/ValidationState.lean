import Hivecoin.Base.Returns
import Hivecoin.Chain.Block

/-!
# The validation state

`CValidationState` and the checks of a transaction as the source writes them, which follow those in `Except`.
-/

namespace Hivecoin

open Outcome Returns Returns.Call Script

inductive ModeState where
  | MODE_VALID | MODE_INVALID | MODE_ERROR
deriving DecidableEq

structure CValidationState where
  mode : ModeState := .MODE_VALID
  nDoS : Nat := 0
  strRejectReason : String := ""
  chRejectCode : Nat := 0
  corruptionPossible : Bool := false
deriving DecidableEq

def REJECT_INVALID : Nat := 0x10
def REJECT_NONSTANDARD : Nat := 0x40

namespace CValidationState

def doS (level chRejectCodeIn : Nat) (strRejectReasonIn : String) (corruptionIn : Bool) (state : CValidationState) : CValidationState :=
  let state := { state with
    chRejectCode := chRejectCodeIn, strRejectReason := strRejectReasonIn, corruptionPossible := corruptionIn }
  if state.mode = .MODE_ERROR then state else { state with nDoS := state.nDoS + level, mode := .MODE_INVALID }

def invalid (chRejectCode : Nat) (strRejectReason : String) : CValidationState → CValidationState :=
  doS 0 chRejectCode strRejectReason false

def error (strRejectReasonIn : String) (state : CValidationState) : CValidationState :=
  { state with
    strRejectReason := if state.mode = .MODE_VALID then strRejectReasonIn else state.strRejectReason, mode := .MODE_ERROR }

def isInvalid (state : CValidationState) : Bool := state.mode = .MODE_INVALID

/-- `DoS(100, false, REJECT_INVALID, …)`, by which most checks return. -/
def reject (strRejectReason : String) : CValidationState → CValidationState := doS 100 REJECT_INVALID strRejectReason false

end CValidationState

abbrev Validation := Call CValidationState

namespace WithState

open CValidationState

section

variable (E : Env) (S : Store) (c : CAssetsCache)

variable (view : CoinsView) (mempool : MempoolMaps)

def addInputValue (nSpendHeight : Nat) (nValueIn : CAmount) (txin : CTxIn) : Validation CAmount :=
  match view txin.prevout with
  | none => pure nValueIn
  | some coin => do
      ensure (!coin.fCoinBase || coin.nHeight + COINBASE_MATURITY ≤ nSpendHeight)
        (invalid REJECT_INVALID "bad-txns-premature-spend-of-coinbase")
      ensure (moneyRange coin.out.nValue && moneyRange (nValueIn + coin.out.nValue)) (reject "bad-txns-inputvalues-outofrange")
      return nValueIn + coin.out.nValue

def getValueOut (tx : CTransaction) : Validation CAmount :=
  match Hivecoin.getValueOut E tx with
  | .ok value_out => pure value_out
  | .error _ => abort

def checkTxInputs (nSpendHeight : Nat) (tx : CTransaction) : Validation CAmount := do
  ensure (haveInputs view tx) (reject "bad-txns-inputs-missingorspent")
  let nValueIn ← tx.vin.foldlM (addInputValue view nSpendHeight) 0
  let value_out ← getValueOut E tx
  ensure (value_out ≤ nValueIn) (reject "bad-txns-in-belowout")
  ensure (moneyRange (nValueIn - value_out)) (reject "bad-txns-fee-out-of-range")
  return nValueIn - value_out

def addInput (totalInputs : Totals) (txin : CTxIn) : Validation Totals :=
  match view txin.prevout with
  | none => pure totalInputs
  | some coin =>
    if (isAssetScript coin.out.scriptPubKey).isNone then pure totalInputs
    else do
      let data ← orLeave (E.getAssetData coin.out.scriptPubKey) (reject "bad-txns-failed-to-get-asset-from-script")
      ensure (!(isAssetNameAnRestricted data.assetName &&
          CAssetsCache.checkForAddressRestriction S ∅ data.assetName (E.encodeDestination data.destination)))
        (reject "bad-txns-restricted-asset-transfer-from-frozen-address")
      return Tally.add totalInputs data.assetName data.nAmount

def checkNullAssetOutput (txout : CTxOut) : Validation Unit :=
  if isNullAsset txout.scriptPubKey then do
    ensure E.areRestrictedAssetsDeployed (reject "bad-tx-null-asset-data-before-restricted-assets-activated")
    if isNullAssetTxDataScript txout.scriptPubKey then pass (contextualCheckNullAssetTxOut E S txout) reject
    else if isNullGlobalRestrictionAssetTxDataScript txout.scriptPubKey then
      pass (contextualCheckGlobalAssetTxOut S txout) reject
    else if isNullAssetVerifierTxDataScript txout.scriptPubKey then
      pass (contextualCheckVerifierAssetTxOut E S c txout) reject
    else leave (reject "bad-tx-null-asset-data-unknown-type")
  else pure ()

def checkTransferUnits (transfer : CAssetTransfer) : Validation Unit :=
  if isAssetNameAnOwner transfer.strName then
    ensure (transfer.nAmount == OWNER_ASSET_AMOUNT) (reject "bad-txns-transfer-owner-amount-was-not-1")
  else do
    let data ← orLeave (CAssetsCache.getAssetMetaDataIfExists E S c transfer.strName) (reject "bad-txns-transfer-asset-not-exist")
    ensure (data.asset.strName == transfer.strName) (reject "bad-txns-asset-database-corrupted")
    ensure (checkAmountWithUnits transfer.nAmount data.asset.units) (reject "bad-txns-transfer-asset-amount-not-match-units")

def addTransferOutput (fRunningUnitTests : Bool) (st : OutputTotals) (txout : CTxOut) : Validation OutputTotals := do
  let (transfer, address) ← orLeave (E.transferAssetFromScript txout.scriptPubKey) (reject "bad-tx-asset-transfer-bad-deserialize")
  pass (contextualCheckTransferAsset E S c transfer address) reject
  if !fRunningUnitTests then checkTransferUnits E S c transfer
  return { st with totalOutputs := Tally.add st.totalOutputs transfer.strName transfer.nAmount }

def addReissueOutput (txid : Uint256) (st : OutputTotals) (txout : CTxOut) : Validation OutputTotals := do
  let (reissue, _) ← orLeave (E.reissueAssetFromScript txout.scriptPubKey) (reject "bad-tx-asset-reissue-bad-deserialize")
  match mempool.mapReissuedAssets.get? reissue.strName with
  | some hash => do
      ensure (hash == txid) (reject "bad-tx-reissue-chaining-not-allowed")
      return st
  | none => return { st with vPairReissueAssets := st.vPairReissueAssets ++ [(reissue.strName, txid)] }

def addOutput (fRunningUnitTests : Bool) (txid : Uint256) (st : OutputTotals) (txout : CTxOut) :
    Validation OutputTotals := do
  let asset : Option Script.AssetScript := isAssetScript txout.scriptPubKey
  ensure (asset.isNone || E.areAssetsDeployed) (reject "bad-txns-is-asset-and-asset-not-active")
  checkNullAssetOutput E S c txout
  match asset.map Script.AssetScript.nType with
  | some .TX_TRANSFER_ASSET => addTransferOutput E S c fRunningUnitTests st txout
  | some .TX_REISSUE_ASSET => addReissueOutput E mempool txid st txout
  | _ => return st

def checkPlainOutput (out : CTxOut) : Validation Unit :=
  match isAssetScript out.scriptPubKey with
  | some a => ensure (a.nType == .TX_TRANSFER_ASSET) (reject "bad-txns-bad-asset-transaction")
  | none =>
    if find OP_HVN_ASSET out.scriptPubKey ≠ 0 then do
      ensure E.areRestrictedAssetsDeployed (reject "bad-txns-bad-asset-script")
      ensure (byteAt out.scriptPubKey 0 == OP_HVN_ASSET) (reject "bad-txns-op-hvn-asset-not-in-right-script-location")
    else pure ()

def contextualCheckKind (fCheckMempool : Bool) (tx : CTransaction) : Validation Unit :=
  if E.isNewAsset tx then do
    let (asset, _) ← orLeave (tx.lastOut.bind fun out => E.assetFromScript out.scriptPubKey) (reject "bad-txns-issue-serialzation-failed")
    pass (contextualCheckNewAsset E S c mempool asset fCheckMempool) reject
  else if Env.isReissueAsset tx then do
    let (reissue_asset, _) ← orLeave (tx.lastOut.bind fun out => E.reissueAssetFromScript out.scriptPubKey)
      (reject "bad-txns-reissue-serialzation-failed")
    pass (contextualCheckReissueAsset E S c reissue_asset tx) fun e => reject ("bad-txns-reissue-contextual-" ++ e)
  else if E.isNewUniqueAsset tx then
    pass (contextualCheckUniqueAssetTx E S c mempool tx) fun e => reject ("bad-txns-issue-unique-contextual-" ++ e)
  else if E.isNewMsgChannelAsset tx then do
    ensure E.areMessagesDeployed (reject "bad-txns-issue-msgchannel-before-messaging-is-active")
    let (asset, _) ← orLeave (E.msgChannelAssetFromTransaction tx) (reject "bad-txns-issue-msgchannel-serialzation-failed")
    pass (contextualCheckNewAsset E S c mempool asset fCheckMempool) fun e => reject ("bad-txns-issue-msgchannel-contextual-" ++ e)
  else if E.isNewQualifierAsset tx then do
    ensure E.areRestrictedAssetsDeployed (reject "bad-txns-issue-qualifier-before-it-is-active")
    let (asset, _) ← orLeave (E.qualifierAssetFromTransaction tx) (reject "bad-txns-issue-qualifier-serialzation-failed")
    pass (contextualCheckNewAsset E S c mempool asset fCheckMempool) fun e => reject ("bad-txns-issue-qualfier-contextual" ++ e)
  else if E.isNewRestrictedAsset tx then do
    ensure E.areRestrictedAssetsDeployed (reject "bad-txns-issue-restricted-before-it-is-active")
    let (asset, strAddress) ← orLeave (E.restrictedAssetFromTransaction tx) (reject "bad-txns-issue-restricted-serialzation-failed")
    pass (contextualCheckNewAsset E S c mempool asset fCheckMempool) fun e => reject ("bad-txns-issue-restricted-contextual" ++ e)
    let found ← pass (Env.getVerifierStringFromTx tx) fun e => reject ("bad-txns-issue-restricted-verifier-search-" ++ e)
    let verifier ← orLeave found (reject "bad-txns-issue-restricted-verifier-search-Verifier string not found")
    pass (contextualCheckVerifierString E S c verifier strAddress) reject
  else tx.vout.forM (checkPlainOutput E)

def compareTotals (totalInputs totalOutputs : Totals) : Validation Unit := do
  totalOutputs.toList.forM fun (name, total) => do
    let input ← orLeave (totalInputs.get? name) (reject
      ("bad-tx-inputs-outputs-mismatch Bad Transaction - Trying to create outpoint for asset that you don't have: " ++ text name))
    ensure (input == total) (reject ("bad-tx-inputs-outputs-mismatch Bad Transaction - Assets would be burnt " ++ text name))
  ensure (totalOutputs.size == totalInputs.size) (reject "bad-tx-asset-inputs-size-does-not-match-outputs-size")

def checkTxAssets (fCheckMempool fRunningUnitTests : Bool) (tx : CTransaction) :
    Validation (List (Bytes × Uint256)) := do
  ensure (haveInputs view tx) (reject "bad-txns-inputs-missing-or-spent")
  let totalInputs ← tx.vin.foldlM (addInput E S view) (∅ : Table Bytes CAmount)
  let st ← tx.vout.foldlM (addOutput E S c mempool fRunningUnitTests tx.hash) ⟨∅, []⟩
  contextualCheckKind E S c mempool fCheckMempool tx
  compareTotals totalInputs st.totalOutputs
  return st.vPairReissueAssets

end

/-! ## Every return says why -/

def NoError (state : CValidationState) : Prop := state.mode ≠ .MODE_ERROR

/-- A rule violation is noted, and a possible corruption only where there is a reason. -/
def Rejected (corrupt : Prop) (state : CValidationState) : Prop :=
  state.mode = .MODE_INVALID ∧ (state.corruptionPossible = true → corrupt)

variable {E : Env} {S : Store} {c : CAssetsCache} {corrupt : Prop}

theorem doS_rejected (level code : Nat) (reason : String) {corruptionIn} (hcorrupt : corruptionIn = true → corrupt)
    (state : CValidationState) (h : NoError state) : Rejected corrupt (doS level code reason corruptionIn state) := by
  unfold doS
  rw [if_neg h]
  exact ⟨rfl, hcorrupt⟩

theorem reject_rejected (reason : String) (state : CValidationState) (h : NoError state) : Rejected corrupt (reject reason state) :=
  doS_rejected 100 REJECT_INVALID reason nofun state h

theorem invalid_rejected (code : Nat) (reason : String) (state : CValidationState) (h : NoError state) :
    Rejected corrupt (invalid code reason state) :=
  doS_rejected 0 code reason nofun state h

variable (view : CoinsView) (mempool : MempoolMaps)

theorem addInputValue_follows (nSpendHeight : Nat) (nValueIn : CAmount) (txin : CTxIn) :
    Follows NoError (Rejected corrupt) (addInputValue view nSpendHeight nValueIn txin)
      (Hivecoin.addInputValue view nSpendHeight nValueIn txin) := by
  unfold addInputValue Hivecoin.addInputValue
  cases view txin.prevout with
  | none => exact .pure _
  | some coin =>
    refine .bind (.ensure (invalid_rejected _ _) _) fun _ => .bind (.ensure (reject_rejected _) _) fun _ => .pure _

theorem checkTxInputs_follows (nSpendHeight : Nat) (tx : CTransaction) :
    Follows NoError (Rejected corrupt) (checkTxInputs E view nSpendHeight tx) (Hivecoin.checkTxInputs E view nSpendHeight tx) := by
  have hvalue : Follows NoError (Rejected corrupt) (getValueOut E tx) (Hivecoin.getValueOut E tx) := by
    unfold getValueOut
    cases Hivecoin.getValueOut E tx with
    | ok value_out => exact .pure value_out
    | error r => exact .abort r
  refine .bind (.ensure (reject_rejected _) _) fun _ => .bind (.foldlM (addInputValue_follows view nSpendHeight) _ _) fun _ =>
    .bind hvalue fun _ => .bind (.ensure (reject_rejected _) _) fun _ => .bind (.ensure (reject_rejected _) _) fun _ => .pure _

theorem addInput_follows (totalInputs : Totals) (txin : CTxIn) :
    Follows NoError (Rejected corrupt) (addInput E S view totalInputs txin) (Hivecoin.addInput E S view totalInputs txin) := by
  unfold addInput Hivecoin.addInput
  cases view txin.prevout with
  | none => exact .pure _
  | some coin =>
    refine .ite (fun _ => .pure _) fun _ => .bind (.orLeave (reject_rejected _) _) fun _ =>
      .bind (.ensure (reject_rejected _) _) fun _ => .pure _

theorem checkNullAssetOutput_follows (txout : CTxOut) :
    Follows NoError (Rejected corrupt) (checkNullAssetOutput E S c txout) (Hivecoin.checkNullAssetOutput E S c txout) := by
  refine .ite (fun _ => .bind (.ensure (reject_rejected _) _) fun _ => ?_) fun _ => .pure _
  refine .ite (fun _ => .pass reject_rejected _) fun _ => .ite (fun _ => .pass reject_rejected _) fun _ =>
    .ite (fun _ => .pass reject_rejected _) fun _ => .leave (reject_rejected _) _

theorem checkTransferUnits_follows (transfer : CAssetTransfer) :
    Follows NoError (Rejected corrupt) (checkTransferUnits E S c transfer) (Hivecoin.checkTransferUnits E S c transfer) :=
  .ite (fun _ => .ensure (reject_rejected _) _) fun _ => .bind (.orLeave (reject_rejected _) _) fun _ =>
    .bind (.ensure (reject_rejected _) _) fun _ => .ensure (reject_rejected _) _

theorem addTransferOutput_follows (fRunningUnitTests : Bool) (st : OutputTotals) (txout : CTxOut) :
    Follows NoError (Rejected corrupt) (addTransferOutput E S c fRunningUnitTests st txout)
      (Hivecoin.addTransferOutput E S c fRunningUnitTests st txout) := by
  refine .bind (.orLeave (reject_rejected _) _) fun ⟨transfer, address⟩ => .bind (.pass reject_rejected _) fun _ => ?_
  exact .ite (fun _ => .bind (checkTransferUnits_follows transfer) fun _ => .pure _) fun _ => .pure _

theorem addReissueOutput_follows (txid : Uint256) (st : OutputTotals) (txout : CTxOut) :
    Follows NoError (Rejected corrupt) (addReissueOutput E mempool txid st txout) (Hivecoin.addReissueOutput E mempool txid st txout) := by
  refine .bind (.orLeave (reject_rejected _) _) fun ⟨reissue, address⟩ => ?_
  simp only
  cases mempool.mapReissuedAssets.get? reissue.strName with
  | none => exact .pure _
  | some hash => exact .bind (.ensure (reject_rejected _) _) fun _ => .pure _

theorem addOutput_follows (fRunningUnitTests : Bool) (txid : Uint256) (st : OutputTotals) (txout : CTxOut) :
    Follows NoError (Rejected corrupt) (addOutput E S c mempool fRunningUnitTests txid st txout)
      (Hivecoin.addOutput E S c mempool fRunningUnitTests txid st txout) := by
  refine .bind (.ensure (reject_rejected _) _) fun _ => .bind (checkNullAssetOutput_follows txout) fun _ => ?_
  generalize (isAssetScript txout.scriptPubKey).map Script.AssetScript.nType = type
  cases type with
  | none => exact .pure _
  | some type => cases type with
    | TX_TRANSFER_ASSET => exact addTransferOutput_follows fRunningUnitTests st txout
    | TX_REISSUE_ASSET => exact addReissueOutput_follows mempool txid st txout
    | _ => exact .pure _

theorem checkPlainOutput_follows (out : CTxOut) : Follows NoError (Rejected corrupt) (checkPlainOutput E out)
    (match isAssetScript out.scriptPubKey with
    | some a => require (a.nType == .TX_TRANSFER_ASSET) ⟨100, "bad-txns-bad-asset-transaction"⟩
    | none =>
      if find OP_HVN_ASSET out.scriptPubKey ≠ 0 then do
        require E.areRestrictedAssetsDeployed ⟨100, "bad-txns-bad-asset-script"⟩
        require (byteAt out.scriptPubKey 0 == OP_HVN_ASSET)
          ⟨100, "bad-txns-op-hvn-asset-not-in-right-script-location"⟩
      else .ok () : Except Reject Unit) := by
  unfold checkPlainOutput
  cases isAssetScript out.scriptPubKey with
  | some a => exact .ensure (reject_rejected _) _
  | none => exact .ite (fun _ => .bind (.ensure (reject_rejected _) _) fun _ => .ensure (reject_rejected _) _) fun _ => .pure _

theorem contextualCheckKind_follows (fCheckMempool : Bool) (tx : CTransaction) :
    Follows NoError (Rejected corrupt) (contextualCheckKind E S c mempool fCheckMempool tx)
      (Hivecoin.contextualCheckKind E S c mempool fCheckMempool tx) := by
  have hnew : ∀ (asset : CNewAsset) (before : String), Follows NoError (Rejected corrupt)
      (pass (contextualCheckNewAsset E S c mempool asset fCheckMempool) fun e => reject (before ++ e))
      ((contextualCheckNewAsset E S c mempool asset fCheckMempool).orReject 100 before) :=
    fun _ _ => .pass (fun _ => reject_rejected _) _
  refine .ite (fun _ => ?root) fun _ => .ite (fun _ => ?reissue) fun _ => .ite (fun _ => ?unique) fun _ =>
    .ite (fun _ => ?channel) fun _ => .ite (fun _ => ?qualifier) fun _ => .ite (fun _ => ?restricted) fun _ => ?plain
  case root => exact .bind (.orLeave (reject_rejected _) _) fun _ => .pass reject_rejected _
  case reissue => exact .bind (.orLeave (reject_rejected _) _) fun _ => .pass (fun _ => reject_rejected _) _
  case unique => exact .pass (fun _ => reject_rejected _) _
  case channel =>
    exact .bind (.ensure (reject_rejected _) _) fun _ => .bind (.orLeave (reject_rejected _) _) fun _ => hnew _ _
  case qualifier =>
    exact .bind (.ensure (reject_rejected _) _) fun _ => .bind (.orLeave (reject_rejected _) _) fun _ => hnew _ _
  case restricted =>
    exact .bind (.ensure (reject_rejected _) _) fun _ => .bind (.orLeave (reject_rejected _) _) fun _ => .bind (hnew _ _) fun _ =>
      .bind (.pass (fun _ => reject_rejected _) _) fun _ => .bind (.orLeave (reject_rejected _) _) fun _ => .pass reject_rejected _
  case plain => exact .forM checkPlainOutput_follows _

theorem compareTotals_follows (totalInputs totalOutputs : Totals) :
    Follows NoError (Rejected corrupt) (compareTotals totalInputs totalOutputs) (Hivecoin.compareTotals totalInputs totalOutputs) :=
  .bind (.forM (fun _ => .bind (.orLeave (reject_rejected _) _) fun _ => .ensure (reject_rejected _) _) _) fun _ =>
    .ensure (reject_rejected _) _

theorem checkTxAssets_follows (fCheckMempool fRunningUnitTests : Bool) (tx : CTransaction) :
    Follows NoError (Rejected corrupt) (checkTxAssets E S c view mempool fCheckMempool fRunningUnitTests tx)
      (Hivecoin.checkTxAssets E S c view mempool fCheckMempool fRunningUnitTests tx) :=
  .bind (.ensure (reject_rejected _) _) fun _ => .bind (.foldlM (addInput_follows view) _ _) fun _ =>
    .bind (.foldlM (addOutput_follows mempool fRunningUnitTests tx.hash) _ _) fun _ =>
      .bind (contextualCheckKind_follows mempool fCheckMempool tx) fun _ => .bind (compareTotals_follows _ _) fun _ => .pure _

end WithState

end Hivecoin

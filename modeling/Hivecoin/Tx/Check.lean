import Hivecoin.Tx.Classify

/-!
# Checks of a transaction alone

`CheckTransaction` of `consensus/tx_verify.cpp`. A failed check is a `Reject` with the DoS level and the reason.
-/

namespace Hivecoin

open Outcome Script

structure Reject where
  dos : Nat
  reason : String
deriving DecidableEq, Repr

/-- The result of a check as a rejection with a text before it. -/
def Check.orReject (c : Check) (dos : Nat) (before : String) : Except Reject Unit :=
  c.mapError fun e => ⟨dos, before ++ e⟩

/-! ## Asset records -/

def checkAmountWithUnits (nAmount : CAmount) (nUnits : Int8) : Bool :=
  nAmount % Int64.ofNat (10 ^ (MAX_UNIT.toInt - nUnits.toInt).toNat) == 0

def base58Alphabet : Bytes := ascii "123456789ABCDEFGHJKLMNPQRSTUVWXYZabcdefghijkmnopqrstuvwxyz"

/-- The base58 digits, least significant first, at most as many as the fuel. -/
def base58Digits : Nat → Nat → Bytes
  | 0, _ => []
  | _ + 1, 0 => []
  | fuel + 1, n => base58Alphabet.getD (n % 58) 0 :: base58Digits fuel (n / 58)

def encodeBase58 (data : Bytes) : Bytes :=
  let n := data.foldl (fun acc b => acc * 256 + b.toNat) 0
  List.replicate (data.takeWhile (· == 0)).length 49 ++ (base58Digits (2 * data.length) n).reverse

namespace Env

variable (E : Env)

def checkEncoded (hash : Bytes) : Check :=
  let ipfs := hash.length == 34 && (encodeBase58 hash).take 2 == ascii "Qm" &&
    (encodeBase58 hash).length == 46
  require (ipfs || (E.areMessagesDeployed && hash.length == 32))
    "Invalid parameter: ipfs_hash is not valid, or txid hash is not the right length"

end Env

/-- The rules for a type of fixed shape: units, amounts, not reissuable. -/
def checkFixedShape (asset : CNewAsset) (units : Int8) (lo hi : CAmount) (amountError : String) :
    Check := do
  require (asset.units == units) ("Invalid parameter: units must be " ++ toString units.toInt)
  require (lo ≤ asset.nAmount && asset.nAmount ≤ hi) amountError
  require (asset.nReissuable == 0) "Invalid parameter: reissuable must be 0"

def checkNewAssetType (asset : CNewAsset) : AssetType → Check
  | .UNIQUE | .MSGCHANNEL =>
    checkFixedShape asset UNIQUE_ASSET_UNITS UNIQUE_ASSET_AMOUNT UNIQUE_ASSET_AMOUNT
      ("Invalid parameter: amount must be " ++ toString UNIQUE_ASSET_AMOUNT.toInt)
  | .QUALIFIER | .SUB_QUALIFIER =>
    checkFixedShape asset QUALIFIER_ASSET_UNITS QUALIFIER_ASSET_MIN_AMOUNT QUALIFIER_ASSET_MAX_AMOUNT
      ("Invalid parameter: amount must be between " ++ toString QUALIFIER_ASSET_MIN_AMOUNT.toInt ++
        " - " ++ toString QUALIFIER_ASSET_MAX_AMOUNT.toInt)
  | _ => .ok ()

def invalidName : String :=
  "Invalid parameter: asset_name must only consist of valid characters and have a size between 3 and 30 characters. See help for more details."

def checkNewAsset (asset : CNewAsset) : Check := do
  let assetType ← (isAssetNameValid asset.strName).mapError fun _ => invalidName
  checkNewAssetType asset assetType
  require (!isAssetNameAnOwner asset.strName)
    "Invalid parameters: asset_name can't have a '!' at the end of it. See help for more details."
  require (0 < asset.nAmount) "Invalid parameter: asset amount can't be equal to or less than zero."
  require (asset.nAmount ≤ MAX_MONEY)
    ("Invalid parameter: asset amount greater than max money: " ++ toString (MAX_MONEY / COIN).toInt)
  require (0 ≤ asset.units && asset.units ≤ 8) "Invalid parameter: units must be between 0-8."
  require (checkAmountWithUnits asset.nAmount asset.units)
    "Invalid parameter: amount must be divisible by the smaller unit assigned to the asset"
  require (asset.nReissuable == 0 || asset.nReissuable == 1)
    "Invalid parameter: reissuable must be 0 or 1"
  require (asset.nHasIPFS == 0 || asset.nHasIPFS == 1) "Invalid parameter: has_ipfs must be 0 or 1."

/-- Two blocks of the test network hold reissues from before the rule. -/
def skipsReissuableRule (network : Network) (asset : CReissueAsset) : Bool :=
  network == .TESTNET &&
    ((asset.strName == ascii "GAMINGWEB" && asset.nReissuable == 109) ||
      (asset.strName == ascii "UINT8" && asset.nReissuable == -47))

def Env.checkReissueAsset (E : Env) (asset : CReissueAsset) : Check := do
  require (0 ≤ asset.nAmount && asset.nAmount < MAX_MONEY)
    "Unable to reissue asset: amount must be 0 or larger"
  require (asset.nUnits ≤ MAX_UNIT && -1 ≤ asset.nUnits)
    "Unable to reissue asset: unit must be between 8 and -1"
  require (skipsReissuableRule E.network asset || asset.nReissuable == 0 || asset.nReissuable == 1)
    "Unable to reissue asset: reissuable must be 0 or 1"

def Env.transferIsValid (E : Env) (transfer : CAssetTransfer) : Check := do
  let _ ← (isAssetNameValid transfer.strName).mapError fun _ => invalidName
  require (0 < transfer.nAmount) "Invalid parameter: asset amount can't be equal to or less than zero."
  require (transfer.message != [] || transfer.nExpireTime ≤ 0)
    "Invalid parameter: asset transfer expiration time requires a message to be attached to the transfer"
  require (0 ≤ transfer.nExpireTime) "Invalid parameter: expiration time must be a positive value"
  if transfer.message != [] then E.checkEncoded transfer.message else .ok ()

def verifyNullAssetDataFlag (flag : Int8) : Check :=
  require (flag == 0 || flag == 1) "bad-txns-null-data-flag-must-be-0-or-1"

def checkVerifierAssetTxOut (txout : CTxOut) : Check := do
  let verifier ← orError (assetNullVerifierDataFromScript txout.scriptPubKey)
    "bad-txns-null-verifier-data-serialization"
  require (!verifier.contains 32) "bad-txns-null-verifier-data-contained-whitespaces"
  require (!verifier.contains QUALIFIER_CHAR)
    "bad-txns-null-verifier-data-contained-qualifier-character-#"
  let _ ← checkVerifierString verifier

/-! ## The loop over the outputs -/

structure CheckFlags where
  fCheckDuplicateInputs : Bool := true
  fMempoolCheck : Bool := false
  fBlockCheck : Bool := false

/-- What the loop over the outputs collects. -/
structure OutputScan where
  nValueOut : CAmount := 0
  setAssetTransferNames : List Bytes := []
  mapNullDataTxCount : List (Bytes × Bytes) := []
  setNullGlobalAssetChanges : List Bytes := []
  fContainsNullAssetVerifierTx : Bool := false
  nCountAddTagOuts : Nat := 0

def pairLt (a b : Bytes × Bytes) : Bool := bytesLt a.1 b.1 || (a.1 == b.1 && bytesLt a.2 b.2)

def scanValue (st : OutputScan) (nValue : CAmount) : Except Reject OutputScan := do
  require (0 ≤ nValue) ⟨100, "bad-txns-vout-negative"⟩
  require (nValue ≤ MAX_MONEY) ⟨100, "bad-txns-vout-toolarge"⟩
  require (moneyRange (st.nValueOut + nValue)) ⟨100, "bad-txns-txouttotal-toolarge"⟩
  return { st with nValueOut := st.nValueOut + nValue }

namespace Env

variable (E : Env) (st : OutputScan) (tx : CTransaction)

def scanNullAssetTxData (script : Bytes) : Except Reject OutputScan := do
  let (data, address) ← orError (E.assetNullDataFromScript script)
    ⟨100, "bad-txns-null-asset-data-serialization"⟩
  (verifyNullAssetDataFlag data.flag).orReject 100 ""
  require (!st.mapNullDataTxCount.contains (data.asset_name, address))
    ⟨100, "bad-txns-null-data-only-one-change-per-asset-address"⟩
  let adds := isAssetNameAQualifier data.asset_name && data.flag == 1
  return { st with
    mapNullDataTxCount := insertSorted pairLt (data.asset_name, address) st.mapNullDataTxCount
    nCountAddTagOuts := st.nCountAddTagOuts + (if adds then 1 else 0) }

def scanNullGlobal (script : Bytes) : Except Reject OutputScan := do
  let data ← orError (globalAssetNullDataFromScript script)
    ⟨100, "bad-txns-null-global-asset-data-serialization"⟩
  (verifyNullAssetDataFlag data.flag).orReject 100 ""
  require (!st.setNullGlobalAssetChanges.contains data.asset_name)
    ⟨100, "bad-txns-null-data-only-one-global-change-per-asset-name"⟩
  return { st with
    setNullGlobalAssetChanges := insertSorted bytesLt data.asset_name st.setNullGlobalAssetChanges }

def scanNullVerifier (txout : CTxOut) : Except Reject OutputScan := do
  (checkVerifierAssetTxOut txout).orReject 100 ""
  require (!st.fContainsNullAssetVerifierTx) ⟨100, "bad-txns-null-data-only-one-verifier-per-tx"⟩
  return { st with fContainsNullAssetVerifierTx := true }

def scanNullAsset (txout : CTxOut) : Except Reject OutputScan :=
  if isNullAssetTxDataScript txout.scriptPubKey then E.scanNullAssetTxData st txout.scriptPubKey
  else if isNullGlobalRestrictionAssetTxDataScript txout.scriptPubKey then
    scanNullGlobal st txout.scriptPubKey
  else if isNullAssetVerifierTxDataScript txout.scriptPubKey then scanNullVerifier st txout
  else .ok st

def scanTransfer (txout : CTxOut) : Except Reject OutputScan := do
  let (transfer, _) ← orError (E.transferAssetFromScript txout.scriptPubKey)
    ⟨100, "bad-txns-transfer-asset-bad-deserialize"⟩
  let assetType ← (isAssetNameValid transfer.strName).mapError fun _ =>
    ⟨100, "bad-txns-transfer-asset-name-invalid"⟩
  require (!isAssetNameAnOwner transfer.strName || transfer.nAmount == OWNER_ASSET_AMOUNT)
    ⟨100, "bad-txns-transfer-owner-amount-was-not-1"⟩
  require (assetType != .UNIQUE || transfer.nAmount == UNIQUE_ASSET_AMOUNT)
    ⟨100, "bad-txns-transfer-unique-amount-was-not-1"⟩
  require ((assetType != .QUALIFIER && assetType != .SUB_QUALIFIER) ||
      (QUALIFIER_ASSET_MIN_AMOUNT ≤ transfer.nAmount && transfer.nAmount ≤ QUALIFIER_ASSET_MAX_AMOUNT))
    ⟨100, "bad-txns-transfer-qualifier-amount-must be between 1 - 100"⟩
  require (txout.nValue == 0) ⟨100, "bad-txns-asset-transfer-amount-isn't-zero"⟩
  return { st with setAssetTransferNames := insertSorted bytesLt transfer.strName st.setAssetTransferNames }

def scanAsset (flags : CheckFlags) (st : OutputScan) (txout : CTxOut) : Except Reject OutputScan :=
  match isAssetScript txout.scriptPubKey with
  | none => .ok st
  | some a => match a.nType with
    | .TX_TRANSFER_ASSET => E.scanTransfer st txout
    | .TX_NEW_ASSET => do
        require (txout.nValue == 0) ⟨100, "bad-txns-asset-issued-amount-isn't-zero"⟩
        return st
    | .TX_REISSUE_ASSET => do
        require (!(E.areEnforcedValuesDeployed && flags.fBlockCheck) || txout.nValue == 0)
          ⟨0, "bad-txns-asset-reissued-amount-isn't-zero"⟩
        require (!flags.fMempoolCheck || txout.nValue == 0)
          ⟨0, "bad-mempool-txns-asset-reissued-amount-isn't-zero"⟩
        return st
    | _ => .error ⟨0, "bad-asset-type-not-any-of-the-main-three"⟩

def scanOut (flags : CheckFlags) (st : OutputScan) (txout : CTxOut) : Except Reject OutputScan := do
  let st ← scanValue st txout.nValue
  let st ← E.scanNullAsset st txout
  E.scanAsset flags st txout

/-! ## After the loop -/

/-- Each null-data change needs a transfer of the token that authorises it. -/
def checkNullDataAuthority : Except Reject Unit := do
  st.mapNullDataTxCount.forM fun (name, _) =>
    if name.headD 0 = RESTRICTED_CHAR then
      require (st.setAssetTransferNames.contains (name.drop 1 ++ OWNER_TAG))
        ⟨100, "bad-txns-tx-contains-restricted-asset-null-tx-without-asset-transfer"⟩
    else
      require (st.setAssetTransferNames.contains name)
        ⟨100, "bad-txns-tx-contains-qualifier-asset-null-tx-without-asset-transfer"⟩
  st.setNullGlobalAssetChanges.forM fun name => do
    require (name != []) ⟨100, "bad-txns-tx-contains-global-asset-null-tx-with-null-asset-name"⟩
    require (st.setAssetTransferNames.contains (name.drop 1 ++ OWNER_TAG))
      ⟨100, "bad-txns-tx-contains-global-asset-null-tx-without-asset-transfer"⟩

def checkCoinbaseOrPrevouts : Except Reject Unit :=
  if tx.isCoinBase then do
    let size := ((tx.vin.map (·.scriptSig)).headD []).length
    require (2 ≤ size && size ≤ 100) ⟨100, "bad-cb-length"⟩
    require (!E.areCoinbaseCheckAssetsDeployed || tx.vout.all fun out =>
        (isAssetScript out.scriptPubKey).isNone && !isNullAsset out.scriptPubKey)
      ⟨0, "bad-txns-coinbase-contains-asset-txes"⟩
  else require (tx.vin.all fun txin => !txin.prevout.isNull) ⟨10, "bad-txns-prevout-null"⟩

/-- Which restricted-asset action the transaction carries, if any. -/
inductive RestrictedAction where
  | none | issue | reissue
deriving DecidableEq

def checkIssueTx : Except Reject RestrictedAction := do
  (E.verifyNewAsset tx).orReject 100 ""
  let (asset, strAddress) ← orError (E.assetFromTransaction tx)
    ⟨100, "bad-txns-issue-asset-from-transaction"⟩
  (E.isNewOwnerTxValid tx asset.strName strAddress).orReject 100 ""
  (checkNewAsset asset).orReject 100 ""
  return .none

def checkReissueTx : Except Reject RestrictedAction := do
  (E.verifyReissueAsset tx).orReject 100 ""
  let (reissue, _) ← orError (E.reissueAssetFromTransaction tx) ⟨100, "bad-txns-reissue-asset"⟩
  (E.checkReissueAsset reissue).orReject 100 ""
  if assetTypeOf reissue.strName = .RESTRICTED then do
    let _ ← (getVerifierStringFromTx tx).mapError fun e =>
      (⟨100, "bad-txns-reissue-restricted-verifier-" ++ e⟩ : Reject)
    return .reissue
  else return .none

def checkUniqueTx : Except Reject RestrictedAction := do
  (E.verifyNewUniqueAsset tx).orReject 100 ""
  tx.vout.forM fun out =>
    if E.isScriptNewUniqueAsset out.scriptPubKey then do
      let (asset, _) ← orError (E.assetFromScript out.scriptPubKey)
        ⟨100, "bad-txns-check-transaction-issue-unique-asset-serialization"⟩
      (checkNewAsset asset).orReject 100 "bad-txns-issue-unique"
    else .ok ()
  return .none

def checkMsgChannelTx : Except Reject RestrictedAction := do
  (E.verifyNewMsgChannelAsset tx).orReject 100 ""
  let (asset, _) ← orError (E.msgChannelAssetFromTransaction tx)
    ⟨100, "bad-txns-issue-msgchannel-from-transaction"⟩
  (checkNewAsset asset).orReject 100 "bad-txns-issue-msgchannel"
  return .none

def checkQualifierTx : Except Reject RestrictedAction := do
  (E.verifyNewQualfierAsset tx).orReject 100 ""
  let (asset, _) ← orError (E.qualifierAssetFromTransaction tx)
    ⟨100, "bad-txns-issue-qualifier-from-transaction"⟩
  (checkNewAsset asset).orReject 100 "bad-txns-issue-qualfier"
  return .none

def checkRestrictedTx : Except Reject RestrictedAction := do
  (E.verifyNewRestrictedAsset tx).orReject 100 ""
  let (asset, _) ← orError (E.restrictedAssetFromTransaction tx)
    ⟨100, "bad-txns-issue-restricted-from-transaction"⟩
  (checkNewAsset asset).orReject 100 "bad-txns-issue-restricted"
  let verifier ← (getVerifierStringFromTx tx).mapError fun e =>
    (⟨100, "bad-txns-issue-restricted-verifier-search-" ++ e⟩ : Reject)
  require verifier.isSome ⟨100, "bad-txns-issue-restricted-verifier-search-Verifier string not found"⟩
  return .issue

/-- A transaction of no special kind: asset scripts are transfers, and the asset opcode stands only in asset scripts and at the
front of null-asset scripts. -/
def checkPlainTx : Except Reject RestrictedAction := do
  tx.vout.forM fun out =>
    match isAssetScript out.scriptPubKey with
    | some a => require (a.nType == .TX_TRANSFER_ASSET) ⟨100, "bad-txns-bad-asset-transaction"⟩
    | none => require (find OP_HVN_ASSET out.scriptPubKey == 0 ||
          byteAt out.scriptPubKey 0 == OP_HVN_ASSET)
        ⟨100, "bad-txns-op-hvn-asset-not-in-right-script-location"⟩
  return .none

/-- The classifiers, in the order in which the source tries them. -/
def checkKind : Except Reject RestrictedAction :=
  if E.isNewAsset tx then E.checkIssueTx tx
  else if isReissueAsset tx then E.checkReissueTx tx
  else if E.isNewUniqueAsset tx then E.checkUniqueTx tx
  else if E.isNewMsgChannelAsset tx then E.checkMsgChannelTx tx
  else if E.isNewQualifierAsset tx then E.checkQualifierTx tx
  else if E.isNewRestrictedAsset tx then E.checkRestrictedTx tx
  else checkPlainTx tx

/-- The size of a transaction without witness data. -/
def serializeSize : Nat :=
  let prefixSize (n : Nat) := if n < 253 then 1 else if n < 0x10000 then 3 else if n < 0x100000000 then 5 else 9
  4 + prefixSize tx.vin.length +
    (tx.vin.map fun i => 36 + prefixSize i.scriptSig.length + i.scriptSig.length + 4).sum +
    prefixSize tx.vout.length +
    (tx.vout.map fun o => 8 + prefixSize o.scriptPubKey.length + o.scriptPubKey.length).sum + 4

def WITNESS_SCALE_FACTOR : Nat := 4
def MAX_BLOCK_WEIGHT_HIP2 : Nat := 8000000

def checkTransaction (flags : CheckFlags) (tx : CTransaction) : Except Reject Unit := do
  require (tx.vin != []) ⟨10, "bad-txns-vin-empty"⟩
  require (tx.vout != []) ⟨10, "bad-txns-vout-empty"⟩
  require (serializeSize tx * WITNESS_SCALE_FACTOR ≤ MAX_BLOCK_WEIGHT_HIP2) ⟨100, "bad-txns-oversize"⟩
  let scan ← tx.vout.foldlM (E.scanOut flags) {}
  require (scan.nCountAddTagOuts == 0 || E.checkAddingTagBurnFee tx scan.nCountAddTagOuts)
    ⟨100, "bad-txns-tx-doesn't-contain-required-burn-fee-for-adding-tags"⟩
  checkNullDataAuthority scan
  require (!flags.fCheckDuplicateInputs || (tx.vin.map (·.prevout)).Nodup)
    ⟨100, "bad-txns-inputs-duplicate"⟩
  E.checkCoinbaseOrPrevouts tx
  let action ← E.checkKind tx
  require (!scan.fContainsNullAssetVerifierTx || action != .none)
    ⟨100, "bad-txns-tx-cointains-verifier-string-without-restricted-asset-issuance-or-reissuance"⟩
  require (action != .issue || scan.fContainsNullAssetVerifierTx)
    ⟨100, "bad-txns-tx-cointains-restricted-asset-issuance-without-verifier"⟩

end Env

end Hivecoin

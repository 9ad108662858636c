import Hivecoin.Base.ByteStream
import Hivecoin.Assets.Name
import Hivecoin.Env

/-!
# Decoding asset scripts

The `*FromScript` functions of `assets/assets.cpp` and the amount readers of `script/script.cpp`.
-/

namespace Hivecoin

open ByteReader Script

namespace Read

def MAX_SIZE : Nat := 0x02000000

def string : ByteReader Bytes := lengthPrefixed MAX_SIZE

/-- `ReadWriteAssetHash` when reading: the hash, and whether one was there. -/
def assetHash : ByteReader (Bytes × Bool) := do
  if (← remaining) ≥ 33 then
    let tag ← natLE 1
    let hash ← string
    return ((if tag = 0x12 then [0x12, 0x20] else []) ++ hash.take 32, true)
  else
    return ([], false)

def newAsset : ByteReader CNewAsset := do
  let strName ← string
  let nAmount ← int64
  let units ← int8
  let nReissuable ← int8
  let nHasIPFS ← int8
  let strIPFSHash ← if nHasIPFS = 1 then (·.1) <$> assetHash else pure []
  return { strName, nAmount, units, nReissuable, nHasIPFS, strIPFSHash }

def assetTransfer : ByteReader CAssetTransfer := do
  let strName ← string
  let nAmount ← int64
  let (message, validIPFS) ← assetHash
  let nExpireTime ← if validIPFS ∧ (← remaining) ≥ 8 then int64 else pure 0
  return { strName, nAmount, message, nExpireTime }

def reissueAsset : ByteReader CReissueAsset := do
  let strName ← string
  let nAmount ← int64
  let nUnits ← int8
  let nReissuable ← int8
  let (strIPFSHash, _) ← assetHash
  return { strName, nAmount, nUnits, nReissuable, strIPFSHash }

def nullAssetTxData : ByteReader CNullAssetTxData := do
  let asset_name ← string
  let flag ← int8
  return { asset_name, flag }

def from_ {α : Type} (r : ByteReader α) (script : Bytes) (offset : Nat) : Option α :=
  (·.1) <$> r.run (script.drop offset)

end Read

/-! ## Scripts of coins -/

namespace Env

variable (E : Env) (script : Bytes)

/-- The three kinds of script tests that look at the letter alone. -/
def isScriptNewAsset : Option Nat :=
  match isAssetScript script with
  | some ⟨.TX_NEW_ASSET, false, i⟩ => some i
  | _ => none

def isScriptOwnerAsset : Option Nat :=
  match isAssetScript script with
  | some ⟨.TX_NEW_ASSET, true, i⟩ => some i
  | _ => none

def isScriptReissueAsset : Option Nat :=
  match isAssetScript script with
  | some ⟨.TX_REISSUE_ASSET, _, i⟩ => some i
  | _ => none

def isScriptTransferAsset : Option Nat :=
  match isAssetScript script with
  | some ⟨.TX_TRANSFER_ASSET, _, i⟩ => some i
  | _ => none

/-- Before the script-size rule the data is taken from byte 31 on, wherever the marker stands. -/
def transferAssetFromScript : Option (CAssetTransfer × Bytes) := do
  let nStartingIndex ← isScriptTransferAsset script
  let offset := if E.areTransferScriptsSizeDeployed then nStartingIndex else 31
  let transfer ← Read.from_ Read.assetTransfer script offset
  return (transfer, E.scriptAddress script)

def assetFromScript : Option (CNewAsset × Bytes) := do
  let nStartingIndex ← isScriptNewAsset script
  let asset ← Read.from_ Read.newAsset script nStartingIndex
  return (asset, E.scriptAddress script)

def ownerAssetFromScript : Option (Bytes × Bytes) := do
  let nStartingIndex ← isScriptOwnerAsset script
  let assetName ← Read.from_ Read.string script nStartingIndex
  return (assetName, E.scriptAddress script)

def reissueAssetFromScript : Option (CReissueAsset × Bytes) := do
  let nStartingIndex ← isScriptReissueAsset script
  let reissue ← Read.from_ Read.reissueAsset script nStartingIndex
  return (reissue, E.scriptAddress script)

/-- The script issues an asset whose name has one of the given types. -/
def isScriptNewAssetOf (types : List AssetType) (script : Bytes) : Bool :=
  match E.assetFromScript script with
  | some (asset, _) => match isAssetNameValid asset.strName with
    | .ok type => types.contains type
    | .error _ => false
  | none => false

def isScriptNewUniqueAsset : Bool := E.isScriptNewAssetOf [.UNIQUE] script
def isScriptNewMsgChannelAsset : Bool := E.isScriptNewAssetOf [.MSGCHANNEL] script
def isScriptNewQualifierAsset : Bool :=
  E.isScriptNewAssetOf [.QUALIFIER, .SUB_QUALIFIER] script
def isScriptNewRestrictedAsset : Bool := E.isScriptNewAssetOf [.RESTRICTED] script

/-- A typed issuance read as a plain one after its script test. -/
def typedAssetFromScript (test : Bytes → Bool) (script : Bytes) : Option (CNewAsset × Bytes) :=
  if test script then E.assetFromScript script else none

def msgChannelAssetFromScript : Option (CNewAsset × Bytes) :=
  E.typedAssetFromScript E.isScriptNewMsgChannelAsset script

def qualifierAssetFromScript : Option (CNewAsset × Bytes) :=
  E.typedAssetFromScript E.isScriptNewQualifierAsset script

def restrictedAssetFromScript : Option (CNewAsset × Bytes) :=
  E.typedAssetFromScript E.isScriptNewRestrictedAsset script

/-- `GetAssetData`; the readers tried after a plain issuance read it again. -/
def getAssetData : Option CAssetOutputEntry :=
  match isAssetScript script with
  | some ⟨.TX_NEW_ASSET, false, _⟩ => do
      let (asset, address) ← E.assetFromScript script
      return { type := .TX_NEW_ASSET, nAmount := asset.nAmount, assetName := asset.strName
               destination := E.decodeDestination address, message := [], expireTime := 0 }
  | some ⟨.TX_TRANSFER_ASSET, _, _⟩ => do
      let (transfer, address) ← E.transferAssetFromScript script
      return { type := .TX_TRANSFER_ASSET, nAmount := transfer.nAmount, assetName := transfer.strName
               destination := E.decodeDestination address, message := transfer.message
               expireTime := transfer.nExpireTime }
  | some ⟨.TX_NEW_ASSET, true, _⟩ => do
      let (assetName, address) ← E.ownerAssetFromScript script
      return { type := .TX_NEW_ASSET, nAmount := OWNER_ASSET_AMOUNT, assetName
               destination := E.decodeDestination address, message := [], expireTime := 0 }
  | some ⟨.TX_REISSUE_ASSET, _, _⟩ => do
      let (reissue, address) ← E.reissueAssetFromScript script
      return { type := .TX_REISSUE_ASSET, nAmount := reissue.nAmount, assetName := reissue.strName
               destination := E.decodeDestination address, message := [], expireTime := 0 }
  | _ => none

def assetNullDataFromScript : Option (CNullAssetTxData × Bytes) := do
  if !isNullAssetTxDataScript script then none
  let data ← Read.from_ Read.nullAssetTxData script 23
  return (data, E.scriptAddress script)

end Env

variable (script : Bytes)

def globalAssetNullDataFromScript : Option CNullAssetTxData :=
  if isNullGlobalRestrictionAssetTxDataScript script then
    Read.from_ Read.nullAssetTxData script 4
  else none

def assetNullVerifierDataFromScript : Option Bytes :=
  if isNullAssetVerifierTxDataScript script then Read.from_ Read.string script 3 else none

/-- `GetAssetAmountFromScript`, which always honours the starting index. -/
def getAssetAmountFromScript : Option CAmount :=
  match isAssetScript script with
  | some ⟨.TX_NEW_ASSET, false, i⟩ => (·.nAmount) <$> Read.from_ Read.newAsset script i
  | some ⟨.TX_TRANSFER_ASSET, _, i⟩ => (·.nAmount) <$> Read.from_ Read.assetTransfer script i
  | some ⟨.TX_NEW_ASSET, true, _⟩ => some OWNER_ASSET_AMOUNT
  | some ⟨.TX_REISSUE_ASSET, _, i⟩ => (·.nAmount) <$> Read.from_ Read.reissueAsset script i
  | _ => none

def isUnspendable : Bool :=
  (script.length > 0 && byteAt script 0 == OP_RETURN) ||
  (script.length > 0 && byteAt script 0 == OP_HVN_ASSET) ||
  script.length > MAX_SCRIPT_SIZE ||
  getAssetAmountFromScript script == some 0

end Hivecoin

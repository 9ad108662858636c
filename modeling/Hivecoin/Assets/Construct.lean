import Hivecoin.Assets.Decode

/-!
# Building asset scripts

`GetScriptForDestination` for key hashes, the `Construct*Transaction` functions and a regtest configuration.
-/

namespace Hivecoin

open ByteWriter List


def pushBytes (s : Bytes) : Bytes :=
  if s.length < OP_PUSHDATA1.toNat then UInt8.ofNat s.length :: s
  else if s.length ≤ 0xff then OP_PUSHDATA1 :: natLE 1 s.length ++ s
  else if s.length ≤ 0xffff then OP_PUSHDATA2 :: natLE 2 s.length ++ s
  else OP_PUSHDATA4 :: natLE 4 s.length ++ s

def scriptForKeyID (hash : Bytes) : Bytes :=
  [OP_DUP, OP_HASH160] ++ pushBytes hash ++ [OP_EQUALVERIFY, OP_CHECKSIG]

def scriptForDestination : CTxDestination → Bytes
  | .none => []
  | .keyID hash => scriptForKeyID hash
  | .scriptID hash => OP_HASH160 :: pushBytes hash ++ [OP_EQUAL]

/-- The asset part: the marker, a letter for the kind and the serialized record. -/
def assetPart (kind : UInt8) (data : Bytes) : Bytes :=
  OP_HVN_ASSET :: pushBytes ([Script.HVN_H, Script.HVN_V, Script.HVN_N, kind] ++ data) ++ [OP_DROP]

namespace Write

/-- `ReadWriteAssetHash` when writing. -/
def assetHash (hash : Bytes) : Bytes :=
  if hash.length = 34 then 0x12 :: lengthPrefixed (hash.drop 2)
  else if hash.length = 32 then 0x54 :: lengthPrefixed hash
  else []

def newAsset (a : CNewAsset) : Bytes :=
  lengthPrefixed a.strName ++ int64 a.nAmount ++ int8 a.units ++ int8 a.nReissuable ++ int8 a.nHasIPFS ++
    (if a.nHasIPFS = 1 then assetHash a.strIPFSHash else [])

def assetTransfer (t : CAssetTransfer) : Bytes :=
  lengthPrefixed t.strName ++ int64 t.nAmount ++ assetHash t.message ++
    (if (t.message.length = 34 ∨ t.message.length = 32) ∧ t.nExpireTime ≠ 0 then int64 t.nExpireTime else [])

def reissueAsset (r : CReissueAsset) : Bytes :=
  lengthPrefixed r.strName ++ int64 r.nAmount ++ int8 r.nUnits ++ int8 r.nReissuable ++
    assetHash r.strIPFSHash

def nullAssetTxData (d : CNullAssetTxData) : Bytes := lengthPrefixed d.asset_name ++ int8 d.flag

end Write

variable (dest : Bytes)

def newAssetScript (a : CNewAsset) : Bytes :=
  scriptForKeyID dest ++ assetPart Script.HVN_Q (Write.newAsset a)

def ownerAssetScript (a : CNewAsset) : Bytes :=
  scriptForKeyID dest ++ assetPart Script.HVN_O (lengthPrefixed (a.strName ++ OWNER_TAG))

def transferScript (t : CAssetTransfer) : Bytes :=
  scriptForKeyID dest ++ assetPart Script.HVN_T (Write.assetTransfer t)

def reissueScript (r : CReissueAsset) : Bytes :=
  scriptForKeyID dest ++ assetPart Script.HVN_H (Write.reissueAsset r)

def nullAssetTxDataScript (d : CNullAssetTxData) : Bytes :=
  OP_HVN_ASSET :: pushBytes dest ++ pushBytes (Write.nullAssetTxData d)

def scriptForNullAssetDataDestination : CTxDestination → Bytes
  | .none => []
  | .keyID hash | .scriptID hash => OP_HVN_ASSET :: pushBytes hash

def globalRestrictionScript (d : CNullAssetTxData) : Bytes :=
  [OP_HVN_ASSET, OP_RESERVED, OP_RESERVED] ++ pushBytes (Write.nullAssetTxData d)

def verifierScript (verifier : Bytes) : Bytes :=
  [OP_HVN_ASSET, OP_RESERVED] ++ pushBytes (lengthPrefixed verifier)

/-! ## The regression-test network -/

namespace Regtest

/-- The burn addresses, the community's address and two keys, with their hashes. -/
def addresses : List (Bytes × Bytes) :=
  [([0x45, 0x0b, 0x1e, 0x4e, 0xaf, 0x91, 0x0a, 0xca, 0xee, 0x23, 0xff, 0xd6, 0x6e, 0xe0, 0x18, 0x89, 0xea, 0xa2,
      0xfe, 0x71], ascii "J1VQJKLSLVZ4syiCAx5hEPq8BrkFaxAXAi"),
    ([0x55, 0x5c, 0xe1, 0x0c, 0x9f, 0xe0, 0xae, 0x74, 0x12, 0x11, 0x63, 0x0f, 0xd6, 0x2d, 0x55, 0x73, 0x12,
      0x10, 0xbc, 0xe5], ascii "J2yh4DiLETuVVDvpvBNSq3QCmHcdMmNEdp"),
    ([0x59, 0xd0, 0x4f, 0x52, 0xec, 0xf9, 0x46, 0xdc, 0x35, 0x13, 0xf9, 0xca, 0x6a, 0xe9, 0xe4, 0xed, 0x24,
      0xd8, 0xf2, 0x1f], ascii "J3PE3FsHqfszvz7nhwK2Gc32wykrc7pNMA"),
    ([0x6b, 0x3b, 0x12, 0x58, 0x72, 0x4a, 0x3f, 0xd5, 0x29, 0x8d, 0x7a, 0x8c, 0x5c, 0xcc, 0xc2, 0x3e, 0x48,
      0x01, 0xa3, 0xbd], ascii "J4yKRTYF2nRryYEnupsNnQQmRKsQhdspYB"),
    ([0x6d, 0x05, 0x87, 0xc8, 0x4a, 0x27, 0xde, 0x84, 0x17, 0xde, 0xea, 0xb4, 0x69, 0x99, 0x51, 0x99, 0x4e,
      0x6d, 0x07, 0x2b], ascii "J58ndjHjLYKHMszr4ehUg9YMWPAiXNEepa"),
    ([0x78, 0x05, 0x53, 0xef, 0x49, 0xa1, 0xbd, 0xd6, 0x44, 0x00, 0xc8, 0xec, 0x13, 0x9e, 0x49, 0x4d, 0xd4,
      0xcf, 0x97, 0x4e], ascii "J68wpmVvdE6bMSkiCEDQWCHCKZs4VVdE2G"),
    ([0x85, 0x5a, 0x90, 0x99, 0xe9, 0x19, 0xf5, 0x68, 0x7d, 0x36, 0x76, 0x6b, 0x45, 0x47, 0xf4, 0x8a, 0x86,
      0x80, 0x28, 0x2e], ascii "J7MSidYgNJrPE15ouEsXPYXFYH2AAPXmhr"),
    ([0x96, 0x63, 0xaf, 0xf7, 0xec, 0xd4, 0xa8, 0x38, 0xa5, 0xbc, 0x1c, 0x89, 0x8c, 0x45, 0x9b, 0xfc, 0x8f,
      0x95, 0x6a, 0xcb], ascii "J8uX8jfZn14P1VNzh6YjSzLaRTQAdoFSHn"),
    ([0x99, 0xaa, 0xc7, 0xe1, 0xa6, 0x01, 0x84, 0xa0, 0xd0, 0x2d, 0x73, 0x3a, 0x08, 0xfd, 0xff, 0x05, 0xdf,
      0xdd, 0x90, 0xcf], ascii "J9CrKy8m548AvSbcv1mcn7tyJQkgcwVfj6"),
    ([0xbc, 0xa4, 0xa1, 0x14, 0x05, 0x85, 0xbb, 0xfd, 0x2e, 0xba, 0xeb, 0xc6, 0x05, 0x30, 0xad, 0x1d, 0x11,
      0xc9, 0x91, 0x2d], ascii "JCPncGFawSDgP3CmG19MB6cbKP5XuhXY4u"),
    (replicate 20 1, ascii "HuHeEWMqshKwjgUcEE7WicvzRsjuF1pWxo"),
    (replicate 20 2, ascii "HuNx7TCavpC68A6aRqEe4yRwRZfBezJQZx")]

/-- The address of a key hash; a hash outside the table is written as it is. -/
def addressOf (hash : Bytes) : Bytes :=
  match addresses.find? fun e => e.1 == hash with
  | some e => e.2
  | none => 0 :: hash

def hashOf (address : Bytes) : Option Bytes :=
  match address with
  | 0 :: hash => some hash
  | _ => (addresses.find? fun e => e.2 == address).map (·.1)

theorem hashOf_listed : ∀ e ∈ addresses, hashOf e.2 = some e.1 ∧ e.2 ≠ [] := by
  decide +kernel

theorem hashOf_addressOf (hash : Bytes) : hashOf (addressOf hash) = some hash ∧ addressOf hash ≠ [] := by
  unfold addressOf
  cases h : addresses.find? fun e => e.1 == hash with
  | none => exact ⟨rfl, by simp⟩
  | some e =>
    have he : e.1 = hash := by simpa using find?_some h
    obtain ⟨h1, h2⟩ := hashOf_listed e (mem_of_find?_eq_some h)
    exact ⟨he ▸ h1, h2⟩

/-- Script hashes are written as they are, after a byte of their own. -/
def destinationOf (address : Bytes) : CTxDestination :=
  match address with
  | 1 :: hash => .scriptID hash
  | _ => match hashOf address with
    | some hash => .keyID hash
    | none => .none

theorem destinationOf_addressOf (hash : Bytes) : destinationOf (addressOf hash) = .keyID hash := by
  have hhash := (hashOf_addressOf hash).1
  have hlisted : ∀ e ∈ addresses, e.2.head? ≠ some 1 := by decide +kernel
  unfold destinationOf
  split
  · rename_i rest heq
    rw [heq, hashOf] at hhash
    · obtain ⟨e, he, -⟩ := Option.map_eq_some_iff.1 hhash
      have haddress : e.2 = 1 :: rest := by simpa using find?_some he
      exact absurd (by rw [haddress]; rfl) (hlisted e (mem_of_find?_eq_some he))
    · simp
  · rw [hhash]

def codec : AddressCodec where
  encode
    | .keyID hash => addressOf hash
    | .scriptID hash => 1 :: hash
    | .none => []
  decode := destinationOf
  encode_none := rfl
  decode_encode hash _ := destinationOf_addressOf hash
  encode_ne_nil hash _ := (hashOf_addressOf hash).2

/-- The regression-test network with all deployments active. -/
def env : Env where
  network := .REGTEST
  codec := codec
  hash160 := fun _ => replicate 20 0
  fAssetIndex := false
  fReindex := false
  fUnitTest := false
  areAssetsDeployed := true
  isRip5Active := true
  areTransferScriptsSizeDeployed := true
  areCoinbaseCheckAssetsDeployed := true
  areEnforcedValuesDeployed := true
  uninitialised := 0

def alice : Bytes := replicate 20 1
def bob : Bytes := replicate 20 2

def burnOut (type : AssetType) : CTxOut :=
  ⟨getBurnAmount type, scriptForKeyID ((hashOf (getBurnAddress .REGTEST type)).getD [])⟩

def gold : CNewAsset := ⟨ascii "GOLD", 1000, 8, 1, 0, []⟩

def ownerGoldOut : CTxOut := ⟨0, transferScript alice ⟨ascii "GOLD!", OWNER_ASSET_AMOUNT, [], 0⟩⟩

end Regtest

end Hivecoin
